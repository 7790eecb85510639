import StyleCalc.Double
import StyleCalc.Environment
import StyleCalc.Proofs.OutcomeInvariant
import StyleCalc.Url.Standard

set_option autoImplicit false

namespace StyleCalc

open Node

namespace Text

theorem fold_s (c : Char) : fold c = 's' ↔ c.toLower = 's' ∨ c.toLower = '\u017f' := by
  rw [fold_eq_iff, to_lower_eq_iff c '\u017f' rfl]
  constructor
  · rintro (⟨rfl, _⟩ | ⟨_, other⟩ | ⟨_, _, same⟩)
    · exact .inr rfl
    · cases other
    · exact .inl same
  · rintro (same | rfl)
    · refine .inr (.inr ⟨?_, ?_, same⟩)
      · rintro rfl
        cases same
      · rintro rfl
        cases same
    · exact .inl ⟨rfl, rfl⟩

theorem fold_plain (c l : Char) (plain : l ∉ ['s', 'k', '\u017f', '\u212a']) : fold c = l ↔ c.toLower = l := by
  simp only [List.mem_cons, List.not_mem_nil, or_false, not_or] at plain
  obtain ⟨notS, notK, notLong, notKelvin⟩ := plain
  rw [fold_eq_iff]
  constructor
  · rintro (⟨_, other⟩ | ⟨_, other⟩ | ⟨_, _, same⟩)
    · exact absurd other notS
    · exact absurd other notK
    · exact same
  · intro same
    refine .inr (.inr ⟨?_, ?_, same⟩)
    · rintro rfl
      exact notLong same.symm
    · rintro rfl
      exact notKelvin same.symm

theorem map_fold_plain (front word : List Char) (plain : ∀ l ∈ word, l ∉ ['s', 'k', '\u017f', '\u212a']) :
    front.map fold = word ↔ front.map Char.toLower = word := by
  induction word generalizing front with
  | nil => simp
  | cons l word ih =>
      cases front with
      | nil => simp
      | cons c front =>
          have first := fold_plain c l (plain l List.mem_cons_self)
          have rest := ih front fun m member => plain m (List.mem_cons_of_mem l member)
          simp only [List.map_cons, List.cons.injEq, first, rest]

theorem map_fold_https (front : List Char) :
    front.map fold = "https".toList ↔
      front.map Char.toLower = "https".toList ∨ front.map Char.toLower = "http\u017f".toList := by
  have short : "https".toList = "http".toList ++ ['s'] := rfl
  have long : "http\u017f".toList = "http".toList ++ ['\u017f'] := rfl
  have plain (init : List Char) := map_fold_plain init "http".toList (by simp)
  rw [short, long]
  constructor
  · intro folded
    obtain ⟨init, tail, rfl, front, last⟩ := List.map_eq_append_iff.mp folded
    obtain ⟨c, rfl, letter⟩ := List.map_eq_singleton_iff.mp last
    have lowered := (plain init).mp front
    rcases (fold_s c).mp letter with small | longS
    · left
      rw [List.map_append, lowered, List.map_singleton, small]
    · right
      rw [List.map_append, lowered, List.map_singleton, longS]
  · intro lowered
    have split : ∃ l, (l = 's' ∨ l = '\u017f') ∧ front.map Char.toLower = "http".toList ++ [l] := by
      rcases lowered with same | same
      · exact ⟨_, .inl rfl, same⟩
      · exact ⟨_, .inr rfl, same⟩
    obtain ⟨l, letter, same⟩ := split
    obtain ⟨init, tail, rfl, front, last⟩ := List.map_eq_append_iff.mp same
    obtain ⟨c, rfl, rfl⟩ := List.map_eq_singleton_iff.mp last
    rw [List.map_append, (plain init).mpr front, List.map_singleton, (fold_s c).mpr letter]

theorem drop_scheme (word s : List Char) (noColon : ':' ∉ word) :
    (dropWord? (word ++ [':']) s).isSome ↔ ':' ∈ s ∧ (s.takeWhile (· ≠ ':')).map fold = word := by
  induction word generalizing s with
  | nil =>
      cases s with
      | nil => simp [dropWord?]
      | cons c s =>
          by_cases colon : c = ':'
          · simp [dropWord?, colon]
          · simp [dropWord?, colon]
  | cons l word ih =>
      obtain ⟨notColon, others⟩ : l ≠ ':' ∧ ':' ∉ word := by simpa [eq_comm] using noColon
      cases s with
      | nil => simp [dropWord?]
      | cons c s =>
          by_cases colon : c = ':'
          · have folded : fold ':' ≠ l := by
              simpa [fold] using notColon.symm
            simp [dropWord?, colon, folded]
          · by_cases same : fold c = l
            · simp [dropWord?, colon, same, ih s others, Ne.symm colon]
            · simp [dropWord?, colon, same]

end Text

def writtenScheme? (address : String) : Option String :=
  if ':' ∈ address.toList then some (Text.lower (String.ofList (address.toList.takeWhile (· ≠ ':')))) else none

theorem written_scheme_iff (address word : String) :
    writtenScheme? address = some word ↔
      ':' ∈ address.toList ∧ (address.toList.takeWhile (· ≠ ':')).map Char.toLower = word.toList := by
  unfold writtenScheme?
  by_cases colon : ':' ∈ address.toList
  · rw [if_pos colon, Text.lower, String.toList_ofList, Option.some.injEq, ← String.toList_inj,
      String.toList_ofList]
    simp [colon]
  · simp [colon]

theorem final_address_iff (address : String) (given : address ≠ "") :
    isFinalAddress address ↔
      (writtenScheme? address = some "https" ∨ writtenScheme? address = some "data") ∨
        writtenScheme? address = some "http\u017f" := by
  have characters : address.toList.isEmpty = false := by simpa [List.isEmpty_eq_false_iff] using given
  have data := Text.drop_scheme "data".toList address.toList (by decide)
  rw [Text.map_fold_plain _ _ (by simp), ← written_scheme_iff] at data
  have https := Text.drop_scheme "https".toList address.toList (by decide)
  rw [Text.map_fold_https, and_or_left, ← written_scheme_iff, ← written_scheme_iff] at https
  change (address.toList.isEmpty || (Text.dropWord? ("data".toList ++ [':']) address.toList).isSome ||
    (Text.dropWord? ("https".toList ++ [':']) address.toList).isSome) = true ↔ _
  rw [characters, Bool.false_or, Bool.or_eq_true, data, https, ← or_assoc,
    or_comm (a := writtenScheme? address = some "data")]

section

variable [UrlReader]

namespace UrlPolicy

theorem resolve_reached (policy : UrlPolicy) (address final : String) (given : policy.resolve address = .ok final) :
    ∃ u, policy.target address = .ok u ∧ (isSecure (UrlReader.scheme u) ∨ policy.allowInsecure) ∧
      UrlReader.text u = final := by
  obtain ⟨u, reached, passed⟩ := (except_bind_ok_iff _ _ _).mp given
  refine ⟨u, reached, ?_⟩
  by_cases allowed : isSecure (UrlReader.scheme u) || policy.allowInsecure
  · rw [if_pos allowed] at passed
    exact ⟨Bool.or_eq_true_iff.mp allowed, Except.ok.inj passed⟩
  · rw [if_neg allowed] at passed
    cases passed

-- The scheme is that of the address the policy arrived at, after joining, and not of what was asked for.
theorem strict_policy_secure [LawfulUrlReader] (policy : UrlPolicy) (strict : policy.allowInsecure = false)
    (address final : String) (given : policy.resolve address = .ok final) :
    ∃ rest, final = "https:" ++ rest ∨ final = "data:" ++ rest := by
  obtain ⟨target, _, allowed, rfl⟩ := policy.resolve_reached address final given
  have scheme : UrlReader.scheme target = "https" ∨ UrlReader.scheme target = "data" := by
    simpa [isSecure, strict] using allowed
  obtain ⟨rest, text⟩ := LawfulUrlReader.text_scheme target
  refine ⟨rest, ?_⟩
  rcases scheme with https | data
  · rw [https] at text
    exact .inl text
  · rw [data] at text
    exact .inr text

end UrlPolicy

variable {α : Type}

theorem environment_resolve_url (env : Environment α) (address final : String)
    (given : env.context.resolveUrl address = .ok final) : env.urls.resolve address = .ok final := by
  change env.resolveUrl address = .ok final at given
  unfold Environment.resolveUrl at given
  cases resolved : env.urls.resolve address with
  | error refusal =>
      rw [resolved] at given
      cases given
  | ok url =>
      rw [resolved] at given
      cases given
      rfl

def Provided (env : Environment α) (root : Node α) : Node α → Prop
  | .raw css =>
      Reaches env.context root (.raw css) ∨
        ∃ address final, Reaches env.context root (.url address) ∧ env.urls.resolve address = .ok final ∧
          css = "url(\"" ++ final ++ "\")"
  | .url address => Reaches env.context root (.url address) ∧ (url address : Node α).isConstant
  | _ => True

variable [Scalar α]

theorem provided_invariant (env : Environment α) (root : Node α) :
    OutcomeInvariant env.context root (Provided env root) := by
  constructor
  · exact fun css reached => .inl reached
  · exact fun _ _ => trivial
  · exact fun address reached final => ⟨reached, by simpa only [isConstant] using final⟩
  · intro address final reached answered
    exact .inr ⟨address, final, reached, environment_resolve_url env address final answered, rfl⟩
  · exact fun _ _ => trivial
  · exact fun _ _ _ _ => trivial
  · exact fun _ _ _ _ _ _ _ _ => trivial
  · exact fun _ _ _ _ _ _ _ => trivial
  · exact fun _ _ _ _ _ => trivial
  · exact trivial

theorem resolved_provided (env : Environment α) (node out : Node α)
    (given : node.resolve env.context = .ok (some out)) (part : Node α) (occurs : out.Occurs part) :
    Provided env node part :=
  value_invariant env.context node _ (provided_invariant env node) Scope.start out given part occurs

theorem addresses_pass_policy [LawfulUrlReader] (env : Environment α) (strict : env.urls.allowInsecure = false)
    (node out : Node α) (given : node.resolve env.context = .ok (some out)) :
    (∀ css, out.Occurs (.raw css) → Reaches env.context node (.raw css) ∨
      ∃ address final, Reaches env.context node (.url address) ∧ env.urls.resolve address = .ok final ∧
        css = "url(\"" ++ final ++ "\")" ∧ ∃ rest, final = "https:" ++ rest ∨ final = "data:" ++ rest) ∧
    ∀ address, out.Occurs (.url address) →
      Reaches env.context node (.url address) ∧ (url address : Node α).isConstant := by
  refine ⟨fun css occurs => ?_, fun address occurs => resolved_provided env node out given _ occurs⟩
  rcases resolved_provided env node out given _ occurs with written | ⟨address, final, reached, allowed, shown⟩
  · exact .inl written
  · exact .inr ⟨address, final, reached, allowed, shown, env.urls.strict_policy_secure strict address final allowed⟩

end

def gallery : Environment Float :=
  { (Environment.start : Environment Float).define "--frame" (.url "b.png") with
    urls := ⟨some ⟨"https", some ⟨"", "", .name "a.com", none⟩, .segments ["d", ""], none, none⟩, false⟩ }

def pictures : Node Float :=
  .concat [.raw "none", .var "frame" none, .url "DATA:,x"]

def resolvedPictures : Node Float :=
  .concat [.raw "none", .raw "url(\"https://a.com/d/b.png\")", .url "DATA:,x"]

theorem pictures_resolve : pictures.resolve gallery.context = .ok (some resolvedPictures) := by
  have frame : gallery.context.lookup "frame" = some (.url "b.png") := by
    have same : variableName "--frame" = variableName "frame" := by decide
    simp [gallery, same]
  have joined : gallery.urls.resolve "b.png" = .ok "https://a.com/d/b.png" :=
    except_of_to_option _ _ (by decide +kernel)
  have picture : (url "b.png").outcome gallery.context none 1 =
      .ok (some (raw "url(\"https://a.com/d/b.png\")")) := by
    have answered : gallery.context.resolveUrl "b.png" = .ok "https://a.com/d/b.png" := by
      change gallery.resolveUrl "b.png" = _
      rw [Environment.resolveUrl, joined]
    rw [outcome_url _ _ _ _ (by decide), answered]
    rfl
  have value : (var "frame" none).outcome gallery.context none 0 =
      .ok (some (raw "url(\"https://a.com/d/b.png\")")) := by
    rw [outcome_var, if_neg (by decide), valueOf, frame]
    exact picture
  rw [resolve, resolve_in_outcome, pictures]
  change (concat _).outcome gallery.context none 0 = _
  simp only [outcome_concat, List.map_cons, outcome_raw, value, outcome_constant _ _ _ (url "DATA:,x") rfl]
  rfl

theorem pictures_pass_policy :
    gallery.urls.allowInsecure = false ∧
    pictures.resolve gallery.context = .ok (some resolvedPictures) ∧
    (Reaches gallery.context pictures (.raw "url(\"https://a.com/d/b.png\")") ∨
      ∃ address final, Reaches gallery.context pictures (.url address) ∧
        gallery.urls.resolve address = .ok final ∧
        "url(\"https://a.com/d/b.png\")" = "url(\"" ++ final ++ "\")" ∧
        ∃ rest, final = "https:" ++ rest ∨ final = "data:" ++ rest) ∧
    Reaches gallery.context pictures (.url "DATA:,x") := by
  obtain ⟨texts, addresses⟩ := addresses_pass_policy gallery rfl pictures resolvedPictures pictures_resolve
  exact ⟨rfl, pictures_resolve, texts _ (.part _ _ .root (by simp [parts, resolvedPictures])),
    (addresses _ (.part _ _ .root (by simp [parts, resolvedPictures]))).1⟩

theorem kept_addresses_are_secure {α : Type} [Scalar α] [UrlReader] (env : Environment α) (node out : Node α)
    (given : node.resolve env.context = .ok (some out)) :
    (∀ address, out.Occurs (.url address) → address ≠ "" → writtenScheme? address ≠ some "http\u017f" →
      writtenScheme? address = some "https" ∨ writtenScheme? address = some "data") ∧
    ∀ address, address ≠ "" →
      ((url address : Node α).isConstant ↔
        (writtenScheme? address = some "https" ∨ writtenScheme? address = some "data") ∨
          writtenScheme? address = some "http\u017f") := by
  constructor
  · intro address occurs written short
    obtain ⟨_, constant⟩ := resolved_provided env node out given _ occurs
    have final : isFinalAddress address := by simpa only [isConstant] using constant
    exact ((final_address_iff address written).mp final).resolve_right short
  · intro address written
    simpa only [isConstant] using final_address_iff address written

theorem pictures_are_secure :
    "DATA:,x" ≠ "" ∧ writtenScheme? "DATA:,x" ≠ some "http\u017f" ∧
    (writtenScheme? "DATA:,x" = some "https" ∨ writtenScheme? "DATA:,x" = some "data") := by
  have characters : "DATA:,x" ≠ "" := by decide
  have short : writtenScheme? "DATA:,x" ≠ some "http\u017f" := by decide
  have secure := (kept_addresses_are_secure gallery pictures resolvedPictures pictures_resolve).1
  exact ⟨characters, short,
    secure _ (.part _ _ .root (by simp [parts, resolvedPictures])) characters short⟩

-- The long s is written as it is and only its case folding is an s. The policy reads no scheme there.
theorem long_s_is_kept :
    (Environment.start : Environment Float).urls.allowInsecure = false ∧
    (url "http\u017f://a.com" : Node Float).resolve (Environment.start : Environment Float).context =
      .ok (some (.url "http\u017f://a.com")) ∧
    (url "http\u017f://a.com" : Node Float).isConstant ∧
    ¬ (writtenScheme? "http\u017f://a.com" = some "https" ∨ writtenScheme? "http\u017f://a.com" = some "data") ∧
    (Environment.start : Environment Float).urls.resolve "http\u017f://a.com" = .error .relative :=
  ⟨rfl, rfl, rfl, by decide, rfl⟩

end StyleCalc
