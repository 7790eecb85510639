import StyleCalc.Proofs.Collect
import StyleCalc.Proofs.UrlText
import StyleCalc.Url.Parser

set_option autoImplicit false

namespace StyleCalc.Url

variable {quote backslash : Prop}

theorem trimmed_within (s : String) : trimmed s <:+: s.toList := by
  have last (front : List Char) (p : Char → Bool) : (front.reverse.dropWhile p).reverse <+: front := by
    have kept := List.reverse_prefix.mpr (List.dropWhile_suffix p (l := front.reverse))
    rwa [List.reverse_reverse] at kept
  exact (last _ _).isInfix.trans (List.dropWhile_suffix _).isInfix

theorem split_host_text (bracketed : Bool) (s : List Char) :
    (splitHost bracketed s).1 ++ (splitHost bracketed s).2 = s := by
  induction s generalizing bracketed with
  | nil => rfl
  | cons c s ih =>
      rw [splitHost]
      split
      · rfl
      · exact congrArg (c :: ·) (ih _)

theorem split_last_suffix (s info back : List Char) (split : splitLastAt s = some (info, back)) : back <:+ s := by
  rw [splitLastAt] at split
  by_cases marked : s.contains '@'
  · rw [if_pos marked] at split
    obtain ⟨-, rfl⟩ := Prod.mk.inj (Option.some.inj split)
    exact List.reverse_prefix.mp (by rw [List.reverse_reverse]; exact List.takeWhile_prefix _)
  · rw [if_neg marked] at split
    cases split

theorem read_port_suffix (scheme : String) (s rest : List Char) (port : Option Nat)
    (read : readPort scheme s = .ok (port, rest)) : rest <:+ s := by
  unfold readPort at read
  split at read
  · rename_i behind
    extract_lets digits tail value at read
    by_cases large : 65535 < value
    · rw [if_pos large] at read
      cases read
    · by_cases ended : tail = [] ∨ tail.head? = some '\\'
      · rw [if_neg large, if_pos ended] at read
        obtain ⟨-, rfl⟩ := Prod.mk.inj (Except.ok.inj read)
        exact (List.dropWhile_suffix _).trans (List.suffix_cons ':' behind)
      · rw [if_neg large, if_neg ended] at read
        cases read
  · obtain ⟨-, rfl⟩ := Prod.mk.inj (Except.ok.inj read)
    exact List.suffix_refl _

theorem user_info_confined (info : List Char) :
    Confined False False (readUserInfo info).1.toList ∧ Confined False False (readUserInfo info).2.toList := by
  have escapes (s : List Char) : Confined False False (encode escapedInUserInfo s).toList := by
    refine encode_confined escapedInUserInfo s (fun c control => ?_) (fun _ kept => ?_) fun _ kept => ?_
    · simp [escapedInUserInfo, escapedInPath, escapedInFragment, control]
    · simp [escapedInUserInfo, escapedInPath, escapedInFragment] at kept
    · simp [escapedInUserInfo] at kept
  exact ⟨escapes _, escapes _⟩

theorem split_path_within (s : List Char) : (splitPath s).1 <:+: s ∧ (splitPath s).2 <:+: s := by
  rw [splitPath, List.span_eq_takeWhile_dropWhile]
  exact ⟨(List.takeWhile_prefix _).isInfix, (List.dropWhile_suffix _).isInfix⟩

theorem structured_tidy (scheme : String) (authority : Option Authority) (ss : List String) (tail : List Char)
    (plain : Confined False False scheme.toList) (known : ∀ a, authority = some a → a.Tidy quote)
    (each : ∀ s ∈ ss, Confined False (backslash ∧ isSpecial scheme = false) s.toList)
    (backslashes : '\\' ∈ tail → backslash) :
    Tidy quote backslash ⟨scheme, authority, .segments ss, (readQueryAndFragment scheme tail).1,
      (readQueryAndFragment scheme tail).2⟩ where
  scheme := plain
  authority := known
  segments := by
    rintro _ ⟨⟩
    exact each
  plain := nofun
  query := (query_and_fragment_confined scheme tail backslashes).1
  fragment := (query_and_fragment_confined scheme tail backslashes).2

theorem drop_empty_front_subset (ss : List String) : dropEmptyFront ss ⊆ ss := by
  fun_induction dropEmptyFront ss with
  | case1 => exact List.Subset.refl _
  | case2 s => exact List.Subset.refl _
  | case3 t ss ih => exact List.Subset.trans ih (List.subset_cons_self _ _)
  | case4 s t ss _ => exact List.Subset.refl _

theorem file_scheme_confined : Confined False False "file".toList := by
  simp

theorem file_url_tidy (host : Host) (draft : PathDraft) (s : List Char) (backslashes : '\\' ∈ s → backslash)
    (named : Confined quote False host.text.toList) (given : draft.Within False) :
    (fileUrl host draft s).Tidy quote backslash := by
  obtain ⟨front, back⟩ := split_path_within s
  have inside : ∀ t ∈ draft.read "file" (splitPath s).1,
      Confined False (backslash ∧ isSpecial "file" = false) t.toList :=
    PathDraft.read_within "file" draft _ (fun member => backslashes (front.subset member))
      fun t member => (given t member).weaken _ id False.elim
  refine structured_tidy "file" _ _ _ file_scheme_confined ?_ (fun t member => inside t ?_) fun member => ?_
  · rintro _ ⟨⟩
    exact ⟨nofun, nofun, named⟩
  · exact drop_empty_front_subset _ member
  · exact backslashes (back.subset (List.mem_filter.mp member).1)

theorem after_slash_suffix (s rest : List Char) (found : afterSlash? s = some rest) : rest <:+: s := by
  rw [afterSlash?] at found
  split at found
  · rename_i c behind skipped
    split at found
    · obtain rfl := Option.some.inj found
      refine (List.suffix_cons c behind).isInfix.trans ?_
      rw [← skipped]
      exact (List.dropWhile_suffix _).isInfix
    · cases found
  · cases found

theorem no_host_confined : Confined quote False (Host.name "").text.toList :=
  nofun

theorem scheme_char_range (c : Char) (given : isSchemeChar c) : 43 ≤ c.toNat ∧ c.toNat ≤ 122 := by
  simp only [isSchemeChar, Char.isAlphanum, Bool.or_eq_true, decide_eq_true_eq] at given
  rcases given with (((alpha | digit) | rfl) | rfl) | rfl
  · have range := Text.alpha_range c alpha
    omega
  · have range := Text.digit_range c digit
    omega
  all_goals decide

theorem scheme_char_to_lower (c : Char) (given : isSchemeChar c) : isSchemeChar c.toLower := by
  by_cases capital : c.isUpper
  · have alpha := (Text.alpha_iff _).mpr (.inr (Text.capital_to_lower_small c capital))
    simp [isSchemeChar, Char.isAlphanum, alpha]
  · rwa [Text.other_to_lower c capital]

theorem scheme_parts (s rest : List Char) (scheme : String) (read : readScheme? s = some (scheme, rest)) :
    Confined False False scheme.toList ∧ rest <:+: s := by
  rw [readScheme?, List.span_eq_takeWhile_dropWhile] at read
  dsimp only at read
  split at read
  · rename_i c cs behind front back
    split at read
    · rename_i letters
      rw [Bool.and_eq_true, List.all_eq_true] at letters
      obtain ⟨rfl, rfl⟩ := Prod.mk.inj (Option.some.inj read)
      have first : isSchemeChar c := by simp [isSchemeChar, Char.isAlphanum, letters.1]
      have written : ∀ d ∈ c :: cs, isSchemeChar d := List.forall_mem_cons.mpr ⟨first, letters.2⟩
      constructor
      · rw [String.toList_ofList]
        refine confined_of_class isSchemeChar _ (fun d member => ?_)
          (fun d given => by have range := scheme_char_range d given; omega) rfl rfl
        obtain ⟨e, inside, rfl⟩ := List.mem_map.mp member
        exact scheme_char_to_lower e (written e inside)
      · refine (List.suffix_cons ':' behind).isInfix.trans ?_
        rw [← back]
        exact (List.dropWhile_suffix _).isInfix
    · cases read
  · cases read

theorem with_tail_tidy (base : Url) (s : List Char) (given : base.Tidy quote backslash)
    (backslashes : '\\' ∈ s → backslash) : (base.withTail s).Tidy quote backslash := by
  obtain ⟨query, fragment⟩ := query_and_fragment_confined base.scheme s backslashes
  unfold withTail
  dsimp only
  split
  · exact { given with query, fragment }
  · exact { given with fragment }

theorem with_path_tidy (base : Url) (draft : PathDraft) (s : List Char) (given : base.Tidy quote backslash)
    (backslashes : '\\' ∈ s → backslash) (within : draft.Within (backslash ∧ isSpecial base.scheme = false)) :
    (base.withPath draft s).Tidy quote backslash := by
  obtain ⟨front, back⟩ := split_path_within s
  refine structured_tidy base.scheme base.authority _ _ given.scheme given.authority ?_ fun member => ?_
  · exact PathDraft.read_within base.scheme draft _ (fun member => backslashes (front.subset member)) within
  · exact backslashes (back.subset member)

theorem segments_confined (u : Url) (given : u.Tidy quote backslash) :
    ∀ s ∈ u.segments, Confined False (backslash ∧ isSpecial u.scheme = false) s.toList := by
  rw [segments]
  split
  · rename_i ss path
    exact given.segments ss path
  · exact nofun

theorem host_confined (u : Url) (given : u.Tidy quote backslash) : Confined quote False u.host.text.toList := by
  rw [host]
  split
  · rename_i a named
    exact (given.authority a named).host
  · exact no_host_confined

theorem within_of_segments (closed : List String) (tail : String)
    (each : ∀ s ∈ closed, Confined False backslash s.toList) (last : Confined False backslash tail.toList) :
    PathDraft.Within backslash ⟨closed, tail⟩ :=
  (PathDraft.within_iff _).mpr ⟨each, last⟩

theorem file_draft_within (ss : List String) (each : ∀ s ∈ ss, Confined False backslash s.toList) :
    (fileDraft ss).Within backslash := by
  have front : ∀ s ∈ ss.dropLast, Confined False backslash s.toList :=
    fun s member => each s (List.dropLast_subset _ member)
  unfold fileDraft
  split
  · exact PathDraft.start_within
  · rename_i last found
    split
    · split
      · exact within_of_segments ss "" each nofun
      · exact within_of_segments _ last front (each last (List.mem_of_getLast? found))
    · exact within_of_segments _ "" front nofun

-- A file URL is special, so that no segment of it has a backslash, and a drive goes on into the next path as it is.
theorem file_segments_confined (base : Url) (given : base.Tidy quote backslash) (file : base.scheme = "file") :
    ∀ s ∈ base.segments, Confined False False s.toList := by
  intro s member
  refine (segments_confined base given s member).weaken _ id fun allowed => ?_
  rw [file] at allowed
  cases allowed.2

theorem with_file_root_tidy (base : Url) (s : List Char) (given : base.Tidy quote backslash)
    (file : base.scheme = "file") (backslashes : '\\' ∈ s → backslash) :
    (withFileRoot (some base) s).Tidy quote backslash := by
  have each := file_segments_confined base given file
  have onHost := file_url_tidy base.host .start s backslashes (host_confined base given) PathDraft.start_within
  rw [withFileRoot]
  split
  · exact file_url_tidy _ _ s backslashes no_host_confined PathDraft.start_within
  · split
    · rename_i first rest segments
      split
      · refine file_url_tidy _ _ s backslashes no_host_confined (within_of_segments _ _ ?_ nofun)
        rw [segments] at each
        exact List.forall_mem_singleton.mpr (each first List.mem_cons_self)
      · exact onHost
    · exact onHost

variable [DomainMapping]

theorem read_authority_parts (scheme : String) (s behind : List Char) (a : Authority)
    (read : readAuthority scheme s = .ok (a, behind)) :
    (∃ name, name <:+: s ∧ (Host.ofDomain name = .ok a.host ∨ Host.ofPlain name = .ok a.host)) ∧
    (∃ info, (a.username, a.password) = readUserInfo info) ∧ behind ⊆ s := by
  unfold readAuthority at read
  extract_lets special at read
  rw [List.span_eq_takeWhile_dropWhile] at read
  generalize (fun c => decide (c ≠ '?') && decide (c ≠ '#') && !isSlash special c) = inFront at read
  split at read
  rename_i front rest parts
  obtain ⟨rfl, rfl⟩ := Prod.mk.inj parts
  split at read
  rename_i info hostAndPort marked
  have inText : hostAndPort <:+: s := by
    refine List.IsInfix.trans ?_ (List.takeWhile_prefix inFront).isInfix
    cases found : splitLastAt (s.takeWhile inFront) with
    | none =>
        rw [found] at marked
        obtain ⟨-, rfl⟩ := Prod.mk.inj marked
        exact List.infix_refl _
    | some pair =>
        rw [found] at marked
        exact (split_last_suffix _ info hostAndPort (found.trans (congrArg some marked))).isInfix
  replace read := except_guard_ok _ _ _ _ read
  beta_reduce at read
  split at read
  rename_i name portText cut
  have whole : name ++ portText = hostAndPort := by
    have text := split_host_text false hostAndPort
    rwa [cut] at text
  subst whole
  replace read := except_guard_ok _ _ _ _ read
  beta_reduce at read
  extract_lets withHost at read
  have ⟨host, named, next⟩ : ∃ host, (Host.ofDomain name = .ok host ∨ Host.ofPlain name = .ok host) ∧
      withHost host = .ok (a, behind) := by
    by_cases isSpecial : special
    · rw [if_pos isSpecial] at read
      obtain ⟨host, named, next⟩ := (except_bind_ok_iff _ _ _).mp read
      exact ⟨host, .inl named, next⟩
    · rw [if_neg isSpecial] at read
      obtain ⟨host, named, next⟩ := (except_bind_ok_iff _ _ _).mp read
      exact ⟨host, .inr named, next⟩
  unfold withHost at next
  replace next := except_guard_ok _ _ _ _ next
  beta_reduce at next
  obtain ⟨⟨port, tail⟩, ported, ended⟩ := (except_bind_ok_iff _ _ _).mp next
  dsimp only at ended
  replace ended := except_guard_ok _ _ _ _ ended
  obtain ⟨rfl, rfl⟩ := Prod.mk.inj (Except.ok.inj ended)
  have prefixed : name <:+: name ++ portText := (List.prefix_append name portText).isInfix
  have suffixed : portText <:+: name ++ portText := (List.suffix_append name portText).isInfix
  refine ⟨⟨name, prefixed.trans inText, named⟩, ⟨info, rfl⟩, List.append_subset.mpr ⟨?_, ?_⟩⟩
  · exact ((read_port_suffix scheme portText tail port ported).isInfix.trans (suffixed.trans inText)).subset
  · exact (List.dropWhile_suffix inFront).subset

variable [LawfulDomainMapping]

theorem read_authority_tidy (scheme : String) (s behind : List Char) (a : Authority)
    (source : Source quote backslash s) (read : readAuthority scheme s = .ok (a, behind)) :
    a.Tidy quote ∧ behind ⊆ s := by
  obtain ⟨⟨name, within, named⟩, ⟨info, pair⟩, rest⟩ := read_authority_parts scheme s behind a read
  obtain ⟨username, password⟩ := Prod.mk.inj pair
  have quotes : BringsQuote name → quote := (source.part name s within).quotes
  refine ⟨⟨?_, ?_, ?_⟩, rest⟩
  · rw [username]
    exact (user_info_confined info).1
  · rw [password]
    exact (user_info_confined info).2
  · rcases named with domain | plain
    · exact Host.domain_confined quote name a.host quotes domain
    · exact Host.plain_confined quote name a.host (fun member => quotes (.inl member)) plain

theorem with_authority_tidy (scheme : String) (s : List Char) (u : Url) (source : Source quote backslash s)
    (plain : Confined False False scheme.toList) (read : withAuthority scheme s = .ok u) :
    u.Tidy quote backslash := by
  obtain ⟨⟨authority, rest⟩, found, made⟩ := (except_bind_ok_iff _ _ _).mp read
  dsimp only at made
  obtain rfl := Except.ok.inj made
  obtain ⟨tidy, within⟩ := read_authority_tidy scheme s rest authority source found
  obtain ⟨front, back⟩ := split_path_within rest
  refine structured_tidy scheme _ _ _ plain ?_ ?_ fun member => source.backslashes (within (back.subset member))
  · rintro _ ⟨⟩
    exact tidy
  · split
    · split
      · exact List.forall_mem_singleton.mpr nofun
      · exact nofun
    · rename_i c cs path
      refine PathDraft.read_within scheme .start _ (fun member => ?_) PathDraft.start_within
      refine source.backslashes (within (front.subset ?_))
      rw [path]
      split at member
      · exact List.mem_cons_of_mem c member
      · exact member

theorem read_file_host_confined (s : List Char) (host : Host) (quotes : BringsQuote s → quote)
    (read : readFileHost s = .ok host) : Confined quote False host.text.toList := by
  unfold readFileHost at read
  split at read
  · obtain rfl := Except.ok.inj read
    exact no_host_confined
  · split at read
    · rename_i named domain
      obtain rfl := Except.ok.inj read
      split
      · exact no_host_confined
      · exact Host.domain_confined quote s _ quotes domain
    · cases read

theorem with_file_host_tidy (s : List Char) (u : Url) (source : Source quote backslash (withoutBreaks s))
    (read : withFileHost s = .ok u) : u.Tidy quote backslash := by
  rw [withFileHost, List.span_eq_takeWhile_dropWhile] at read
  generalize (fun c => decide (c ≠ '?') && decide (c ≠ '#') && !isSlash true c) = inFront at read
  dsimp only at read
  split at read
  · obtain rfl := Except.ok.inj read
    exact file_url_tidy _ _ s source.unbroken_backslashes no_host_confined PathDraft.start_within
  · obtain ⟨host, named, made⟩ := (except_bind_ok_iff _ _ _).mp read
    obtain rfl := Except.ok.inj made
    have front := source.unbroken_part _ s (List.takeWhile_prefix inFront).isInfix
    have confined := read_file_host_confined _ host front.quotes named
    have back : s.dropWhile inFront <:+: s := (List.dropWhile_suffix inFront).isInfix
    refine file_url_tidy _ _ _ (source.unbroken_part _ s ?_).unbroken_backslashes ?_ PathDraft.start_within
    · cases slash : afterSlash? (s.dropWhile inFront) with
      | none => exact back
      | some path => exact (after_slash_suffix _ path slash).trans back
    · split
      · exact no_host_confined
      · exact confined

theorem file_text_tidy (s : List Char) (u : Url) (source : Source quote backslash (withoutBreaks s))
    (read : ofFileText s = .ok u) : u.Tidy quote backslash := by
  rw [ofFileText] at read
  split at read
  · obtain rfl := Except.ok.inj read
    exact file_url_tidy _ _ s source.unbroken_backslashes no_host_confined PathDraft.start_within
  · rename_i rest slash
    have inner := source.unbroken_part rest s (after_slash_suffix s rest slash)
    split at read
    · obtain rfl := Except.ok.inj read
      exact file_url_tidy _ _ rest inner.unbroken_backslashes no_host_confined PathDraft.start_within
    · rename_i more second
      exact with_file_host_tidy more u (inner.unbroken_part more rest (after_slash_suffix rest more second)) read

theorem other_text_tidy (scheme : String) (s : List Char) (u : Url) (source : Source quote backslash s)
    (plain : Confined False False scheme.toList) (other : isSpecial scheme = false)
    (read : ofOtherText scheme s = .ok u) : u.Tidy quote backslash := by
  unfold ofOtherText at read
  split at read
  · rename_i rest
    have inner := source.part rest _ (List.suffix_append ['/', '/'] rest).isInfix
    exact with_authority_tidy scheme rest u inner plain read
  · dsimp only at read
    obtain rfl := Except.ok.inj read
    obtain ⟨front, back⟩ := split_path_within s
    have tail : '\\' ∈ (splitPath s).2 → backslash := fun member => source.backslashes (back.subset member)
    split
    · rename_i rest path
      refine structured_tidy scheme none _ _ plain nofun ?_ tail
      refine PathDraft.read_within scheme .start rest (fun member => ?_) PathDraft.start_within
      refine source.backslashes (front.subset ?_)
      rw [path]
      exact List.mem_cons_of_mem _ member
    · have opaquePath := source.part _ s front
      obtain ⟨query, fragment⟩ := query_and_fragment_confined scheme _ tail
      refine ⟨plain, nofun, nofun, ?_, query, fragment⟩
      rintro _ ⟨⟩
      refine encode_confined isControl _ (fun _ control => control) (fun member _ => ?_) fun member _ => ?_
      · exact opaquePath.quotes (.inl member)
      · exact ⟨opaquePath.backslashes member, other⟩

theorem parse_tidy (s : String) (u : Url) (source : Source quote backslash (withoutBreaks s.toList))
    (read : parse s = .ok u) : u.Tidy quote backslash := by
  rw [parse] at read
  split at read
  · rename_i scheme rest found
    obtain ⟨plain, within⟩ := scheme_parts (trimmed s) rest scheme found
    have inner := source.unbroken_part rest s.toList (within.trans (trimmed_within s))
    rw [ofSchemeAndText] at read
    split at read
    · exact file_text_tidy rest u inner read
    · split at read
      · refine with_authority_tidy scheme _ u (inner.part _ _ ?_) plain read
        exact (List.dropWhile_suffix _).isInfix
      · rename_i other
        rw [Bool.not_eq_true] at other
        exact other_text_tidy scheme _ u inner plain other read
  · cases read

theorem join_path_tidy (base u : Url) (s : List Char) (given : base.Tidy quote backslash)
    (source : Source quote backslash s) (read : base.joinPath s = .ok u) : u.Tidy quote backslash := by
  have fresh (rest : List Char) (within : rest <:+: s)
      (made : (.ok (base.withPath .start rest) : Except UrlError Url) = .ok u) : u.Tidy quote backslash := by
    obtain rfl := Except.ok.inj made
    exact with_path_tidy base .start rest given (source.part rest s within).backslashes PathDraft.start_within
  unfold joinPath at read
  split at read
  · rename_i rest
    have inner := source.part rest _ (List.suffix_append ['/', '/'] rest).isInfix
    exact with_authority_tidy base.scheme rest u inner given.scheme read
  · rename_i c rest _
    have behind : rest <:+: c :: rest := (List.suffix_cons c rest).isInfix
    split at read
    · split at read
      · rename_i d more _
        split at read
        · refine with_authority_tidy base.scheme _ u (source.part _ _ ?_) given.scheme read
          exact (List.dropWhile_suffix _).isInfix.trans ((List.suffix_cons d more).isInfix.trans behind)
        · exact fresh _ behind read
      · exact fresh _ behind read
    · split at read
      · obtain rfl := Except.ok.inj read
        exact with_tail_tidy base _ given source.backslashes
      · obtain rfl := Except.ok.inj read
        refine with_path_tidy base _ _ given source.backslashes (within_of_segments _ _ (fun s member => ?_) nofun)
        exact segments_confined base given s (List.dropLast_subset _ member)
  · obtain rfl := Except.ok.inj read
    exact with_tail_tidy base [] given source.backslashes

theorem join_file_tidy (base u : Url) (s : List Char) (given : base.Tidy quote backslash)
    (file : base.scheme = "file") (source : Source quote backslash (withoutBreaks s)) (read : base.joinFile s = .ok u) :
    u.Tidy quote backslash := by
  unfold joinFile at read
  split at read
  · rename_i rest slash
    have inner := source.unbroken_part rest s (after_slash_suffix s rest slash)
    split at read
    · rename_i more second
      exact with_file_host_tidy more u (inner.unbroken_part more rest (after_slash_suffix rest more second)) read
    · obtain rfl := Except.ok.inj read
      exact with_file_root_tidy base rest given file inner.unbroken_backslashes
  · dsimp only at read
    split at read
    · obtain rfl := Except.ok.inj read
      exact with_tail_tidy base _ given source.backslashes
    · split at read
      · obtain rfl := Except.ok.inj read
        exact file_url_tidy _ _ s source.unbroken_backslashes no_host_confined PathDraft.start_within
      · obtain rfl := Except.ok.inj read
        exact file_url_tidy _ _ s source.unbroken_backslashes (host_confined base given)
          (file_draft_within _ (file_segments_confined base given file))

theorem join_tidy (base u : Url) (s : String) (given : base.Tidy quote backslash)
    (source : Source quote backslash (withoutBreaks s.toList)) (read : base.join s = .ok u) :
    u.Tidy quote backslash := by
  have inner := source.unbroken_part _ _ (trimmed_within s)
  unfold join at read
  dsimp only at read
  split at read
  · obtain rfl := Except.ok.inj read
    exact with_tail_tidy base _ given inner.backslashes
  · cases read
  · split at read
    · rename_i file
      exact join_file_tidy base u _ given file inner read
    · exact join_path_tidy base u _ given inner read

end StyleCalc.Url
