import StyleCalc.Proofs.Addresses
import StyleCalc.Proofs.UrlReading

set_option autoImplicit false

namespace StyleCalc

open Node

namespace Url

def ShowsQuote (u : Url) : Prop :=
  '"' ∈ u.host.text.toList ∨ ∃ s, u.path = .plain s ∧ '"' ∈ s.toList

def ShowsBackslash (u : Url) : Prop :=
  ('\\' ∈ u.path.text.toList ∧ isSpecial u.scheme = false) ∨ (∃ s, u.query = some s ∧ '\\' ∈ s.toList) ∨
    ∃ s, u.fragment = some s ∧ '\\' ∈ s.toList

variable {quote backslash : Prop}

theorem tidy_weaken {quote' backslash' : Prop} (u : Url) (tidy : u.Tidy quote backslash) (quotes : quote → quote')
    (backslashes : backslash → backslash') : u.Tidy quote' backslash' where
  scheme := tidy.scheme
  authority a known :=
    have given := tidy.authority a known
    ⟨given.username, given.password, given.host.weaken _ quotes id⟩
  segments ss path s member := (tidy.segments ss path s member).weaken _ id (And.imp_left backslashes)
  plain s path := (tidy.plain s path).weaken _ quotes (And.imp_left backslashes)
  query s given := (tidy.query s given).weaken _ id backslashes
  fragment s given := (tidy.fragment s given).weaken _ id backslashes

theorem confined_member (quote' backslash' : Prop) (s : List Char) (confined : Confined quote backslash s)
    (quotes : '"' ∈ s → quote') (backslashes : '\\' ∈ s → backslash → backslash') :
    Confined quote' backslash' s := by
  intro c member
  obtain ⟨range, _, isBackslash⟩ := confined c member
  refine ⟨range, ?_, ?_⟩
  · rintro rfl
    exact quotes member
  · rintro rfl
    exact backslashes member (isBackslash rfl)

theorem path_member (ss : List String) (s : String) (member : s ∈ ss) (c : Char) (inside : c ∈ s.toList) :
    c ∈ (UrlPath.segments ss).text.toList := by
  rw [UrlPath.text]
  induction ss with
  | nil => cases member
  | cons t ss ih =>
      rw [List.map_cons, String.join_cons, String.toList_append, String.toList_append]
      rcases List.mem_cons.mp member with rfl | later
      · exact List.mem_append_left _ (List.mem_append_right _ inside)
      · exact List.mem_append_right _ (ih later)

theorem path_confined (quote backslash : Prop) (ss : List String)
    (each : ∀ s ∈ ss, Confined quote backslash s.toList) :
    Confined quote backslash (UrlPath.segments ss).text.toList := by
  rw [UrlPath.text]
  induction ss with
  | nil => exact nofun
  | cons t ss ih =>
      obtain ⟨first, rest⟩ := List.forall_mem_cons.mp each
      simpa [String.join_cons, first] using ih rest

theorem tidy_shown (u : Url) (tidy : u.Tidy True True) : u.Tidy u.ShowsQuote u.ShowsBackslash where
  scheme := tidy.scheme
  authority a known := by
    have given := tidy.authority a known
    refine ⟨given.username, given.password, confined_member _ _ _ given.host (fun member => .inl ?_) fun _ => id⟩
    rwa [host, known]
  segments ss path s member := by
    have given := tidy.segments ss path s member
    refine confined_member _ _ _ given (fun inside => (given _ inside).2.1 rfl) fun inside allowed => ?_
    refine ⟨.inl ⟨?_, allowed.2⟩, allowed.2⟩
    rw [path]
    exact path_member ss s member _ inside
  plain s path := by
    refine confined_member _ _ _ (tidy.plain s path) (fun inside => .inr ⟨s, path, inside⟩) fun inside allowed => ?_
    refine ⟨.inl ⟨?_, allowed.2⟩, allowed.2⟩
    rwa [path, UrlPath.text]
  query s given := by
    refine confined_member _ _ _ (tidy.query s given) (fun inside => (tidy.query s given _ inside).2.1 rfl) ?_
    exact fun inside _ => .inr (.inl ⟨s, given, inside⟩)
  fragment s given := by
    refine confined_member _ _ _ (tidy.fragment s given) (fun inside => (tidy.fragment s given _ inside).2.1 rfl) ?_
    exact fun inside _ => .inr (.inr ⟨s, given, inside⟩)

theorem authority_confined (a : Authority) (tidy : a.Tidy quote) : Confined quote False a.text.toList := by
  have known : ∀ s : String, Confined False False s.toList → Confined quote False s.toList :=
    fun s confined => confined.weaken _ False.elim id
  have username := known _ tidy.username
  have password := known _ tidy.password
  rw [Authority.text, String.toList_append, String.toList_append, confined_append, confined_append]
  refine ⟨⟨?_, tidy.host⟩, ?_⟩
  · rw [Authority.credentials]
    split
    · simp
    · split <;> simp [username, password]
  · split
    · simpa using known _ (Host.decimal_confined _)
    · simp

theorem option_text_confined (mark : String) (part : Option String) (marked : Confined quote backslash mark.toList)
    (given : ∀ s, part = some s → Confined quote backslash s.toList) :
    Confined quote backslash (optionText mark part).toList := by
  cases part with
  | none => exact nofun
  | some s =>
      simp [optionText, marked, given s rfl]

theorem text_confined (u : Url) (tidy : u.Tidy quote backslash) : Confined quote backslash u.text.toList := by
  have authority : Confined quote backslash u.authorityText.toList := by
    rw [authorityText]
    split
    · rename_i a known
      simpa using (authority_confined a (tidy.authority a known)).weaken _ id False.elim
    · simp
    · simp
  have path : Confined quote backslash u.path.text.toList := by
    cases kind : u.path with
    | segments ss =>
        exact path_confined _ _ ss fun s member => (tidy.segments ss kind s member).weaken _ False.elim And.left
    | plain s => exact (tidy.plain s kind).weaken _ id And.left
  have unquoted (s : String) (confined : Confined False backslash s.toList) : Confined quote backslash s.toList :=
    confined.weaken _ False.elim id
  have query := option_text_confined "?" u.query (by simp) fun s given => unquoted s (tidy.query s given)
  have fragment := option_text_confined "#" u.fragment (by simp)
    fun s given => unquoted s (tidy.fragment s given)
  simp only [text, String.toList_append, confined_append]
  exact ⟨⟨⟨⟨⟨tidy.scheme.weaken _ False.elim False.elim, by simp⟩, authority⟩, path⟩, query⟩, fragment⟩

theorem host_in_text (u : Url) (c : Char) (inside : c ∈ u.host.text.toList) : c ∈ u.authorityText.toList := by
  rw [host] at inside
  rw [authorityText]
  cases known : u.authority with
  | none =>
      rw [known] at inside
      cases inside
  | some a =>
      rw [known] at inside
      change c ∈ ("//" ++ a.text).toList
      rw [Authority.text]
      simp only [String.toList_append, List.mem_append]
      exact .inr (.inl (.inr inside))

theorem shows_quote_in_text (u : Url) (shows : u.ShowsQuote) : '"' ∈ u.text.toList := by
  simp only [text, String.toList_append, List.mem_append]
  rcases shows with inHost | ⟨s, path, inPath⟩
  · exact .inl (.inl (.inl (.inr (host_in_text u _ inHost))))
  · rw [path]
    exact .inl (.inl (.inr inPath))

theorem shows_backslash_in_text (u : Url) (shows : u.ShowsBackslash) : '\\' ∈ u.text.toList := by
  simp only [text, String.toList_append, List.mem_append]
  rcases shows with inPath | ⟨s, query, inQuery⟩ | ⟨s, fragment, inFragment⟩
  · exact .inl (.inl (.inr inPath.1))
  · rw [query, optionText, String.toList_append, List.mem_append]
    exact .inl (.inr (.inr inQuery))
  · rw [fragment, optionText, String.toList_append, List.mem_append]
    exact .inr (.inr inFragment)

theorem shows_iff (u : Url) (tidy : u.Tidy True True) :
    ('"' ∈ u.text.toList ↔ u.ShowsQuote) ∧ ('\\' ∈ u.text.toList ↔ u.ShowsBackslash) := by
  have confined := text_confined u (tidy_shown u tidy)
  exact ⟨⟨fun member => (confined _ member).2.1 rfl, shows_quote_in_text u⟩,
    ⟨fun member => (confined _ member).2.2 rfl, shows_backslash_in_text u⟩⟩

theorem tidy_as_written (u : Url) (tidy : u.Tidy True True) :
    u.Tidy ('"' ∈ u.text.toList) ('\\' ∈ u.text.toList) :=
  tidy_weaken u (tidy_shown u tidy) (shows_quote_in_text u) (shows_backslash_in_text u)

end Url

section

variable [DomainMapping]

/-- URLs as they come about: from a text on its own, or from a text on a base. -/
inductive Url.Made : Url → Prop where
  | parsed (s : String) (u : Url) (read : parse s = .ok u) : Made u
  | joined (base u : Url) (s : String) (made : Made base) (read : base.join s = .ok u) : Made u

variable [LawfulDomainMapping]

theorem Url.made_tidy (u : Url) (made : u.Made) : u.Tidy True True := by
  induction made with
  | parsed s u read => exact parse_tidy s u ⟨fun _ => trivial, fun _ => trivial⟩ read
  | joined base u s _ read ih => exact join_tidy base u s ih ⟨fun _ => trivial, fun _ => trivial⟩ read

namespace UrlPolicy

theorem target_tidy (policy : UrlPolicy) (address : String) (u : Url) (quote backslash : Prop)
    (tidy : ∀ base : Url, policy.base = some base → base.Tidy quote backslash)
    (source : Url.Source quote backslash (Url.withoutBreaks address.toList))
    (found : policy.target address = .ok u) : u.Tidy quote backslash := by
  unfold target at found
  split at found
  · rename_i url read
    obtain rfl := Except.ok.inj found
    exact Url.parse_tidy address url source read
  · split at found
    · split at found
      · rename_i base given
        exact Url.join_tidy base u address (tidy base given) source ((except_map_error_ok_iff _ _ _).mp found)
      · cases found
    · cases found

theorem target_as_written (policy : UrlPolicy) (made : ∀ base : Url, policy.base = some base → base.Made)
    (address : String) (u : Url) (found : policy.target address = .ok u) :
    u.Tidy
      (Url.BringsQuote (Url.withoutBreaks address.toList) ∨
        ∃ base : Url, policy.base = some base ∧ '"' ∈ base.text.toList)
      ('\\' ∈ address.toList ∨ ∃ base : Url, policy.base = some base ∧ '\\' ∈ base.text.toList) := by
  refine policy.target_tidy address u _ _ (fun base given => ?_) ⟨.inl, fun member => .inl ?_⟩ found
  · have tidy := Url.tidy_as_written base (base.made_tidy (made base given))
    exact base.tidy_weaken tidy (fun member => .inr ⟨base, given, member⟩) fun member => .inr ⟨base, given, member⟩
  · exact (List.mem_filter.mp member).1

end UrlPolicy

end

theorem confined_stands_iff (s : List Char) (confined : Confined True True s) :
    Css.StandsInQuotes s ↔ '"' ∉ s ∧ '\\' ∉ s := by
  constructor
  · exact fun stands => ⟨fun member => (stands _ member).1 rfl, fun member => (stands _ member).2.1 rfl⟩
  · intro ⟨noQuote, noBackslash⟩
    refine confined_stands s fun c member => ⟨(confined c member).1, ?_, ?_⟩
    · rintro rfl
      exact noQuote member
    · rintro rfl
      exact noBackslash member

theorem quoted_url_iff (s : String) :
    Css.plainUrl? ("url(\"" ++ s ++ "\")").toList = some s.toList ↔ Css.StandsInQuotes s.toList := by
  rw [String.toList_append, String.toList_append, List.append_assoc]
  exact Css.plain_url_iff s.toList

theorem resolve_address {α : Type} [Scalar α] [UrlReader] (env : Environment α) (address final : String)
    (notFinal : ¬ (url address : Node α).isConstant) (resolved : env.urls.resolve address = .ok final) :
    (url address).resolve env.context = .ok (some (.raw ("url(\"" ++ final ++ "\")"))) := by
  have answered : env.context.resolveUrl address = .ok final := by
    change env.resolveUrl address = .ok final
    rw [Environment.resolveUrl, resolved]
  rw [resolve, resolve_in_outcome, outcome_url _ _ _ _ (by simpa only [isConstant] using notFinal), answered]
  rfl

theorem resolved_address_in_quotes {α : Type} [Scalar α] [DomainMapping] [LawfulDomainMapping]
    (policy : UrlPolicy) (made : ∀ base : Url, policy.base = some base → base.Made)
    (address final : String) (resolved : policy.resolve address = .ok final) :
    (∀ c ∈ final.toList, 0x20 ≤ c.toNat ∧ c.toNat ≤ 0x7E) ∧
    (Css.plainUrl? ("url(\"" ++ final ++ "\")").toList = some final.toList ↔
      '"' ∉ final.toList ∧ '\\' ∉ final.toList) ∧
    (∃ u : Url, policy.target address = .ok u ∧ u.text = final ∧
      ('"' ∈ final.toList ↔ u.ShowsQuote) ∧ ('\\' ∈ final.toList ↔ u.ShowsBackslash)) ∧
    ('"' ∈ final.toList → Url.BringsQuote (Url.withoutBreaks address.toList) ∨
      ∃ base : Url, policy.base = some base ∧ '"' ∈ base.text.toList) ∧
    ('\\' ∈ final.toList →
      '\\' ∈ address.toList ∨ ∃ base : Url, policy.base = some base ∧ '\\' ∈ base.text.toList) ∧
    ∀ env : Environment α, ¬ (url address : Node α).isConstant →
      (url address).resolve (env.withUrlPolicy policy).context =
        .ok (some (.raw ("url(\"" ++ final ++ "\")"))) := by
  obtain ⟨u, found, _, rfl⟩ := policy.resolve_reached address final resolved
  have tidy : u.Tidy True True :=
    policy.target_tidy address u True True (fun base given => base.made_tidy (made base given))
      ⟨fun _ => trivial, fun _ => trivial⟩ found
  have confined := Url.text_confined u tidy
  have written := Url.text_confined u (policy.target_as_written made address u found)
  refine ⟨fun c member => (confined c member).1, ?_, ⟨u, found, rfl, Url.shows_iff u tidy⟩, ?_, ?_, ?_⟩
  · exact (quoted_url_iff (Url.text u)).trans (confined_stands_iff _ confined)
  · exact fun member => (written _ member).2.1 rfl
  · exact fun member => (written _ member).2.2 rfl
  · exact fun env notFinal => resolve_address (env.withUrlPolicy policy) address _ notFinal resolved

def site : UrlPolicy :=
  ⟨some ⟨"https", some ⟨"", "", .name "a.com", none⟩, .segments [""], none, none⟩, false⟩

theorem site_made : ∀ base : Url, site.base = some base → base.Made := by
  rintro _ ⟨⟩
  exact .parsed "https://a.com" _ rfl

theorem picture_in_quotes :
    (∀ base : Url, site.base = some base → base.Made) ∧ site.resolve "d/b.png" = .ok "https://a.com/d/b.png" ∧
    Css.plainUrl? ("url(\"" ++ "https://a.com/d/b.png" ++ "\")").toList = some "https://a.com/d/b.png".toList := by
  have resolved : site.resolve "d/b.png" = .ok "https://a.com/d/b.png" :=
    except_of_to_option _ _ (by decide +kernel)
  obtain ⟨_, quoted, _⟩ :=
    @resolved_address_in_quotes Float _ _ _ site site_made "d/b.png" "https://a.com/d/b.png" resolved
  exact ⟨site_made, resolved, quoted.mpr (by simp)⟩

-- The backslash that ends the query takes the closing quote, and the quote in data ends the string before.
theorem backslash_takes_quote :
    site.resolve "?\\" = .ok "https://a.com/?\\" ∧ '\\' ∈ "https://a.com/?\\".toList ∧
    Css.plainUrl? ("url(\"" ++ "https://a.com/?\\" ++ "\")").toList = none ∧
    site.resolve "data:\"q\"" = .ok "data:\"q\"" ∧ '"' ∈ "data:\"q\"".toList ∧
    Css.plainUrl? ("url(\"" ++ "data:\"q\"" ++ "\")").toList = none :=
  ⟨rfl, by simp, rfl, rfl, by simp, rfl⟩

end StyleCalc
