import Mathlib.Data.List.TakeDrop
import StyleCalc.Proofs.HostText
import StyleCalc.Url.Path

set_option autoImplicit false

namespace StyleCalc

structure Authority.Tidy (quote : Prop) (a : Authority) : Prop where
  username : Confined False False a.username.toList
  password : Confined False False a.password.toList
  host : Confined quote False a.host.text.toList

/-- A double quote or a backslash is in those parts of a URL only where nothing escapes it, and only if it is
allowed. -/
structure Url.Tidy (quote backslash : Prop) (u : Url) : Prop where
  scheme : Confined False False u.scheme.toList
  authority : ∀ a, u.authority = some a → a.Tidy quote
  segments : ∀ ss, u.path = .segments ss →
    ∀ s ∈ ss, Confined False (backslash ∧ Url.isSpecial u.scheme = false) s.toList
  plain : ∀ s, u.path = .plain s → Confined quote (backslash ∧ Url.isSpecial u.scheme = false) s.toList
  query : ∀ s, u.query = some s → Confined False backslash s.toList
  fragment : ∀ s, u.fragment = some s → Confined False backslash s.toList

namespace Url

section

variable [DomainMapping]

structure Source (quote backslash : Prop) (s : List Char) : Prop where
  quotes : BringsQuote s → quote
  backslashes : '\\' ∈ s → backslash

namespace Source

variable {quote backslash : Prop}

theorem part (s t : List Char) (source : Source quote backslash t) (within : s <:+: t) :
    Source quote backslash s where
  quotes brings := source.quotes (brings_quote_within _ _ within brings)
  backslashes member := source.backslashes (within.subset member)

theorem unbroken_part (s t : List Char) (source : Source quote backslash (withoutBreaks t)) (within : s <:+: t) :
    Source quote backslash (withoutBreaks s) :=
  source.part _ _ (within.filter _)

theorem unbroken_backslashes (s : List Char) (source : Source quote backslash (withoutBreaks s))
    (member : '\\' ∈ s) : backslash :=
  source.backslashes (List.mem_filter.mpr ⟨member, rfl⟩)

end Source

end

variable {quote backslash : Prop}

theorem split_at_members (isSeparator : Char → Bool) (s : List Char) :
    ∀ part ∈ splitAt isSeparator s, ∀ c ∈ part, c ∈ s ∧ isSeparator c = false := by
  induction s with
  | nil =>
      intro part only
      obtain rfl := List.mem_singleton.mp only
      exact nofun
  | cons d s ih =>
      have later (part : List Char) (member : part ∈ splitAt isSeparator s) (c : Char) (inside : c ∈ part) :
          c ∈ d :: s ∧ isSeparator c = false :=
        ⟨List.mem_cons_of_mem d (ih part member c inside).1, (ih part member c inside).2⟩
      rw [splitAt]
      by_cases separator : isSeparator d
      · rw [if_pos separator]
        exact List.forall_mem_cons.mpr ⟨nofun, later⟩
      · rw [if_neg separator]
        rw [Bool.not_eq_true] at separator
        have here : d ∈ d :: s ∧ isSeparator d = false := ⟨List.mem_cons_self, separator⟩
        cases parts : splitAt isSeparator s with
        | nil => simpa using here
        | cons first rest =>
            rw [parts] at later
            obtain ⟨leading, others⟩ := List.forall_mem_cons.mp later
            exact List.forall_mem_cons.mpr ⟨List.forall_mem_cons.mpr ⟨here, leading⟩, others⟩

theorem query_and_fragment_confined (scheme : String) (s : List Char) (backslashes : '\\' ∈ s → backslash) :
    (∀ t, (readQueryAndFragment scheme s).1 = some t → Confined False backslash t.toList) ∧
    ∀ t, (readQueryAndFragment scheme s).2 = some t → Confined False backslash t.toList := by
  have front : s.takeWhile (· ≠ '#') ⊆ s := (List.takeWhile_sublist _).subset
  have back : s.dropWhile (· ≠ '#') ⊆ s := (List.dropWhile_sublist _).subset
  rw [readQueryAndFragment, List.span_eq_takeWhile_dropWhile]
  dsimp only
  constructor
  · intro t given
    split at given
    · rename_i query found
      obtain rfl := Option.some.inj given
      rw [found] at front
      refine encode_confined _ query (fun c control => by simp [escapedInQuery, control]) (fun _ kept => ?_)
        fun member _ => backslashes (front (List.mem_cons_of_mem _ member))
      simp [escapedInQuery] at kept
    · cases given
  · intro t given
    split at given
    · rename_i fragment found
      obtain rfl := Option.some.inj given
      rw [found] at back
      refine encode_confined _ fragment (fun c control => by simp [escapedInFragment, control]) (fun _ kept => ?_)
        fun member _ => backslashes (back (List.mem_cons_of_mem _ member))
      simp [escapedInFragment] at kept
    · cases given

theorem segment_confined (segment : List Char) (backslashes : '\\' ∈ segment → backslash) :
    Confined False backslash (encode escapedInPath segment).toList :=
  encode_confined _ segment (fun c control => by simp [escapedInPath, escapedInFragment, control])
    (fun _ kept => by simp [escapedInPath, escapedInFragment] at kept) fun member _ => backslashes member

theorem drive_confined (c : Char) (letter : c.isAlpha) : Confined False False [c, ':'] := by
  refine confined_of_class (fun c => c.isAlpha || c = ':') [c, ':'] ?_ (fun d member => ?_) rfl rfl
  · simp [letter]
  · rw [Bool.or_eq_true, decide_eq_true_eq] at member
    rcases member with alpha | rfl
    · have range := Text.alpha_range d alpha
      omega
    · decide

namespace PathDraft

def Within (backslash : Prop) (draft : PathDraft) : Prop :=
  ∀ s ∈ draft.segments, Confined False backslash s.toList

theorem within_iff (draft : PathDraft) :
    draft.Within backslash ↔
      (∀ s ∈ draft.closed, Confined False backslash s.toList) ∧ Confined False backslash draft.tail.toList := by
  rw [Within, segments, List.forall_mem_append, List.forall_mem_singleton]

theorem start_within : start.Within backslash :=
  start.within_iff.mpr ⟨nofun, nofun⟩

theorem close_within (draft : PathDraft) (given : draft.Within backslash) : draft.close.Within backslash := by
  rw [close]
  by_cases empty : draft.tail = ""
  · rwa [if_pos empty]
  · rw [if_neg empty]
    exact (within_iff _).mpr ⟨given, nofun⟩

theorem leave_within (draft : PathDraft) (given : draft.Within backslash) : draft.leave.Within backslash := by
  rw [leave]
  by_cases empty : draft.tail = ""
  · rw [if_pos empty]
    refine (within_iff _).mpr ⟨fun s member => draft.within_iff.mp given |>.1 s ?_, nofun⟩
    change s ∈ leaveLast draft.closed at member
    rw [leaveLast] at member
    split at member
    · exact member
    · exact List.dropLast_subset _ member
  · rwa [if_neg empty]

theorem append_within (draft : PathDraft) (s : String) (slashFollows : Bool) (given : draft.Within backslash)
    (confined : Confined False backslash s.toList) : (draft.append s slashFollows).Within backslash := by
  obtain ⟨closed, tail⟩ := draft.within_iff.mp given
  have longer : Confined False backslash (draft.tail ++ s).toList := by
    rw [String.toList_append, confined_append]
    exact ⟨tail, confined⟩
  cases slashFollows with
  | true =>
      change Within backslash ⟨draft.closed ++ [draft.tail ++ s], ""⟩
      refine (within_iff _).mpr ⟨?_, nofun⟩
      rw [List.forall_mem_append, List.forall_mem_singleton]
      exact ⟨closed, longer⟩
  | false =>
      change Within backslash ⟨draft.closed, draft.tail ++ s⟩
      exact (within_iff _).mpr ⟨closed, longer⟩

theorem cut_drive_parts (isFile : Bool) (draft : PathDraft) (segment drive rest : List Char)
    (cut : draft.cutDrive? isFile segment = some (drive, rest)) :
    Confined False False drive ∧ rest ⊆ segment := by
  unfold cutDrive? at cut
  split at cut
  · rename_i c d tail parts
    dsimp only at cut
    split at cut
    · rename_i leads
      obtain ⟨rfl, rfl⟩ := Prod.mk.inj (Option.some.inj cut)
      simp only [Bool.and_eq_true] at leads
      refine ⟨drive_confined c leads.1.2, fun x member => ?_⟩
      have inside : x ∈ withoutBreaks segment := by
        rw [parts]
        exact List.mem_cons_of_mem _ (List.mem_cons_of_mem _ member)
      exact (List.mem_filter.mp inside).1
    · cases cut
  · cases cut

theorem segment_text_confined (isFile : Bool) (draft : PathDraft) (segment : List Char)
    (backslashes : '\\' ∈ segment → backslash) :
    Confined False backslash (draft.segmentText isFile segment).toList := by
  unfold segmentText
  split
  · rename_i c mark
    split
    · rename_i drive
      simp only [Bool.and_eq_true, isDrive] at drive
      rw [String.toList_ofList]
      exact (drive_confined c drive.2.1).weaken _ id False.elim
    · exact segment_confined _ backslashes
  · exact segment_confined _ backslashes

theorem add_within (isFile : Bool) (draft : PathDraft) (segment : List Char) (slashFollows : Bool)
    (backslashes : '\\' ∈ segment → backslash) (given : draft.Within backslash) :
    (draft.add isFile segment slashFollows).Within backslash := by
  unfold add
  split
  · rename_i drive rest cut
    obtain ⟨confined, within⟩ := cut_drive_parts isFile draft segment drive rest cut
    refine append_within _ _ _ ?_ (segment_confined rest fun member => backslashes (within member))
    refine (within_iff _).mpr ⟨?_, nofun⟩
    rw [List.forall_mem_singleton, String.toList_ofList]
    exact confined.weaken _ id False.elim
  · dsimp only
    split
    · split
      · exact close_within _ (leave_within _ given)
      · exact leave_within _ given
    · split
      · exact close_within _ given
      · exact append_within _ _ _ given
          (segment_text_confined _ _ _ fun member => backslashes (List.mem_filter.mp member).1)

theorem add_all_within (isFile : Bool) (draft : PathDraft) (segments : List (List Char))
    (backslashes : ∀ segment ∈ segments, '\\' ∈ segment → backslash) (given : draft.Within backslash) :
    (draft.addAll isFile segments).Within backslash := by
  induction segments generalizing draft with
  | nil => exact given
  | cons segment segments ih =>
      obtain ⟨first, rest⟩ := List.forall_mem_cons.mp backslashes
      exact ih _ rest (add_within isFile draft segment _ first given)

-- In a special URL a backslash ends a segment.
theorem read_within (scheme : String) (draft : PathDraft) (s : List Char) (backslashes : '\\' ∈ s → backslash)
    (given : draft.Within (backslash ∧ isSpecial scheme = false)) :
    ∀ t ∈ draft.read scheme s, Confined False (backslash ∧ isSpecial scheme = false) t.toList := by
  refine add_all_within _ draft _ (fun segment member inside => ?_) given
  obtain ⟨among, noSlash⟩ := split_at_members _ s segment member _ inside
  refine ⟨backslashes among, ?_⟩
  simpa [isSlash] using noSlash

end PathDraft

end Url

end StyleCalc
