set_option autoImplicit false

namespace StyleCalc

theorem except_bind_ok_iff {ε β γ : Type} (r : Except ε β) (next : β → Except ε γ) (c : γ) :
    (r >>= next) = .ok c ↔ ∃ b, r = .ok b ∧ next b = .ok c := by
  cases r with
  | error e => simp [bind, Except.bind]
  | ok b => simp [bind, Except.bind]

theorem except_map_ok_iff {ε β γ : Type} (r : Except ε β) (f : β → γ) (c : γ) :
    r.map f = .ok c ↔ ∃ b, r = .ok b ∧ f b = c := by
  cases r with
  | error e => simp [Except.map]
  | ok b => simp [Except.map]

theorem except_map_error_ok_iff {ε ε' β : Type} (r : Except ε β) (f : ε → ε') (b : β) :
    r.mapError f = .ok b ↔ r = .ok b := by
  cases r with
  | error e => constructor <;> intro same <;> cases same
  | ok c =>
      constructor
      · exact fun same => congrArg Except.ok (Except.ok.inj same)
      · exact fun same => congrArg Except.ok (Except.ok.inj same)

theorem except_of_to_option {ε β : Type} (r : Except ε β) (b : β) (given : r.toOption = some b) : r = .ok b := by
  cases r with
  | error e => cases given
  | ok c => exact congrArg Except.ok (Option.some.inj given)

theorem except_bind_error_iff {ε β γ : Type} (r : Except ε β) (next : β → Except ε γ) (e : ε) :
    (r >>= next) = .error e ↔ r = .error e ∨ ∃ b, r = .ok b ∧ next b = .error e := by
  cases r with
  | error e => simp [bind, Except.bind]
  | ok b => simp [bind, Except.bind]

theorem except_map_error_iff {ε β γ : Type} (r : Except ε β) (f : β → γ) (e : ε) :
    r.map f = .error e ↔ r = .error e := by
  cases r with
  | error e => simp [Except.map]
  | ok b => simp [Except.map]

theorem except_guard_ok {ε β : Type} (refused : Prop) [Decidable refused] (e : ε) (next : PUnit → Except ε β)
    (c : β) (given : (if refused then do let r ← throw e; next r else next ⟨⟩) = .ok c) : next ⟨⟩ = .ok c := by
  by_cases holds : refused
  · rw [if_pos holds] at given
    cases given
  · rwa [if_neg holds] at given

def collect {ε β : Type} : List (Except ε (Option β)) → Except ε (Option (List β))
  | [] => .ok (some [])
  | .ok (some b) :: rest => (collect rest).map (·.map (b :: ·))
  | .ok none :: _ => .ok none
  | .error e :: _ => .error e

theorem collect_values {ε β : Type} (bs : List β) :
    collect (bs.map fun b => (.ok (some b) : Except ε (Option β))) = .ok (some bs) := by
  induction bs with
  | nil => rfl
  | cons b rest ih =>
      rw [List.map_cons, collect, ih]
      rfl

theorem collect_some_iff {ε β : Type} (rs : List (Except ε (Option β))) (bs : List β) :
    collect rs = .ok (some bs) ↔ rs = bs.map fun b => .ok (some b) := by
  constructor
  · intro given
    induction rs generalizing bs with
    | nil =>
        have empty : [] = bs := by simpa [collect] using given
        rw [← empty, List.map_nil]
    | cons r rest ih =>
        match r with
        | .error e => simp [collect] at given
        | .ok none => simp [collect] at given
        | .ok (some b) =>
            cases tail : collect rest with
            | error e => simp [collect, tail, Except.map] at given
            | ok found =>
                cases found with
                | none => simp [collect, tail, Except.map] at given
                | some cs =>
                    have same : b :: cs = bs := by simpa [collect, tail, Except.map] using given
                    rw [← same, List.map_cons, ih cs tail]
  · rintro rfl
    exact collect_values bs

theorem values_map_map {ε β γ δ : Type} (r : Except ε (Option β)) (f : β → γ) (g : γ → δ) :
    (r.map (·.map f)).map (·.map g) = r.map (·.map fun b => g (f b)) := by
  match r with
  | .error e => rfl
  | .ok none => rfl
  | .ok (some b) => rfl

theorem collect_append {ε β : Type} (rs ss : List (Except ε (Option β))) :
    collect (rs ++ ss) = collect rs >>= fun
      | none => .ok none
      | some bs => (collect ss).map (·.map (bs ++ ·)) := by
  induction rs with
  | nil =>
      change collect ss = (collect ss).map (·.map fun cs => cs)
      match collect ss with
      | .error e => rfl
      | .ok none => rfl
      | .ok (some cs) => rfl
  | cons r rest ih =>
      match r with
      | .error e => rfl
      | .ok none => rfl
      | .ok (some b) =>
          rw [List.cons_append, collect, collect, ih]
          match collect rest with
          | .error e => rfl
          | .ok none => rfl
          | .ok (some bs) => exact values_map_map (collect ss) (bs ++ ·) (b :: ·)

theorem collected_member {ε β : Type} (rs : List (Except ε (Option β))) (bs : List β) (b : β)
    (given : collect rs = .ok (some bs)) (member : b ∈ bs) : .ok (some b) ∈ rs := by
  rw [(collect_some_iff rs bs).mp given]
  exact List.mem_map_of_mem member

theorem collect_first_error {ε β : Type} (rs : List (Except ε (Option β))) (i : Nat) (e : ε)
    (here : rs[i]? = some (.error e)) (before : ∀ r ∈ rs.take i, ∃ b, r = .ok (some b)) :
    collect rs = .error e := by
  induction rs generalizing i with
  | nil => simp at here
  | cons r rest ih =>
      cases i with
      | zero =>
          obtain rfl : r = .error e := by simpa using here
          rfl
      | succ i =>
          obtain ⟨b, rfl⟩ := before r (by simp)
          have later := ih i (by simpa using here) fun s member => before s (by simp [member])
          rw [collect, later]
          rfl

theorem collect_error_member {ε β : Type} (rs : List (Except ε (Option β))) (e : ε)
    (given : collect rs = .error e) : .error e ∈ rs := by
  induction rs with
  | nil => cases given
  | cons r rest ih =>
      match r with
      | .error e' =>
          obtain rfl : e' = e := Except.error.inj given
          exact List.mem_cons_self
      | .ok none => cases given
      | .ok (some b) =>
          rw [collect, except_map_error_iff] at given
          exact List.mem_cons_of_mem _ (ih given)

end StyleCalc
