/-!
Words compared without regard to letter case, by simple case folding: beside the ASCII capitals the
long s folds to s and the Kelvin sign to k.
-/

set_option autoImplicit false

namespace StyleCalc.Text

def fold (c : Char) : Char :=
  if c = '\u017f' then 's' else if c = '\u212a' then 'k' else c.toLower

theorem capital_iff (c : Char) : c.isUpper ↔ 65 ≤ c.toNat ∧ c.toNat ≤ 90 := by
  unfold Char.isUpper
  rw [decide_eq_true_eq, ge_iff_le, UInt32.le_iff_toNat_le, UInt32.le_iff_toNat_le]
  exact Iff.rfl

theorem small_iff (c : Char) : c.isLower ↔ 97 ≤ c.toNat ∧ c.toNat ≤ 122 := by
  unfold Char.isLower
  rw [Bool.and_eq_true, decide_eq_true_eq, decide_eq_true_eq]
  exact Iff.rfl

theorem alpha_iff (c : Char) : c.isAlpha ↔ c.isUpper ∨ c.isLower := by
  unfold Char.isAlpha
  rw [Bool.or_eq_true]

theorem capital_to_lower (c : Char) (capital : c.isUpper) : c.toLower.toNat = c.toNat + 32 := by
  have moved : c.toLower = ⟨c.val + ('a'.val - 'A'.val), _⟩ := dif_pos (of_decide_eq_true capital)
  have bound : c.val.toNat ≤ 90 := ((capital_iff c).mp capital).2
  have step : ('a'.val - 'A'.val).toNat = 32 := rfl
  change c.toLower.val.toNat = c.val.toNat + 32
  rw [moved]
  simp only [UInt32.toNat_add, step]
  omega

theorem other_to_lower (c : Char) (other : ¬ c.isUpper) : c.toLower = c :=
  dif_neg (mt decide_eq_true other)

theorem capital_to_lower_small (c : Char) (capital : c.isUpper) : c.toLower.isLower := by
  have bounds := (capital_iff c).mp capital
  rw [small_iff, capital_to_lower c capital]
  omega

@[simp]
theorem is_alpha_to_lower (c : Char) : c.toLower.isAlpha = c.isAlpha := by
  by_cases capital : c.isUpper
  · rw [(alpha_iff c).mpr (.inl capital), (alpha_iff _).mpr (.inr (capital_to_lower_small c capital))]
  · rw [other_to_lower c capital]

@[simp]
theorem to_lower_to_lower (c : Char) : c.toLower.toLower = c.toLower := by
  refine other_to_lower _ fun again => ?_
  have capitals := (capital_iff _).mp again
  by_cases capital : c.isUpper
  · have smalls := (small_iff _).mp (capital_to_lower_small c capital)
    omega
  · rw [other_to_lower c capital] at again
    exact capital again

@[simp]
theorem to_lower_eq_iff (c l : Char) (noLetter : l.isAlpha = false) : c.toLower = l ↔ c = l := by
  have inert (d : Char) (plain : d.isAlpha = false) : d.toLower = d :=
    other_to_lower d fun capital => by rw [(alpha_iff d).mpr (.inl capital)] at plain; cases plain
  constructor
  · intro same
    have plain : c.isAlpha = false := by rw [← is_alpha_to_lower, same, noLetter]
    rw [← inert c plain, same]
  · rintro rfl
    exact inert c noLetter

theorem fold_eq_iff (c l : Char) :
    fold c = l ↔
      c = '\u017f' ∧ l = 's' ∨ c = '\u212a' ∧ l = 'k' ∨ c ≠ '\u017f' ∧ c ≠ '\u212a' ∧ c.toLower = l := by
  unfold fold
  split
  · simp_all [eq_comm]
  · split
    · simp_all [eq_comm]
    · simp_all

@[simp]
theorem fold_symbol (c l : Char) (noLetter : l.isAlpha = false) (notLong : l ≠ '\u017f')
    (notKelvin : l ≠ '\u212a') : fold c = l ↔ c = l := by
  rw [fold_eq_iff, to_lower_eq_iff c l noLetter]
  constructor
  · rintro (⟨_, rfl⟩ | ⟨_, rfl⟩ | ⟨_, _, same⟩)
    · cases noLetter
    · cases noLetter
    · exact same
  · rintro rfl
    exact .inr (.inr ⟨notLong, notKelvin, rfl⟩)

def dropWord? : List Char → List Char → Option (List Char)
  | [], rest => some rest
  | _ :: _, [] => none
  | l :: word, c :: rest => if fold c = l then dropWord? word rest else none

theorem dropWord_append (word rest : List Char) (small : word.map fold = word) :
    dropWord? word (word ++ rest) = some rest := by
  induction word with
  | nil => rfl
  | cons l word ih =>
      simp only [List.map_cons, List.cons.injEq] at small
      simpa only [List.cons_append, dropWord?, if_pos small.1] using ih small.2

theorem dropWord_eq_some (word s rest : List Char) :
    dropWord? word s = some rest ↔ ∃ front, s = front ++ rest ∧ front.map fold = word := by
  induction word generalizing s with
  | nil => simp [dropWord?]
  | cons l word ih =>
      cases s with
      | nil => simp [dropWord?]
      | cons c s =>
          by_cases same : fold c = l
          · rw [dropWord?, if_pos same, ih]
            constructor
            · rintro ⟨front, split, folded⟩
              exact ⟨c :: front, by rw [split, List.cons_append], by rw [List.map_cons, same, folded]⟩
            · rintro ⟨front, split, folded⟩
              cases front with
              | nil => simp at folded
              | cons d front =>
                  simp only [List.cons_append, List.cons.injEq] at split
                  simp only [List.map_cons, List.cons.injEq] at folded
                  exact ⟨front, split.2, folded.2⟩
          · rw [dropWord?, if_neg same]
            constructor
            · intro found
              simp at found
            · rintro ⟨front, split, folded⟩
              cases front with
              | nil => simp at folded
              | cons d front =>
                  simp only [List.cons_append, List.cons.injEq] at split
                  simp only [List.map_cons, List.cons.injEq] at folded
                  exact absurd (split.1 ▸ folded.1) same

end StyleCalc.Text
