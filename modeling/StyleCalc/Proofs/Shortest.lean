import StyleCalc.Decimal.Shortest
import StyleCalc.Proofs.Nearest

set_option autoImplicit false

namespace StyleCalc.Decimal.Binary

open Double

theorem grid_positive (b : Binary) (e : ℤ) : 0 < (b.gridRatio e).1 ∧ 0 < (b.gridRatio e).2 := by
  have power (base n : ℕ) (positive : 0 < base) : 0 < Nat.pow base n := Nat.pow_pos positive
  exact ⟨Nat.mul_pos (power 10 _ (by decide)) (power 2 _ (by decide)),
    Nat.mul_pos (power 10 _ (by decide)) (power 2 _ (by decide))⟩

theorem power_split (base : ℚ) (nonzero : base ≠ 0) (e : ℤ) : base ^ e.toNat = base ^ e * base ^ (-e).toNat := by
  rw [← zpow_natCast, ← zpow_natCast, ← zpow_add₀ nonzero]
  congr 1
  omega

theorem grid_ratio (b : Binary) (e : ℤ) :
    ((b.gridRatio e).1 : ℚ) = 10 ^ e * 2 ^ (2 - b.exponent) * (b.gridRatio e).2 := by
  have numerator : ((b.gridRatio e).1 : ℚ) = 10 ^ e.toNat * 2 ^ (2 - b.exponent).toNat := by
    exact_mod_cast rfl
  have denominator : ((b.gridRatio e).2 : ℚ) = 10 ^ (-e).toNat * 2 ^ (b.exponent - 2).toNat := by
    exact_mod_cast rfl
  have turned : b.exponent - 2 = -(2 - b.exponent) := by ring
  rw [numerator, denominator, turned, power_split 10 (by norm_num) e, power_split 2 (by norm_num) (2 - b.exponent)]
  ring

theorem rounds_to_bounds (b : Binary) (e : ℤ) (k : ℕ) (rounds : b.roundsTo e k) :
    b.lower * (b.gridRatio e).2 ≤ k * (b.gridRatio e).1 ∧ k * (b.gridRatio e).1 ≤ b.upper * (b.gridRatio e).2 ∧
      (b.mantissa % 2 ≠ 0 → b.lower * (b.gridRatio e).2 < k * (b.gridRatio e).1 ∧
        k * (b.gridRatio e).1 < b.upper * (b.gridRatio e).2) := by
  rw [roundsTo] at rounds
  dsimp only at rounds
  by_cases even : b.mantissa % 2 = 0
  · rw [if_pos even, Bool.and_eq_true, decide_eq_true_eq, decide_eq_true_eq] at rounds
    exact ⟨rounds.1, rounds.2, fun odd => absurd even odd⟩
  · rw [if_neg even, Bool.and_eq_true, decide_eq_true_eq, decide_eq_true_eq] at rounds
    exact ⟨rounds.1.le, rounds.2.le, fun _ => rounds⟩

theorem rounds_to_of_between (b : Binary) (e : ℤ) (k : ℕ)
    (above : b.lower * (b.gridRatio e).2 < k * (b.gridRatio e).1)
    (below : k * (b.gridRatio e).1 < b.upper * (b.gridRatio e).2) : b.roundsTo e k := by
  rw [roundsTo]
  dsimp only
  split
  · rw [Bool.and_eq_true, decide_eq_true_eq, decide_eq_true_eq]
    exact ⟨above.le, below.le⟩
  · rw [Bool.and_eq_true, decide_eq_true_eq, decide_eq_true_eq]
    exact ⟨above, below⟩

structure IsDouble (b : Binary) : Prop where
  canonical : Canonical b.mantissa b.exponent
  tight : b.mantissa = 2 ^ 52 → -1074 < b.exponent → b.tightBelow

theorem lower_value (b : Binary) (number : b.IsDouble) :
    4 * b.mantissa - 2 ≤ (b.lower : ℚ) ∧ (b.tightBelow → 4 * b.mantissa - 1 ≤ (b.lower : ℚ)) := by
  have positive := number.canonical.positive
  rw [lower]
  cases b.tightBelow with
  | false =>
      rw [if_neg Bool.false_ne_true, Nat.cast_sub (by omega)]
      push_cast
      exact ⟨le_rfl, nofun⟩
  | true =>
      rw [if_pos rfl, Nat.cast_sub (by omega)]
      push_cast
      exact ⟨by linarith, fun _ => le_rfl⟩

theorem scaled_order (n k p r : ℕ) (y : ℚ) (positive : 0 < r) (value : (k : ℚ) * p = y * r) :
    (n * r ≤ k * p ↔ n ≤ y) ∧ (k * p ≤ n * r ↔ y ≤ n) := by
  have unit : (0 : ℚ) < r := by exact_mod_cast positive
  have lower : n * r ≤ k * p ↔ (n : ℚ) * r ≤ k * p := by exact_mod_cast Iff.rfl
  have upper : k * p ≤ n * r ↔ (k : ℚ) * p ≤ n * r := by exact_mod_cast Iff.rfl
  rw [lower, upper, value]
  exact ⟨mul_le_mul_iff_left₀ unit, mul_le_mul_iff_left₀ unit⟩

-- In quarters of the last place the interval has whole ends.
theorem rounds_to_quarters (b : Binary) (e : ℤ) (k : ℕ) (x : ℚ) (value : k * 10 ^ e * 2 ^ (-b.exponent) = x)
    (rounds : b.roundsTo e k) :
    b.lower ≤ 4 * x ∧ 4 * x ≤ b.upper ∧ (b.mantissa % 2 ≠ 0 → b.lower < 4 * x ∧ 4 * x < b.upper) := by
  obtain ⟨above, below, strict⟩ := rounds_to_bounds b e k rounds
  have quarters : (k : ℚ) * (b.gridRatio e).1 = 4 * x * (b.gridRatio e).2 := by
    rw [b.grid_ratio e, ← value, sub_eq_add_neg, zpow_add₀ two_ne_zero]
    norm_num
    ring
  have order (n : ℕ) := scaled_order n k _ _ (4 * x) (b.grid_positive e).2 quarters
  refine ⟨(order b.lower).1.mp above, (order b.upper).2.mp below, fun odd => ?_⟩
  obtain ⟨above, below⟩ := strict odd
  exact ⟨(lt_iff_lt_of_le_iff_le (order b.lower).2).mp above, (lt_iff_lt_of_le_iff_le (order b.upper).1).mp below⟩

theorem rounds_to_reach (b : Binary) (number : b.IsDouble) (e : ℤ) (k : ℕ) (rounds : b.roundsTo e k) :
    InReach b.mantissa b.exponent (k * 10 ^ e * 2 ^ (-b.exponent)) := by
  generalize value : (k : ℚ) * 10 ^ e * 2 ^ (-b.exponent) = x
  obtain ⟨above, below, strict⟩ := rounds_to_quarters b e k x value rounds
  obtain ⟨low, near⟩ := lower_value b number
  have high : (b.upper : ℚ) = 4 * b.mantissa + 2 := by
    rw [Binary.upper]
    push_cast
    rfl
  refine ⟨⟨by linarith, by linarith, ?_⟩, ?_⟩
  · intro tie
    by_contra odd
    obtain ⟨above, below⟩ := strict odd
    rcases tie with tie | tie <;> linarith
  · intro least normal
    have bound := near (number.tight least normal)
    linarith

theorem finest_divides (b : Binary) :
    (b.gridRatio b.finest).1 ∣ 4 * (b.gridRatio b.finest).2 := by
  have whole : b.finest.toNat = 0 := by
    rw [finest]
    omega
  have room : (2 - b.exponent).toNat ≤ 2 + (-b.finest).toNat + (b.exponent - 2).toNat := by
    rw [finest]
    omega
  change 10 ^ b.finest.toNat * 2 ^ (2 - b.exponent).toNat ∣
    4 * (10 ^ (-b.finest).toNat * 2 ^ (b.exponent - 2).toNat)
  rw [whole, pow_zero, one_mul]
  calc 2 ^ (2 - b.exponent).toNat ∣ 2 ^ (2 + (-b.finest).toNat + (b.exponent - 2).toNat) := pow_dvd_pow 2 room
    _ = 2 ^ 2 * (2 ^ (-b.finest).toNat * 2 ^ (b.exponent - 2).toNat) := by rw [pow_add, pow_add, mul_assoc]
    _ ∣ 4 * (10 ^ (-b.finest).toNat * 2 ^ (b.exponent - 2).toNat) :=
      Nat.mul_dvd_mul_left _ (Nat.mul_dvd_mul_right (pow_dvd_pow_of_dvd (by decide) _) _)

theorem finest_rounds (b : Binary) (positive : 0 < b.mantissa) :
    b.roundsTo b.finest (4 * b.mantissa * (b.gridRatio b.finest).2 / (b.gridRatio b.finest).1) := by
  have divides : (b.gridRatio b.finest).1 ∣ 4 * b.mantissa * (b.gridRatio b.finest).2 := by
    rw [mul_right_comm]
    exact Nat.dvd_mul_right_of_dvd b.finest_divides b.mantissa
  obtain ⟨_, unit⟩ := b.grid_positive b.finest
  apply rounds_to_of_between <;> rw [Nat.div_mul_cancel divides]
  · refine Nat.mul_lt_mul_of_pos_right ?_ unit
    rw [lower]
    split <;> omega
  · refine Nat.mul_lt_mul_of_pos_right ?_ unit
    rw [upper]
    omega

theorem on_grid_rounds (b : Binary) (e : ℤ) (k : ℕ) (found : b.onGrid e = some k) : b.roundsTo e k := by
  rw [onGrid] at found
  dsimp only at found
  split at found
  · rename_i this next
    split at found
    · rw [← Option.some.inj found]
      exact next
    · rw [← Option.some.inj found]
      exact this
  · rename_i this _
    rw [← Option.some.inj found]
    exact this
  · rename_i _ next
    rw [← Option.some.inj found]
    exact next
  · cases found

theorem shortest_within_rounds (b : Binary) (positive : 0 < b.mantissa) (steps : ℕ) :
    b.roundsTo (b.shortestWithin steps).2 (b.shortestWithin steps).1 ∧ b.finest ≤ (b.shortestWithin steps).2 := by
  induction steps with
  | zero => exact ⟨b.finest_rounds positive, le_rfl⟩
  | succ steps ih =>
      rw [shortestWithin]
      split
      · rename_i k found
        exact ⟨b.on_grid_rounds _ k found, by dsimp only; omega⟩
      · exact ih

theorem shortest_in_reach (b : Binary) (number : b.IsDouble) :
    InReach b.mantissa b.exponent (b.shortest.1 * 10 ^ b.shortest.2 * 2 ^ (-b.exponent)) ∧ -1074 ≤ b.shortest.2 := by
  obtain ⟨rounds, fine⟩ := b.shortest_within_rounds number.canonical.positive (b.coarsest - b.finest).toNat
  have least : -1074 ≤ b.finest := by
    have bound := number.canonical.least
    rw [finest]
    omega
  exact ⟨b.rounds_to_reach number _ _ rounds, le_trans least fine⟩

end StyleCalc.Decimal.Binary
