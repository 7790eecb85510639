import Mathlib.Algebra.Order.Field.Power
import Mathlib.Algebra.Order.Ring.Rat
import Mathlib.Tactic.Linarith
import Mathlib.Tactic.NormNum
import Mathlib.Tactic.Positivity
import Mathlib.Tactic.Ring
import StyleCalc.Proofs.Doubles
/-!
Rounding goes to the nearest double precision number. Whatever is left of an exact quotient or product, if
the exact value lies in the reach of a number, rounding arrives at that number.
-/

set_option autoImplicit false

namespace StyleCalc.Double

open Float.Model Float.Model.UnpackedFloat

def Describes : Accuracy → ℕ → ℚ → Prop
  | .exact, m, x => x = m
  | .inexact .lt, m, x => m < x ∧ x < m + 1 / 2
  | .inexact .eq, m, x => x = m + 1 / 2
  | .inexact .gt, m, x => m + 1 / 2 < x ∧ x < m + 1

theorem describes_bounds (a : Accuracy) (m : ℕ) (x : ℚ) (described : Describes a m x) : m ≤ x ∧ x < m + 1 := by
  rcases a with _ | (_ | _ | _) <;> simp only [Describes] at described <;> constructor <;> linarith

-- A place less: the last bit becomes the round bit, and what was behind it is only remembered.
theorem describes_half (em : ExtendedMantissa) (x : ℚ) (described : Describes em.accuracy em.mantissa x) :
    Describes em.shiftRightOne.accuracy em.shiftRightOne.mantissa (x / 2) := by
  obtain ⟨m, round, sticky⟩ := em
  obtain even | odd := Nat.mod_two_eq_zero_or_one m
  · have half : (m : ℚ) = 2 * (m / 2 : ℕ) := by
      have whole : m = 2 * (m / 2) := by omega
      exact_mod_cast whole
    have shifted : (ExtendedMantissa.mk m round sticky).shiftRightOne = ⟨m / 2, false, round || sticky⟩ := by
      simp [ExtendedMantissa.shiftRightOne, even]
    rw [shifted]
    cases round <;> cases sticky <;> simp only [ExtendedMantissa.accuracy, Describes, Bool.or_self, Bool.or_true,
      Bool.or_false] at described ⊢
    · linarith
    · constructor <;> linarith
    · constructor <;> linarith
    · constructor <;> linarith
  · have half : (m : ℚ) = 2 * (m / 2 : ℕ) + 1 := by
      have whole : m = 2 * (m / 2) + 1 := by omega
      exact_mod_cast whole
    have shifted : (ExtendedMantissa.mk m round sticky).shiftRightOne = ⟨m / 2, true, round || sticky⟩ := by
      simp [ExtendedMantissa.shiftRightOne, odd]
    rw [shifted]
    cases round <;> cases sticky <;> simp only [ExtendedMantissa.accuracy, Describes, Bool.or_self, Bool.or_true,
      Bool.or_false] at described ⊢
    · linarith
    · constructor <;> linarith
    · constructor <;> linarith
    · constructor <;> linarith

theorem describes_shift (em : ExtendedMantissa) (places : ℕ) (x : ℚ)
    (described : Describes em.accuracy em.mantissa x) :
    Describes (em >>> places).accuracy (em >>> places).mantissa (x / 2 ^ places) := by
  induction places with
  | zero =>
      rw [pow_zero, div_one]
      exact described
  | succ places ih =>
      have step : em >>> (places + 1) = (em >>> places).shiftRightOne := rfl
      rw [step, pow_succ, ← div_div]
      exact describes_half (em >>> places) _ ih

theorem describes_start (a : Accuracy) (m : ℕ) (x : ℚ) (described : Describes a m x) :
    Describes (ExtendedMantissa.ofMantissaAndAccuracy m a).accuracy
      (ExtendedMantissa.ofMantissaAndAccuracy m a).mantissa x := by
  rcases a with _ | (_ | _ | _) <;> exact described

structure NearestEven (n : ℕ) (x : ℚ) : Prop where
  lower : n - 1 / 2 ≤ x
  upper : x ≤ n + 1 / 2
  tie : x = n - 1 / 2 ∨ x = n + 1 / 2 → n % 2 = 0

theorem cast_eq (m n : ℕ) (less : (m : ℚ) < n + 1) (more : (n : ℚ) < m + 1) : m = n := by
  have below : m < n + 1 := by exact_mod_cast less
  have above : n < m + 1 := by exact_mod_cast more
  omega

theorem rounded_nearest (em : ExtendedMantissa) (n : ℕ) (x : ℚ) (described : Describes em.accuracy em.mantissa x)
    (nearest : NearestEven n x) : em.roundedMantissa = n := by
  obtain ⟨lower, upper, tie⟩ := nearest
  rw [ExtendedMantissa.roundedMantissa]
  generalize em.accuracy = a at described
  generalize em.mantissa = m at described
  rcases a with _ | (_ | _ | _) <;> simp only [Describes] at described <;> rw [Accuracy.roundToNearestEven]
  · exact cast_eq m n (by linarith) (by linarith)
  · exact cast_eq m n (by linarith) (by linarith)
  · by_cases same : m = n
    · have even := tie (.inr (by rw [described, same]))
      omega
    · have next : m + 1 = n := by
        refine cast_eq (m + 1) n ?_ ?_
        · have more : m < n := lt_of_le_of_ne (by exact_mod_cast (by linarith : (m : ℚ) ≤ n)) same
          exact_mod_cast Nat.succ_lt_succ more
        · push_cast
          linarith
      have even := tie (.inl (by rw [described, ← next]; push_cast; ring))
      omega
  · exact cast_eq (m + 1) n (by push_cast; linarith) (by push_cast; linarith)

theorem mantissa_log2 (a : Accuracy) (m : ℕ) (x : ℚ) (described : Describes a m x) (positive : m ≠ 0) :
    (2 : ℚ) ^ m.log2 ≤ x ∧ x < 2 ^ (m.log2 + 1) := by
  have bounds := describes_bounds a m x described
  have lower : (2 ^ m.log2 : ℚ) ≤ m := by exact_mod_cast Nat.log2_self_le positive
  have upper : (m + 1 : ℚ) ≤ 2 ^ (m.log2 + 1) := by exact_mod_cast Nat.lt_log2_self (n := m)
  exact ⟨le_trans lower bounds.1, lt_of_lt_of_le bounds.2 upper⟩

structure Canonical (mantissa : ℕ) (exponent : ℤ) : Prop where
  positive : 0 < mantissa
  bits : mantissa < 2 ^ 53
  least : -1074 ≤ exponent
  normal : 2 ^ 52 ≤ mantissa ∨ exponent = -1074

/-- The number is nearest to the given value, which is counted in units of the number's last place. Below
the least mantissa the neighbours are half as far apart. -/
structure InReach (mantissa : ℕ) (exponent : ℤ) (x : ℚ) : Prop where
  nearest : NearestEven mantissa x
  tight : mantissa = 2 ^ 52 → -1074 < exponent → mantissa - 1 / 4 ≤ x

theorem shift_target (m : ℕ) (e : ℤ) (a : Accuracy) (target : ℤ) (fine : e ≤ target)
    (known : max (m.log2 + e - 52) (-1074) = target) :
    shiftToTargetExponent .binary64 m e a =
      (ExtendedMantissa.ofMantissaAndAccuracy m a >>> (target - e).toNat, target) := by
  have value : Format.binary64.targetExponent (totalExponent m e) = target := by
    have bits : Format.binary64.mantissaBits = 53 := rfl
    have least : Format.binary64.minExponent = -1074 := rfl
    rw [Format.targetExponent, totalExponent, bits, least]
    omega
  rw [shiftToTargetExponent, value, shiftToExponent, Int.toNat_of_nonneg (by omega), add_sub_cancel]

theorem canonical_log2 (mantissa : ℕ) (exponent : ℤ) (canonical : Canonical mantissa exponent) :
    max (mantissa.log2 + exponent - 52) (-1074) = exponent := by
  have nonzero : mantissa ≠ 0 := canonical.positive.ne'
  have least := canonical.least
  have most : mantissa.log2 < 53 := (Nat.log2_lt nonzero).mpr canonical.bits
  obtain large | same := canonical.normal
  · have enough : 52 ≤ mantissa.log2 := (Nat.le_log2 nonzero).mpr large
    omega
  · omega

theorem shift_canonical (mantissa : ℕ) (exponent : ℤ) (canonical : Canonical mantissa exponent) :
    shiftToTargetExponent .binary64 mantissa exponent .exact = (⟨mantissa, false, false⟩, exponent) := by
  rw [shift_target mantissa exponent .exact exponent le_rfl (canonical_log2 mantissa exponent canonical), sub_self]
  rfl

theorem shift_carry (exponent : ℤ) (above : -1074 < exponent) :
    shiftToTargetExponent .binary64 (2 ^ 53) (exponent - 1) .exact = (⟨2 ^ 52, false, false⟩, exponent) := by
  have log : (2 ^ 53).log2 = 53 := Nat.log2_two_pow
  have place : (exponent - (exponent - 1)).toNat = 1 := by omega
  rw [shift_target (2 ^ 53) (exponent - 1) .exact exponent (by omega) (by rw [log]; omega), place]
  rfl

theorem scaled_log2 (a : Accuracy) (m : ℕ) (x : ℚ) (described : Describes a m x) (positive : m ≠ 0) (scale : ℤ) :
    (2 : ℚ) ^ (m.log2 + scale) ≤ x * 2 ^ scale ∧ x * 2 ^ scale < 2 ^ (m.log2 + scale + 1) := by
  have size := mantissa_log2 a m x described positive
  have unit : (0 : ℚ) < 2 ^ scale := by positivity
  have order : (m.log2 : ℤ) + scale + 1 = (m.log2 + 1 : ℕ) + scale := by omega
  rw [order, zpow_add₀ two_ne_zero, zpow_add₀ two_ne_zero, zpow_natCast, zpow_natCast]
  exact ⟨mul_le_mul_of_nonneg_right size.1 unit.le, mul_lt_mul_of_pos_right size.2 unit⟩

theorem exponent_above (n : ℕ) (k : ℤ) (x : ℚ) (lower : (2 : ℚ) ^ n ≤ x) (upper : x < 2 ^ k) : n < k := by
  rw [← zpow_natCast] at lower
  exact (zpow_lt_zpow_iff_right₀ one_lt_two).mp (lt_of_le_of_lt lower upper)

theorem exponent_below (n : ℕ) (k : ℤ) (x : ℚ) (lower : (2 : ℚ) ^ k ≤ x) (upper : x < 2 ^ n) : k < n := by
  rw [← zpow_natCast] at upper
  exact (zpow_lt_zpow_iff_right₀ one_lt_two).mp (lt_of_le_of_lt lower upper)

theorem nothing_in_reach (a : Accuracy) (e : ℤ) (x : ℚ) (described : Describes a 0 x) (fine : e ≤ -1074)
    (mantissa : ℕ) (exponent : ℤ) (canonical : Canonical mantissa exponent)
    (reach : InReach mantissa exponent (x * 2 ^ (e - exponent))) : exponent = -1074 := by
  obtain ⟨nonnegative, less⟩ := describes_bounds a 0 x described
  have least := canonical.least
  have small : (2 : ℚ) ^ (e - exponent) ≤ 1 := zpow_le_one_of_nonpos₀ one_le_two (by omega)
  have lower := reach.nearest.lower
  push_cast at nonnegative less
  have product : x * 2 ^ (e - exponent) < 1 := by nlinarith
  refine canonical.normal.resolve_left fun large => ?_
  have huge : (2 : ℚ) ^ 52 ≤ mantissa := by exact_mod_cast large
  linarith

-- Below the least mantissa the exact value may have one place more than the number it is rounded to.
theorem target_in_reach (a : Accuracy) (m : ℕ) (e : ℤ) (x : ℚ) (described : Describes a m x)
    (fine : e ≤ max (m.log2 + e - 52) (-1074)) (mantissa : ℕ) (exponent : ℤ) (canonical : Canonical mantissa exponent)
    (reach : InReach mantissa exponent (x * 2 ^ (e - exponent))) :
    max (m.log2 + e - 52) (-1074) = exponent ∨
      max (m.log2 + e - 52) (-1074) = exponent - 1 ∧ mantissa = 2 ^ 52 ∧ -1074 < exponent ∧
        x * 2 ^ (e - exponent) < 2 ^ 52 := by
  have most : (mantissa : ℚ) + 1 ≤ 2 ^ 53 := by exact_mod_cast canonical.bits
  have lower := reach.nearest.lower
  have upper := reach.nearest.upper
  have bound := canonical.least
  by_cases zero : m = 0
  · subst zero
    have logZero : Nat.log2 0 = 0 := Nat.log2_zero
    have same := nothing_in_reach a e x described (by omega) mantissa exponent canonical reach
    left
    omega
  · have tight := reach.tight
    obtain ⟨low, high⟩ := scaled_log2 a m x described zero (e - exponent)
    generalize x * 2 ^ (e - exponent) = w at lower upper tight low high
    have atMost := exponent_below 53 _ w low (by linarith)
    by_cases subnormal : exponent = -1074
    · left
      omega
    · have large := canonical.normal.resolve_right subnormal
      by_cases least : mantissa = 2 ^ 52
      · have whole : (mantissa : ℚ) = 2 ^ 52 := by exact_mod_cast least
        have near := tight least (by omega)
        have atLeast := exponent_above 51 _ w (by linarith) high
        by_cases same : m.log2 + e - 52 = exponent
        · left
          omega
        · have step : (m.log2 : ℤ) + (e - exponent) + 1 = (52 : ℕ) := by omega
          rw [step, zpow_natCast] at high
          exact .inr ⟨by omega, least, by omega, high⟩
      · have more : (2 : ℚ) ^ 52 + 1 ≤ mantissa := by
          have next : 2 ^ 52 + 1 ≤ mantissa := by omega
          exact_mod_cast next
        have atLeast := exponent_above 52 _ w (by linarith) high
        left
        omega

theorem round_in_reach (sign : Sign) (a : Accuracy) (m : ℕ) (e : ℤ) (x : ℚ) (described : Describes a m x)
    (fine : e ≤ max (m.log2 + e - 52) (-1074)) (mantissa : ℕ) (exponent : ℤ) (canonical : Canonical mantissa exponent)
    (reach : InReach mantissa exponent (x * 2 ^ (e - exponent))) :
    roundWithAccuracy .binary64 sign m e a = .finite sign mantissa exponent canonical.positive := by
  have scale (target : ℤ) (fine : e ≤ target) (offset : ℤ) :
      x / 2 ^ (target - e).toNat = x * 2 ^ (e - (target + offset)) * 2 ^ offset := by
    have places : ((target - e).toNat : ℤ) = target - e := Int.toNat_of_nonneg (by omega)
    rw [← zpow_natCast, places, div_eq_mul_inv, ← zpow_neg, mul_assoc, ← zpow_add₀ two_ne_zero]
    congr 2
    omega
  rw [roundWithAccuracy, shift_target m e a _ fine rfl]
  have shifted := describes_shift _ (max (m.log2 + e - 52) (-1074) - e).toNat x (describes_start a m x described)
  obtain same | ⟨lower, least, normal, below⟩ :=
    target_in_reach a m e x described fine mantissa exponent canonical reach
  · rw [same] at fine shifted ⊢
    have unit := scale exponent fine 0
    rw [add_zero, zpow_zero, mul_one] at unit
    rw [unit] at shifted
    dsimp only
    rw [rounded_nearest _ mantissa _ shifted reach.nearest, shift_canonical mantissa exponent canonical]
    exact dif_neg canonical.positive.ne'
  · rw [lower] at fine shifted ⊢
    have unit := scale (exponent - 1) fine 1
    rw [sub_add_cancel, zpow_one] at unit
    rw [unit] at shifted
    have near := reach.tight least normal
    have whole : (mantissa : ℚ) = 2 ^ 52 := by exact_mod_cast least
    have carried : NearestEven (2 ^ 53) (x * 2 ^ (e - exponent) * 2) := by
      refine ⟨?_, ?_, fun _ => rfl⟩
      · push_cast
        linarith
      · push_cast
        linarith
    subst least
    dsimp only
    rw [rounded_nearest _ (2 ^ 53) _ shifted carried, shift_carry exponent normal]
    exact dif_neg canonical.positive.ne'

theorem mul_in_reach (sign sign' : Sign) (m m' : ℕ) (e e' : ℤ) (positive : 0 < m) (positive' : 0 < m')
    (long : 52 ≤ (m * m').log2) (mantissa : ℕ) (exponent : ℤ) (canonical : Canonical mantissa exponent)
    (reach : InReach mantissa exponent (m * m' * 2 ^ (e + e' - exponent))) :
    UnpackedFloat.mul .binary64 (.finite sign m e positive) (.finite sign' m' e' positive') =
      .finite (sign * sign') mantissa exponent canonical.positive := by
  have described : Describes .exact (m * m') (m * m') := by
    rw [Describes]
    push_cast
    rfl
  exact round_in_reach (sign * sign') .exact (m * m') (e + e') _ described (by omega) mantissa exponent canonical reach

theorem describes_quotient (m n : ℕ) (positive : 0 < n) :
    Describes (accuracyOfFraction (m % n) n) (m / n) (m / n) := by
  have unit : (0 : ℚ) < n := by exact_mod_cast positive
  have split : (m : ℚ) / n = (m / n : ℕ) + (m % n : ℕ) / n := by
    have whole : (m : ℚ) = n * (m / n : ℕ) + (m % n : ℕ) := by exact_mod_cast (Nat.div_add_mod m n).symm
    rw [div_eq_iff unit.ne', add_mul, div_mul_cancel₀ _ unit.ne', mul_comm]
    exact whole
  have rest : ((m % n : ℕ) : ℚ) < n := by exact_mod_cast Nat.mod_lt m positive
  rw [split, accuracyOfFraction]
  generalize m / n = q
  generalize m % n = r at rest
  by_cases nothing : r = 0
  · rw [if_pos nothing, nothing, Describes, Nat.cast_zero, zero_div, add_zero]
  · have some : (0 : ℚ) < r := by exact_mod_cast Nat.pos_of_ne_zero nothing
    have part : (0 : ℚ) < r / n := div_pos some unit
    have proper : (r : ℚ) / n < 1 := (div_lt_one unit).mpr rest
    rw [if_neg nothing]
    rcases order : compare (2 * r) n with _ | _ | _ <;> rw [Describes]
    · have less : (2 * r : ℚ) < n := by exact_mod_cast Nat.compare_eq_lt.mp order
      have half : (r : ℚ) / n < 1 / 2 := by
        rw [div_lt_iff₀ unit]
        linarith
      exact ⟨by linarith, by linarith⟩
    · have same : (2 * r : ℚ) = n := by exact_mod_cast Nat.compare_eq_eq.mp order
      have half : (r : ℚ) / n = 1 / 2 := by
        rw [div_eq_iff unit.ne']
        linarith
      rw [half]
    · have more : (n : ℚ) < 2 * r := by exact_mod_cast Nat.compare_eq_gt.mp order
      have half : 1 / 2 < (r : ℚ) / n := by
        rw [lt_div_iff₀ unit]
        linarith
      exact ⟨by linarith, by linarith⟩

theorem quotient_bits (m n : ℕ) (positive : 0 < m) (positive' : 0 < n) (shift : ℕ)
    (enough : n.log2 + 53 ≤ m.log2 + shift) : 52 ≤ (m <<< shift / n).log2 := by
  have low : 2 ^ m.log2 ≤ m := Nat.log2_self_le positive.ne'
  have high : n < 2 ^ (n.log2 + 1) := Nat.lt_log2_self
  have quotient : 2 ^ 52 ≤ m <<< shift / n := by
    rw [Nat.le_div_iff_mul_le positive', Nat.shiftLeft_eq]
    calc 2 ^ 52 * n ≤ 2 ^ 52 * 2 ^ (n.log2 + 1) := Nat.mul_le_mul_left _ high.le
      _ = 2 ^ (n.log2 + 53) := by rw [← pow_add]; congr 1; omega
      _ ≤ 2 ^ (m.log2 + shift) := Nat.pow_le_pow_right (by decide) enough
      _ = 2 ^ m.log2 * 2 ^ shift := pow_add _ _ _
      _ ≤ m * 2 ^ shift := Nat.mul_le_mul_right _ low
  have nonzero : m <<< shift / n ≠ 0 := by
    intro zero
    rw [zero] at quotient
    exact absurd quotient (by decide)
  exact (Nat.le_log2 nonzero).mpr quotient

theorem div_in_reach (sign sign' : Sign) (m m' : ℕ) (e e' : ℤ) (positive : 0 < m) (positive' : 0 < m')
    (mantissa : ℕ) (exponent : ℤ) (canonical : Canonical mantissa exponent)
    (reach : InReach mantissa exponent (m / m' * 2 ^ (e - e' - exponent))) :
    UnpackedFloat.div .binary64 (.finite sign m e positive) (.finite sign' m' e' positive') =
      .finite (sign / sign') mantissa exponent canonical.positive := by
  have target : Format.binary64.targetExponent (totalExponent m e - totalExponent m' e') =
      max (m.log2 + e - (m'.log2 + e') - 53) (-1074) := by
    have bits : Format.binary64.mantissaBits = 53 := rfl
    have least : Format.binary64.minExponent = -1074 := rfl
    rw [Format.targetExponent, totalExponent, totalExponent, bits, least]
    omega
  unfold UnpackedFloat.div
  dsimp only
  rw [divCore, target]
  generalize place : min (e - e') (max (m.log2 + e - (m'.log2 + e') - 53) (-1074)) = fine
  generalize moved : (e - e' - fine).toNat = shift
  have described := describes_quotient (m <<< shift) m' positive'
  have enough : fine ≤ max ((m <<< shift / m').log2 + fine - 52) (-1074) := by
    by_cases deep : fine ≤ -1074
    · omega
    · have bits := quotient_bits m m' positive positive' shift (by omega)
      omega
  refine round_in_reach (sign / sign') _ _ fine _ described enough mantissa exponent canonical ?_
  have value : ((m <<< shift : ℕ) : ℚ) / m' * 2 ^ (fine - exponent) = m / m' * 2 ^ (e - e' - exponent) := by
    have places : e - e' - exponent = shift + (fine - exponent) := by omega
    rw [Nat.shiftLeft_eq, places, zpow_add₀ two_ne_zero, zpow_natCast]
    push_cast
    ring
  rwa [value]

end StyleCalc.Double
