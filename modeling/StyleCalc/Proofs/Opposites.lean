import StyleCalc.Calc
import StyleCalc.Proofs.Readback

set_option autoImplicit false

namespace StyleCalc.Double

open Float.Model Float.Model.UnpackedFloat

inductive Unpacked : UnpackedFloat → Prop where
  | notANumber : Unpacked .notANumber
  | infinity (sign : Sign) : Unpacked (.infinity sign)
  | zero (sign : Sign) : Unpacked (.zero sign)
  | finite (sign : Sign) (mantissa : ℕ) (exponent : ℤ) (canonical : Canonical mantissa exponent)
      (most : exponent ≤ 971) : Unpacked (.finite sign mantissa exponent canonical.positive)

theorem unpacked (x : Float) : Unpacked x.toModel.unpack := by
  cases form : x.toModel.unpack with
  | notANumber => exact .notANumber
  | infinity sign => exact .infinity sign
  | zero sign => exact .zero sign
  | finite sign mantissa exponent positive =>
      have finite : Scalar.isFinite x := by
        change x.toModel.unpack.isFinite
        rw [form]
        rfl
      obtain ⟨_, zero, nonzero⟩ := fields_form x finite _ _ _ rfl
      by_cases nothing : (fields x).2.1 = 0 ∧ (fields x).2.2 = 0
      · cases form.symm.trans (zero nothing)
      · obtain ⟨number, most, same⟩ := nonzero nothing
        rw [← form, same]
        exact .finite _ _ _ number.canonical most

theorem unpack_pack_unpacked (u : UnpackedFloat) (form : Unpacked u) : (pack u).unpack = u := by
  cases form with
  | notANumber => exact unpack_pack_none
  | infinity sign => cases sign <;> rfl
  | zero sign => exact unpack_pack_zero sign
  | finite sign mantissa exponent canonical most => exact unpack_pack_canonical sign mantissa exponent canonical most

theorem unpacked_neg (u : UnpackedFloat) (form : Unpacked u) : Unpacked u.neg := by
  cases form with
  | notANumber => exact .notANumber
  | infinity sign => exact .infinity (-sign)
  | zero sign => exact .zero (-sign)
  | finite sign mantissa exponent canonical most => exact .finite (-sign) mantissa exponent canonical most

theorem unpack_opposite (x : Float) : (-x).toModel.unpack = x.toModel.unpack.neg := by
  rw [unpack_neg]
  exact unpack_pack_unpacked _ (unpacked_neg _ (unpacked x))

theorem unpacked_add_comm (u v : UnpackedFloat) :
    UnpackedFloat.add .binary64 u v = UnpackedFloat.add .binary64 v u := by
  cases u with
  | notANumber => cases v <;> rfl
  | infinity s =>
      cases v with
      | infinity t => cases s <;> cases t <;> rfl
      | _ => rfl
  | zero s =>
      cases v with
      | zero t => cases s <;> cases t <;> rfl
      | _ => rfl
  | finite s m e positive =>
      cases v with
      | finite t n f positive' =>
          change UnpackedFloat.normalize .binary64
              (s.apply (m <<< (e - min e f).toNat) + t.apply (n <<< (f - min e f).toNat)) (min e f) .positive =
            UnpackedFloat.normalize .binary64
              (t.apply (n <<< (f - min f e).toNat) + s.apply (m <<< (e - min f e).toNat)) (min f e) .positive
          rw [Int.min_comm f e, Int.add_comm]
      | _ => rfl

theorem unpacked_mul_comm (u v : UnpackedFloat) :
    UnpackedFloat.mul .binary64 u v = UnpackedFloat.mul .binary64 v u := by
  have signs (s t : Sign) : s * t = t * s := by cases s <;> cases t <;> rfl
  cases u with
  | notANumber => cases v <;> rfl
  | infinity s =>
      cases v with
      | infinity t => exact congrArg UnpackedFloat.infinity (signs s t)
      | finite t n f positive => exact congrArg UnpackedFloat.infinity (signs s t)
      | _ => rfl
  | zero s =>
      cases v with
      | zero t => exact congrArg UnpackedFloat.zero (signs s t)
      | finite t n f positive => exact congrArg UnpackedFloat.zero (signs s t)
      | _ => rfl
  | finite s m e positive =>
      cases v with
      | notANumber => rfl
      | infinity t => exact congrArg UnpackedFloat.infinity (signs s t)
      | zero t => exact congrArg UnpackedFloat.zero (signs s t)
      | finite t n f positive' =>
          change roundWithAccuracy .binary64 (s * t) (m * n) (e + f) .exact =
            roundWithAccuracy .binary64 (t * s) (n * m) (f + e) .exact
          rw [signs s t, Nat.mul_comm m n, Int.add_comm e f]

theorem mul_swapped (x y : Float) : x * y = y * x :=
  congrArg (fun u => Float.ofModel (pack u)) (unpacked_mul_comm x.toModel.unpack y.toModel.unpack)

theorem unpacked_unit_mul (sign : Sign) (positive : 0 < 2 ^ 52) (u : UnpackedFloat) (form : Unpacked u) :
    UnpackedFloat.mul .binary64 (.finite sign (2 ^ 52) (-52) positive) u =
      match sign with
      | .negative => u.neg
      | .positive => u := by
  cases form with
  | notANumber => cases sign <;> rfl
  | infinity s => cases sign <;> cases s <;> rfl
  | zero s => cases sign <;> cases s <;> rfl
  | finite s m e canonical most =>
      have long : 52 ≤ (2 ^ 52 * m).log2 := by
        have size : 0 < m := canonical.positive
        exact (Nat.le_log2 (by omega)).mpr (by omega)
      have reach : InReach m e ((2 ^ 52 : ℕ) * m * 2 ^ (-52 + e - e)) := by
        have unit : ((2 ^ 52 : ℕ) : ℚ) * 2 ^ (-52 : ℤ) = 1 := by norm_num
        rw [add_sub_cancel_right, mul_right_comm, unit, one_mul]
        exact reach_self m e
      rw [mul_in_reach sign s _ _ _ _ positive canonical.positive long m e canonical reach]
      cases sign <;> cases s <;> rfl

theorem unpack_add_sign (x : Float) : (SumOp.add.sign * x).toModel.unpack = x.toModel.unpack := by
  have one : (SumOp.add.sign : Float).toModel.unpack = .finite .positive (2 ^ 52) (-52) (by decide) := rfl
  rw [unpack_mul, one, unpacked_unit_mul .positive _ _ (unpacked x)]
  exact unpack_pack_unpacked _ (unpacked x)

theorem unpack_sub_sign (x : Float) : (SumOp.sub.sign * x).toModel.unpack = x.toModel.unpack.neg := by
  have one : (SumOp.sub.sign : Float).toModel.unpack = .finite .negative (2 ^ 52) (-52) (by decide) := rfl
  rw [unpack_mul, one, unpacked_unit_mul .negative _ _ (unpacked x)]
  exact unpack_pack_unpacked _ (unpacked_neg _ (unpacked x))

theorem signed_sum_swapped (x y : Float) : x + SumOp.add.sign * y = y + SumOp.add.sign * x := by
  change Float.ofModel (pack (UnpackedFloat.add .binary64 x.toModel.unpack (SumOp.add.sign * y).toModel.unpack)) =
    Float.ofModel (pack (UnpackedFloat.add .binary64 y.toModel.unpack (SumOp.add.sign * x).toModel.unpack))
  rw [unpack_add_sign, unpack_add_sign, unpacked_add_comm]

/-- A number and its negation. Zeros are opposite whatever their signs are. -/
inductive Opposite : UnpackedFloat → UnpackedFloat → Prop where
  | negated (u : UnpackedFloat) : Opposite u u.neg
  | zeros (sign sign' : Sign) : Opposite (.zero sign) (.zero sign')

theorem round_negated (sign : Sign) (mantissa : ℕ) (exponent : ℤ) :
    round .binary64 (-sign) mantissa exponent = (round .binary64 sign mantissa exponent).neg := by
  unfold UnpackedFloat.round roundWithAccuracy
  dsimp only
  generalize shiftToTargetExponent .binary64 _ _ .exact = last
  by_cases nothing : last.1.mantissa = 0
  · rw [dif_pos nothing, dif_pos nothing]
    rfl
  · rw [dif_neg nothing, dif_neg nothing]
    rfl

theorem round_opposite (sign : Sign) (mantissa : ℕ) (exponent : ℤ) :
    Opposite (round .binary64 sign mantissa exponent) (round .binary64 (-sign) mantissa exponent) := by
  rw [round_negated]
  exact .negated _

theorem normalize_opposite (m : ℤ) (exponent : ℤ) :
    Opposite (UnpackedFloat.normalize .binary64 m exponent .positive)
      (UnpackedFloat.normalize .binary64 (-m) exponent .positive) := by
  unfold UnpackedFloat.normalize
  obtain below | rfl | above := lt_trichotomy m 0
  · have order : compare m 0 = .lt := Int.compare_eq_lt.mpr below
    have order' : compare (-m) 0 = .gt := Int.compare_eq_gt.mpr (by omega)
    rw [order, order']
    exact round_opposite .negative (-m).toNat exponent
  · exact .zeros .positive .positive
  · have order : compare m 0 = .gt := Int.compare_eq_gt.mpr above
    have order' : compare (-m) 0 = .lt := Int.compare_eq_lt.mpr (by omega)
    rw [order, order', neg_neg]
    exact round_opposite .positive m.toNat exponent

theorem apply_negated (sign : Sign) (n : ℤ) : (-sign).apply n = -sign.apply n := by
  cases sign with
  | negative => exact (neg_neg n).symm
  | positive => rfl

theorem add_opposite (u v : UnpackedFloat) :
    Opposite (UnpackedFloat.add .binary64 u v) (UnpackedFloat.add .binary64 u.neg v.neg) := by
  cases u with
  | notANumber => cases v <;> exact .negated .notANumber
  | infinity s =>
      cases v with
      | infinity t => cases s <;> cases t <;> exact .negated _
      | notANumber => exact .negated .notANumber
      | _ => exact .negated (.infinity s)
  | zero s =>
      cases v with
      | notANumber => exact .negated .notANumber
      | infinity t => exact .negated (.infinity t)
      | zero t =>
          cases s <;> cases t <;> exact .zeros _ _
      | finite t n f positive => exact .negated (.finite t n f positive)
  | finite s m e positive =>
      cases v with
      | notANumber => exact .negated .notANumber
      | infinity t => exact .negated (.infinity t)
      | zero t => exact .negated (.finite s m e positive)
      | finite t n f positive' =>
          change Opposite
            (UnpackedFloat.normalize .binary64
              (s.apply (m <<< (e - min e f).toNat) + t.apply (n <<< (f - min e f).toNat)) (min e f) .positive)
            (UnpackedFloat.normalize .binary64
              ((-s).apply (m <<< (e - min e f).toNat) + (-t).apply (n <<< (f - min e f).toNat)) (min e f)
              .positive)
          rw [apply_negated, apply_negated, ← neg_add]
          exact normalize_opposite _ _

theorem unpack_negated (b b' : BitVec Format.binary64.numBits) (exponent : unpackExponent b' = unpackExponent b)
    (mantissa : unpackMantissa b' = unpackMantissa b)
    (sign : Sign.ofBitVec (unpackSign b') = -Sign.ofBitVec (unpackSign b)) :
    UnpackedFloat.unpack .binary64 b' = (UnpackedFloat.unpack .binary64 b).neg := by
  unfold UnpackedFloat.unpack
  dsimp only
  by_cases full : unpackExponent b = -1#11
  · rw [if_pos full, if_pos (exponent.trans full)]
    by_cases nothing : unpackMantissa b = 0#52
    · rw [if_pos nothing, if_pos (mantissa.trans nothing), sign]
      rfl
    · rw [if_neg nothing, if_neg (mantissa ▸ nothing)]
      rfl
  · rw [if_neg full, if_neg (exponent ▸ full)]
    by_cases least : unpackExponent b = 0#11
    · rw [if_pos least, if_pos (exponent.trans least)]
      by_cases nothing : unpackMantissa b = 0#52
      · rw [dif_pos nothing, dif_pos (mantissa.trans nothing), sign]
        rfl
      · rw [dif_neg nothing, dif_neg (mantissa ▸ nothing)]
        exact (finite.injEq ..).mpr ⟨sign, by rw [mantissa], by rw [exponent]⟩
    · rw [if_neg least, if_neg (exponent ▸ least)]
      exact (finite.injEq ..).mpr ⟨sign, by rw [mantissa], by rw [exponent]⟩

theorem unpack_components_negated (sign : Sign) (exponent : BitVec 11) (bits : BitVec 52) :
    UnpackedFloat.unpack .binary64 (packComponents .binary64 (-sign) exponent bits) =
      (UnpackedFloat.unpack .binary64 (packComponents .binary64 sign exponent bits)).neg := by
  apply unpack_negated
  · rw [exponent_components, exponent_components]
  · rw [mantissa_components, mantissa_components]
  · rw [sign_components, sign_components]

theorem unpack_pack_negated (u : UnpackedFloat) : (pack u.neg).unpack = (pack u).unpack.neg := by
  cases u with
  | notANumber => rfl
  | infinity sign => exact unpack_components_negated sign _ _
  | zero sign => exact unpack_components_negated sign _ _
  | finite sign mantissa exponent positive =>
      change UnpackedFloat.unpack .binary64
          (UnpackedFloat.pack .binary64 (.finite (-sign) mantissa exponent positive)) =
        (UnpackedFloat.unpack .binary64 (UnpackedFloat.pack .binary64 (.finite sign mantissa exponent positive))).neg
      unfold UnpackedFloat.pack
      dsimp only
      by_cases large : 2 ^ Format.binary64.exponentBits ≤
          (exponent + Format.binary64.exponentBias + Format.binary64.mantissaBitsWithoutImplicit).toNat + 1
      · rw [if_pos large, if_pos large]
        exact unpack_components_negated sign _ _
      · rw [if_neg large, if_neg large]
        by_cases normal : mantissa.log2 + 1 = Format.binary64.mantissaBits
        · rw [if_pos normal, if_pos normal]
          exact unpack_components_negated sign _ _
        · rw [if_neg normal, if_neg normal]
          exact unpack_components_negated sign _ _

theorem pack_opposite (u v : UnpackedFloat) (opposite : Opposite u v) : Opposite (pack u).unpack (pack v).unpack := by
  cases opposite with
  | negated =>
      rw [unpack_pack_negated]
      exact .negated _
  | zeros sign sign' =>
      rw [unpack_pack_zero, unpack_pack_zero]
      exact .zeros sign sign'

theorem opposite_finite (u v : UnpackedFloat) (opposite : Opposite u v) : u.isFinite = v.isFinite := by
  cases opposite with
  | negated => cases u <;> rfl
  | zeros sign sign' => rfl

theorem opposite_beq (x y : Float) (opposite : Opposite x.toModel.unpack y.toModel.unpack)
    (finite : Scalar.isFinite x) : y == -x := by
  have negation := unpack_opposite x
  generalize form : x.toModel.unpack = u at opposite negation
  generalize form' : y.toModel.unpack = v at opposite
  cases opposite with
  | negated =>
      refine beq_of_unpack y (-x) ?_ (form'.trans negation.symm)
      change (-x).toModel.unpack.isFinite
      change x.toModel.unpack.isFinite at finite
      rw [negation, ← opposite_finite u u.neg (.negated u), ← form]
      exact finite
  | zeros sign sign' => exact beq_zeros y (-x) sign' (-sign) form' negation

theorem unpacked_neg_neg (u : UnpackedFloat) : u.neg.neg = u := by
  have twice (sign : Sign) : - -sign = sign := by cases sign <;> rfl
  cases u with
  | notANumber => rfl
  | infinity sign => exact congrArg UnpackedFloat.infinity (twice sign)
  | zero sign => exact congrArg UnpackedFloat.zero (twice sign)
  | finite sign mantissa exponent positive =>
      exact congrArg (UnpackedFloat.finite · mantissa exponent positive) (twice sign)

theorem differences_opposite (x y : Float) :
    Opposite (x + SumOp.sub.sign * y).toModel.unpack (y + SumOp.sub.sign * x).toModel.unpack := by
  have swapped := add_opposite x.toModel.unpack y.toModel.unpack.neg
  rw [unpacked_neg_neg, unpacked_add_comm x.toModel.unpack.neg] at swapped
  rw [unpack_add, unpack_add, unpack_sub_sign, unpack_sub_sign]
  exact pack_opposite _ _ swapped

end StyleCalc.Double
