import StyleCalc.Proofs.Doubles

set_option autoImplicit false

namespace StyleCalc.Double

open Float.Model Float.Model.UnpackedFloat

theorem log2_half (n : Nat) : (n / 2).log2 = n.log2 - 1 := by
  by_cases small : n < 2
  · have zero : n / 2 = 0 := by omega
    rw [zero, Nat.log2_def n, if_neg (by omega)]
    rfl
  · rw [Nat.log2_def n, if_pos (by omega)]
    omega

theorem log2_succ (n : Nat) : (n + 1).log2 ≤ n.log2 + 1 := by
  have bound : n + 1 < 2 ^ (n.log2 + 1 + 1) := by
    have below : n < 2 ^ (n.log2 + 1) := Nat.lt_log2_self
    rw [Nat.pow_succ]
    omega
  exact Nat.le_of_lt_succ ((Nat.log2_lt (Nat.succ_ne_zero n)).mpr bound)

theorem log2_mul (m n : Nat) : (m * n).log2 ≤ m.log2 + n.log2 + 1 := by
  by_cases zero : m * n = 0
  · rw [zero, Nat.log2_zero]
    omega
  · have bound : m * n < 2 ^ (m.log2 + n.log2 + 1 + 1) := by
      have split : m.log2 + n.log2 + 1 + 1 = (m.log2 + 1) + (n.log2 + 1) := by omega
      rw [split, Nat.pow_add]
      exact Nat.mul_lt_mul'' Nat.lt_log2_self Nat.lt_log2_self
    exact Nat.le_of_lt_succ ((Nat.log2_lt zero).mpr bound)

theorem shift_log2 (em : ExtendedMantissa) (places : Nat) :
    (em >>> places).mantissa.log2 = em.mantissa.log2 - places := by
  induction places with
  | zero => rfl
  | succ places ih =>
      have step : (em >>> (places + 1)).mantissa = (em >>> places).mantissa / 2 := rfl
      rw [step, log2_half, ih]
      omega

theorem rounded_log2 (em : ExtendedMantissa) : em.roundedMantissa.log2 ≤ em.mantissa.log2 + 1 := by
  have bounds : em.roundedMantissa = em.mantissa ∨ em.roundedMantissa = em.mantissa + 1 := by
    obtain ⟨mantissa, round, sticky⟩ := em
    cases round <;> cases sticky <;>
      simp [ExtendedMantissa.roundedMantissa, ExtendedMantissa.accuracy, Accuracy.roundToNearestEven]
    omega
  rcases bounds with same | next
  · rw [same]
    omega
  · rw [next]
    exact log2_succ em.mantissa

theorem shift_to_target (mantissa : Nat) (exponent : Int) :
    (shiftToTargetExponent .binary64 mantissa exponent .exact).1.mantissa.log2 ≤ 52 ∧
      (shiftToTargetExponent .binary64 mantissa exponent .exact).2 ≤
        max (max exponent (mantissa.log2 + exponent - 52)) (-1074) := by
  have target : Format.binary64.targetExponent (totalExponent mantissa exponent) =
      max (mantissa.log2 + exponent - 52) (-1074) := by
    have bits : Format.binary64.mantissaBits = 53 := rfl
    simp only [Format.targetExponent, totalExponent, bits, Format.minExponent]
    omega
  simp only [shiftToTargetExponent, shiftToExponent, target, shift_log2,
    ExtendedMantissa.ofMantissaAndAccuracy]
  omega

inductive Fits (bound : Int) : UnpackedFloat → Prop where
  | zero (sign : Sign) : Fits bound (.zero sign)
  | finite (sign : Sign) (mantissa : Nat) (exponent : Int) (positive : 0 < mantissa)
      (bits : mantissa.log2 ≤ 52) (below : exponent ≤ bound) :
      Fits bound (.finite sign mantissa exponent positive)

theorem round_fits (sign : Sign) (mantissa : Nat) (exponent bound : Int) (below : exponent ≤ bound)
    (small : mantissa.log2 + exponent ≤ bound + 52) (normal : -1074 ≤ bound) :
    Fits (bound + 1) (roundWithAccuracy .binary64 sign mantissa exponent .exact) := by
  have first := shift_to_target mantissa exponent
  rw [roundWithAccuracy]
  generalize shiftToTargetExponent .binary64 mantissa exponent .exact = shifted at first
  obtain ⟨em, raised⟩ := shifted
  have rounded := rounded_log2 em
  have second := shift_to_target em.roundedMantissa raised
  dsimp only at first second ⊢
  generalize shiftToTargetExponent .binary64 em.roundedMantissa raised .exact = last at second
  by_cases nothing : last.1.mantissa = 0
  · rw [dif_pos nothing]
    exact .zero sign
  · rw [dif_neg nothing]
    exact .finite _ _ _ _ (by omega) (by omega)

theorem log2_bits (width : Nat) (bits : BitVec (width + 1)) : bits.toNat.log2 ≤ width := by
  by_cases zero : bits.toNat = 0
  · rw [zero, Nat.log2_zero]
    exact Nat.zero_le width
  · exact Nat.le_of_lt_succ ((Nat.log2_lt zero).mpr bits.isLt)

theorem unpack_bits_fits (bits : BitVec Format.binary64.numBits) (bound : Int)
    (ordinary : unpackExponent bits ≠ -1#11) (below : ((unpackExponent bits).toNat : Int) ≤ bound + 1075)
    (normal : -1074 ≤ bound) : Fits bound (UnpackedFloat.unpack .binary64 bits) := by
  have bias : (Format.binary64.exponentBias : Int) + (52 : Nat) = 1075 := rfl
  unfold UnpackedFloat.unpack
  dsimp only
  rw [if_neg ordinary]
  by_cases least : unpackExponent bits = 0#11
  · have zero : (unpackExponent bits).toNat = 0 := by rw [least]; rfl
    rw [if_pos least]
    by_cases nothing : unpackMantissa bits = 0#52
    · rw [dif_pos nothing]
      exact .zero _
    · rw [dif_neg nothing]
      refine .finite _ _ _ _ ?_ (by omega)
      exact Nat.le_succ_of_le (log2_bits 51 (unpackMantissa bits))
  · rw [if_neg least]
    exact .finite _ _ _ _ (log2_bits 52 (1#1 ++ unpackMantissa bits)) (by omega)

theorem unpack_components_fits (sign : Sign) (exponent : BitVec 11) (mantissa : BitVec 52) (bound : Int)
    (ordinary : exponent ≠ -1#11) (below : (exponent.toNat : Int) ≤ bound + 1075) (normal : -1074 ≤ bound) :
    Fits bound (UnpackedFloat.unpack .binary64 (packComponents .binary64 sign exponent mantissa)) := by
  have kept : unpackExponent (packComponents .binary64 sign exponent mantissa) = exponent :=
    unpackExponent_packComponents
  exact unpack_bits_fits _ bound (by rwa [kept]) (by rwa [kept]) normal

theorem unpack_pack_fits (number : UnpackedFloat) (bound : Int) (fits : Fits bound number)
    (normal : -1074 ≤ bound) (moderate : bound < 900) : Fits bound (pack number).unpack := by
  cases fits with
  | zero sign =>
      rw [unpack_pack_zero]
      exact .zero sign
  | finite sign mantissa exponent positive bits below =>
      change Fits bound (UnpackedFloat.unpack .binary64 (UnpackedFloat.pack .binary64 _))
      have bias : (Format.binary64.exponentBias : Int) = 1023 := rfl
      unfold UnpackedFloat.pack
      dsimp only
      rw [bias]
      generalize place : (exponent + 1023 + (52 : Nat)).toNat = biased
      have low : biased < 2000 := by omega
      have size : (BitVec.ofNat 11 biased).toNat = biased := by
        rw [BitVec.toNat_ofNat]
        omega
      rw [if_neg (by omega)]
      split
      · refine unpack_components_fits sign _ _ bound ?_ ?_ normal
        · intro full
          rw [full] at size
          have most : (-1#11).toNat = 2047 := rfl
          omega
        · rw [size]
          omega
      · refine unpack_components_fits sign _ _ bound (by decide) ?_ normal
        have zero : (0#11).toNat = 0 := rfl
        rw [zero]
        omega

theorem fits_finite (x : Float) (bound : Int) (fits : Fits bound x.toModel.unpack) : Scalar.isFinite x := by
  change x.toModel.unpack.isFinite
  generalize x.toModel.unpack = number at fits
  cases fits <;> rfl

theorem mul_finite_fits (sign sign' : Sign) (mantissa mantissa' : Nat) (exponent exponent' bound : Int)
    (positive : 0 < mantissa) (positive' : 0 < mantissa') (below : exponent + exponent' ≤ bound)
    (small : (mantissa.log2 + mantissa'.log2 : Int) + (exponent + exponent') ≤ bound + 51)
    (normal : -1074 ≤ bound) :
    Fits (bound + 1) (UnpackedFloat.mul .binary64 (.finite sign mantissa exponent positive)
      (.finite sign' mantissa' exponent' positive')) := by
  have product := log2_mul mantissa mantissa'
  exact round_fits _ _ _ bound below (by omega) normal

theorem mul_fits (x y : UnpackedFloat) (bound other : Int) (left : Fits bound x) (right : Fits other y)
    (normal : -1074 ≤ bound + other) : Fits (bound + other + 54) (UnpackedFloat.mul .binary64 x y) := by
  cases left with
  | zero sign => cases right <;> exact .zero _
  | finite sign mantissa exponent positive bits below =>
      cases right with
      | zero sign => exact .zero _
      | finite sign' mantissa' exponent' positive' bits' below' =>
          have room : bound + other + 54 = (bound + other + 53) + 1 := by omega
          rw [room]
          exact mul_finite_fits _ _ _ _ _ _ _ _ _ (by omega) (by omega) (by omega)

theorem log2_shift_left (n places : Nat) : (n <<< places).log2 ≤ n.log2 + places + 1 := by
  have product := log2_mul n (2 ^ places)
  rw [Nat.log2_two_pow] at product
  rw [Nat.shiftLeft_eq]
  exact product

theorem nat_fits (n : Nat) (bits : n.log2 ≤ 64) : Fits 65 (UnpackedFloat.ofNat .binary64 n) := by
  rw [UnpackedFloat.ofNat, UnpackedFloat.ofInt, UnpackedFloat.normalize]
  split
  · rename_i negative
    have impossible : (n : Int) < 0 := by simpa [Int.compare_eq_lt] using negative
    omega
  · exact .zero .positive
  · rw [UnpackedFloat.round, decreaseExponent]
    dsimp only
    generalize ((0 : Int) - _).toNat = places
    have shifted := log2_shift_left (Int.toNat n) places
    rw [Int.toNat_natCast] at shifted ⊢
    exact round_fits _ _ _ 64 (by omega) (by omega) (by omega)

theorem one_fits : Fits 0 (Float.ofBits 0x3FF0000000000000).toModel.unpack :=
  .finite .positive 4503599627370496 (-52) (by decide) (by decide) (by decide)

theorem scientific_fits (n : Nat) (bits : n.log2 ≤ 64) :
    Fits 119 (UnpackedFloat.ofScientific .binary64 n 0) := by
  have range : (0 : Int) < 2 ^ Format.binary64.exponentBits := by decide
  rw [UnpackedFloat.ofScientific]
  by_cases zero : n = 0
  · rw [dif_pos zero]
    exact .zero .positive
  · have shifted := log2_shift_left n Format.binary64.mantissaBits
    have places : Format.binary64.mantissaBits = 53 := rfl
    have one : (10 ^ (0 : Int).toNat).log2 = 0 := by decide
    rw [dif_neg zero, if_neg (by omega), if_neg (by omega), if_pos (by decide)]
    exact mul_finite_fits _ _ _ _ _ _ 118 _ _ (by omega) (by omega) (by decide)

theorem index_finite (n : Nat) (bits : n < UInt64.size) : Scalar.isFinite (Scalar.ofNat n : Float) := by
  have log : n.log2 ≤ 64 := by
    by_cases zero : n = 0
    · rw [zero, Nat.log2_zero]
      omega
    · exact Nat.le_of_lt ((Nat.log2_lt zero).mpr bits)
  change Scalar.isFinite (Float.ofScientific n false 0)
  rw [Float.ofScientific]
  split
  · have whole : Fits 65 n.toUInt64.toFloat.toModel.unpack := by
      change Fits 65 (pack (UnpackedFloat.ofNat .binary64 n.toUInt64.toNat)).unpack
      have same : n.toUInt64.toNat = n := UInt64.toNat_ofNat_of_lt' bits
      rw [same]
      exact unpack_pack_fits _ 65 (nat_fits n log) (by decide) (by decide)
    apply fits_finite _ 119
    exact unpack_pack_fits _ 119 (mul_fits _ _ 65 0 whole one_fits (by decide)) (by decide) (by decide)
  · apply fits_finite _ 119
    exact unpack_pack_fits _ 119 (scientific_fits n log) (by decide) (by decide)

end StyleCalc.Double
