import StyleCalc.Proofs.Nearest
import StyleCalc.Proofs.Rounding

set_option autoImplicit false

namespace StyleCalc.Double

open Float.Model Float.Model.UnpackedFloat

theorem leading_bit (bits : BitVec 52) : (1#1 ++ bits).toNat = 2 ^ 52 + bits.toNat := by
  have shifted : (1#1).toNat <<< 52 = 2 ^ 52 := rfl
  rw [BitVec.toNat_append, shifted, ← mul_one (2 ^ 52), Nat.two_pow_add_eq_or_of_lt bits.isLt 1]

theorem unpack_normal (b : BitVec Format.binary64.numBits) (ordinary : unpackExponent b ≠ -1#11)
    (normal : unpackExponent b ≠ 0#11) (mantissa : ℕ) (exponent : ℤ) (positive : 0 < mantissa)
    (whole : 2 ^ 52 + (unpackMantissa b).toNat = mantissa)
    (place : ((unpackExponent b).toNat : ℤ) - 1075 = exponent) :
    UnpackedFloat.unpack .binary64 b = .finite (Sign.ofBitVec (unpackSign b)) mantissa exponent positive := by
  have leading := (leading_bit (unpackMantissa b)).trans whole
  have bias : (Format.binary64.exponentBias : ℤ) + (52 : ℕ) = 1075 := rfl
  unfold UnpackedFloat.unpack
  dsimp only
  rw [if_neg ordinary, if_neg normal, finite.injEq]
  exact ⟨rfl, leading, by rw [bias]; exact place⟩

theorem unpack_subnormal (b : BitVec Format.binary64.numBits) (least : unpackExponent b = 0#11)
    (positive : 0 < (unpackMantissa b).toNat) :
    UnpackedFloat.unpack .binary64 b =
      .finite (Sign.ofBitVec (unpackSign b)) (unpackMantissa b).toNat (-1074) positive := by
  have ordinary : unpackExponent b ≠ -1#11 := by
    rw [least]
    decide
  have nonzero : unpackMantissa b ≠ 0#52 := by
    intro zero
    rw [zero] at positive
    exact absurd positive (by decide)
  have place : ((unpackExponent b).toNat : ℤ) - (Format.binary64.exponentBias + (52 : ℕ)) + 1 = -1074 := by
    rw [least]
    rfl
  unfold UnpackedFloat.unpack
  dsimp only
  rw [if_neg ordinary, if_pos least, dif_neg nonzero, finite.injEq]
  exact ⟨rfl, rfl, place⟩

section

variable (sign : Sign) (exponent : BitVec 11) (bits : BitVec 52)

theorem exponent_components :
    unpackExponent (packComponents .binary64 sign exponent bits) = exponent :=
  unpackExponent_packComponents

theorem mantissa_components :
    unpackMantissa (packComponents .binary64 sign exponent bits) = bits :=
  unpackMantissa_packComponents

theorem sign_components :
    Sign.ofBitVec (unpackSign (packComponents .binary64 sign exponent bits)) = sign := by
  have same : unpackSign (packComponents .binary64 sign exponent bits) = sign.toBitVec := by
    change (sign.toBitVec ++ exponent ++ bits).extractLsb' 63 1 = sign.toBitVec
    rw [BitVec.extractLsb'_append_eq_of_le (by decide), BitVec.extractLsb'_append_eq_of_le (by decide)]
    exact BitVec.extractLsb'_eq_self
  rw [same]
  cases sign <;> rfl

end

theorem pack_normal (sign : Sign) (mantissa : ℕ) (exponent : ℤ) (positive : 0 < mantissa)
    (large : 2 ^ 52 ≤ mantissa) (bits : mantissa < 2 ^ 53) (least : -1074 ≤ exponent) (most : exponent ≤ 971) :
    UnpackedFloat.pack .binary64 (.finite sign mantissa exponent positive) =
      packComponents .binary64 sign (BitVec.ofNat 11 (exponent + 1075).toNat) (BitVec.ofNat 52 mantissa) := by
  have log : mantissa.log2 + 1 = 53 := by
    have enough : 52 ≤ mantissa.log2 := (Nat.le_log2 positive.ne').mpr large
    have few : mantissa.log2 < 53 := (Nat.log2_lt positive.ne').mpr bits
    omega
  have biased : (exponent + (1023 : ℕ) + (52 : ℕ)).toNat = (exponent + 1075).toNat := by
    congr 1
    omega
  change (if 2 ^ 11 ≤ (exponent + (1023 : ℕ) + (52 : ℕ)).toNat + 1 then _ else
    if mantissa.log2 + 1 = 53 then _ else _) = _
  rw [biased, if_neg (by omega), if_pos log]
  exact congrArg (fun n => packComponents .binary64 sign (BitVec.ofNat 11 n) (BitVec.ofNat 52 mantissa)) biased

theorem pack_subnormal (sign : Sign) (mantissa : ℕ) (positive : 0 < mantissa) (small : mantissa < 2 ^ 52) :
    UnpackedFloat.pack .binary64 (.finite sign mantissa (-1074) positive) =
      packComponents .binary64 sign 0#11 (BitVec.ofNat 52 mantissa) := by
  have log : ¬ mantissa.log2 + 1 = 53 := by
    have few : mantissa.log2 < 52 := (Nat.log2_lt positive.ne').mpr small
    omega
  exact if_neg log

theorem unpack_pack_canonical (sign : Sign) (mantissa : ℕ) (exponent : ℤ) (canonical : Canonical mantissa exponent)
    (most : exponent ≤ 971) :
    (pack (.finite sign mantissa exponent canonical.positive)).unpack =
      .finite sign mantissa exponent canonical.positive := by
  obtain ⟨positive, bits, least, _⟩ := canonical
  change UnpackedFloat.unpack .binary64 (UnpackedFloat.pack .binary64 _) = _
  by_cases large : 2 ^ 52 ≤ mantissa
  · have size : (BitVec.ofNat 11 (exponent + 1075).toNat).toNat = (exponent + 1075).toNat := by
      rw [BitVec.toNat_ofNat]
      omega
    have rest : (BitVec.ofNat 52 mantissa).toNat = mantissa - 2 ^ 52 := by
      rw [BitVec.toNat_ofNat]
      omega
    have ordinary : BitVec.ofNat 11 (exponent + 1075).toNat ≠ -1#11 := by
      intro full
      have value := congrArg BitVec.toNat full
      rw [size] at value
      change _ = 2047 at value
      omega
    have normal : BitVec.ofNat 11 (exponent + 1075).toNat ≠ 0#11 := by
      intro none
      have value := congrArg BitVec.toNat none
      rw [size] at value
      change _ = 0 at value
      omega
    rw [pack_normal sign mantissa exponent positive large bits least most]
    have form := unpack_normal (packComponents .binary64 sign (BitVec.ofNat 11 (exponent + 1075).toNat)
      (BitVec.ofNat 52 mantissa))
    rw [exponent_components, mantissa_components, sign_components] at form
    exact form ordinary normal mantissa exponent positive (by rw [rest]; omega) (by rw [size]; omega)
  · obtain rfl : exponent = -1074 := by omega
    have same : (unpackMantissa (packComponents .binary64 sign 0#11 (BitVec.ofNat 52 mantissa))).toNat = mantissa := by
      rw [mantissa_components]
      exact Nat.mod_eq_of_lt (by omega)
    rw [pack_subnormal sign mantissa positive (by omega),
      unpack_subnormal _ (exponent_components sign 0#11 _) (by rwa [same]), finite.injEq]
    exact ⟨sign_components sign 0#11 _, same, rfl⟩

theorem power_of_ten_positive (places : ℕ) : 0 < 10 ^ places :=
  Nat.pow_pos (by decide)

theorem scaled_up_in_reach (m places : ℕ) (positive : 0 < m) (shifted : 0 < m <<< 53) (mantissa : ℕ) (exponent : ℤ)
    (canonical : Canonical mantissa exponent) (reach : InReach mantissa exponent (m * 10 ^ places * 2 ^ (-exponent))) :
    UnpackedFloat.mul .binary64 (.finite .positive (m <<< 53) (-53) shifted)
        (.finite .positive (10 ^ places) 0 (power_of_ten_positive places)) =
      .finite .positive mantissa exponent canonical.positive := by
  have power := power_of_ten_positive places
  have long : 52 ≤ (m <<< 53 * 10 ^ places).log2 := by
    refine (Nat.le_log2 (Nat.mul_pos shifted power).ne').mpr ?_
    rw [Nat.shiftLeft_eq]
    calc 2 ^ 52 ≤ 1 * 2 ^ 53 * 1 := by decide
      _ ≤ m * 2 ^ 53 * 10 ^ places := Nat.mul_le_mul (Nat.mul_le_mul_right _ positive) power
  refine mul_in_reach .positive .positive (m <<< 53) (10 ^ places) (-53) 0 shifted power long mantissa exponent
    canonical ?_
  have value : ((m <<< 53 : ℕ) : ℚ) * (10 ^ places : ℕ) * 2 ^ (-53 + 0 - exponent) =
      m * 10 ^ places * 2 ^ (-exponent) := by
    rw [Nat.shiftLeft_eq, add_zero, sub_eq_add_neg, zpow_add₀ two_ne_zero]
    push_cast
    norm_num
    ring
  rwa [value]

theorem scaled_down_in_reach (m places : ℕ) (positive : 0 < m) (mantissa : ℕ) (exponent : ℤ)
    (canonical : Canonical mantissa exponent) (reach : InReach mantissa exponent (m / 10 ^ places * 2 ^ (-exponent))) :
    UnpackedFloat.div .binary64 (.finite .positive m 0 positive)
        (.finite .positive (10 ^ places) 0 (power_of_ten_positive places)) =
      .finite .positive mantissa exponent canonical.positive := by
  refine div_in_reach .positive .positive m (10 ^ places) 0 0 positive _ mantissa exponent canonical ?_
  rw [sub_zero, zero_sub]
  push_cast
  exact reach

theorem scientific_in_reach (m : ℕ) (e : ℤ) (positive : 0 < m) (least : -2048 ≤ e) (most : e ≤ 2048)
    (mantissa : ℕ) (exponent : ℤ) (canonical : Canonical mantissa exponent)
    (reach : InReach mantissa exponent (m * 10 ^ e * 2 ^ (-exponent))) :
    UnpackedFloat.ofScientific .binary64 m e = .finite .positive mantissa exponent canonical.positive := by
  have range : (2 : ℤ) ^ Format.binary64.exponentBits = 2048 := rfl
  rw [UnpackedFloat.ofScientific, dif_neg positive.ne', range, if_neg (by omega), if_neg (by omega)]
  by_cases whole : 0 ≤ e
  · have power : (10 : ℚ) ^ e = 10 ^ e.toNat := by
      rw [← zpow_natCast, Int.toNat_of_nonneg whole]
    rw [power] at reach
    rw [if_pos whole]
    exact scaled_up_in_reach m e.toNat positive _ mantissa exponent canonical reach
  · have power : (10 : ℚ) ^ e = (10 ^ (-e).toNat)⁻¹ := by
      rw [← zpow_natCast, Int.toNat_of_nonneg (by omega), zpow_neg, inv_inv]
    rw [power, ← div_eq_mul_inv] at reach
    rw [if_neg whole]
    exact scaled_down_in_reach m (-e).toNat positive mantissa exponent canonical reach

def Exact (u : UnpackedFloat) (x : ℚ) : Prop :=
  ∃ mantissa exponent, ∃ positive : 0 < mantissa, 2 ^ 52 ≤ mantissa ∧
    u = .finite .positive mantissa exponent positive ∧ (mantissa : ℚ) * 2 ^ exponent = x

theorem full_length (m : ℕ) (positive : 0 < m) (small : m < 2 ^ 53) :
    2 ^ 52 ≤ m <<< (52 - m.log2) ∧ Canonical (m <<< (52 - m.log2)) (m.log2 - 52) := by
  have few : m.log2 < 53 := (Nat.log2_lt positive.ne').mpr small
  have power (n : ℕ) (more : m.log2 ≤ n) (most : n ≤ m.log2 + 1) :
      (2 : ℕ) ^ (52 + (n - m.log2)) = 2 ^ n * 2 ^ (52 - m.log2) := by
    rw [← pow_add]
    congr 1
    omega
  have large : 2 ^ 52 ≤ m <<< (52 - m.log2) := by
    have split := power m.log2 le_rfl (by omega)
    rw [Nat.sub_self] at split
    rw [Nat.shiftLeft_eq, split]
    exact Nat.mul_le_mul_right _ (Nat.log2_self_le positive.ne')
  have bits : m <<< (52 - m.log2) < 2 ^ 53 := by
    have split := power (m.log2 + 1) (by omega) le_rfl
    rw [Nat.add_sub_cancel_left] at split
    rw [Nat.shiftLeft_eq, split]
    exact Nat.mul_lt_mul_of_pos_right Nat.lt_log2_self (Nat.two_pow_pos _)
  exact ⟨large, lt_of_lt_of_le (by decide) large, bits, by omega, .inl large⟩

theorem full_length_value (m : ℕ) (few : m.log2 < 53) :
    ((m <<< (52 - m.log2) : ℕ) : ℚ) * 2 ^ ((m.log2 : ℤ) - 52) = m := by
  have scale : (2 : ℚ) ^ (52 - m.log2) * 2 ^ ((m.log2 : ℤ) - 52) = 1 := by
    rw [← zpow_natCast, ← zpow_add₀ two_ne_zero]
    have none : ((52 - m.log2 : ℕ) : ℤ) + (m.log2 - 52) = 0 := by omega
    rw [none, zpow_zero]
  rw [Nat.shiftLeft_eq]
  push_cast
  rw [mul_assoc, scale, mul_one]

theorem reach_self (mantissa : ℕ) (exponent : ℤ) : InReach mantissa exponent mantissa :=
  ⟨⟨by linarith, by linarith, by rintro (half | half) <;> linarith⟩, fun _ _ => by linarith⟩

theorem of_nat_full_length (m : ℕ) (positive : 0 < m) (few : m.log2 < 53)
    (canonical : Canonical (m <<< (52 - m.log2)) (m.log2 - 52)) :
    UnpackedFloat.ofNat .binary64 m = .finite .positive (m <<< (52 - m.log2)) (m.log2 - 52) canonical.positive := by
  have order : compare (m : ℤ) 0 = .gt := by
    rw [Int.compare_eq_gt]
    omega
  have target : Format.binary64.targetExponent (totalExponent m 0) = (m.log2 : ℤ) - 52 := by
    have bits : Format.binary64.mantissaBits = 53 := rfl
    have least : Format.binary64.minExponent = -1074 := rfl
    rw [Format.targetExponent, totalExponent, bits, least]
    omega
  have places : (0 - ((m.log2 : ℤ) - 52)).toNat = 52 - m.log2 := by omega
  have place : (0 : ℤ) - (52 - m.log2 : ℕ) = (m.log2 : ℤ) - 52 := by omega
  rw [UnpackedFloat.ofNat, UnpackedFloat.ofInt, UnpackedFloat.normalize, order]
  dsimp only
  rw [Int.toNat_natCast, UnpackedFloat.round, target, decreaseExponent, places]
  dsimp only
  rw [place]
  refine round_in_reach .positive .exact _ _ _ rfl ?_ _ _ canonical ?_
  · rw [canonical_log2 _ _ canonical]
  · rw [sub_self, zpow_zero, mul_one]
    exact reach_self _ _

theorem whole_exact (m : ℕ) (positive : 0 < m) (small : m < 2 ^ 53) :
    Exact (pack (UnpackedFloat.ofNat .binary64 m)).unpack m := by
  have few : m.log2 < 53 := (Nat.log2_lt positive.ne').mpr small
  obtain ⟨large, canonical⟩ := full_length m positive small
  refine ⟨_, _, canonical.positive, large, ?_, full_length_value m few⟩
  rw [of_nat_full_length m positive few canonical]
  exact unpack_pack_canonical .positive _ _ canonical (by omega)

def isExactly (u : UnpackedFloat) (n : ℕ) : Bool :=
  match u with
  | .finite .positive mantissa exponent _ =>
      2 ^ 52 ≤ mantissa && mantissa * 2 ^ exponent.toNat = n * 2 ^ (-exponent).toNat
  | _ => false

theorem exact_of_check (u : UnpackedFloat) (n : ℕ) (checked : isExactly u n) : Exact u n := by
  cases u with
  | finite sign mantissa exponent positive =>
      cases sign with
      | negative => cases checked
      | positive =>
          change decide (2 ^ 52 ≤ mantissa) &&
            decide (mantissa * 2 ^ exponent.toNat = n * 2 ^ (-exponent).toNat) at checked
          rw [Bool.and_eq_true, decide_eq_true_eq, decide_eq_true_eq] at checked
          obtain ⟨large, same⟩ := checked
          refine ⟨mantissa, exponent, positive, large, rfl, ?_⟩
          have scaled : (mantissa : ℚ) * 2 ^ exponent.toNat = n * 2 ^ (-exponent).toNat := by exact_mod_cast same
          have place : exponent = exponent.toNat - (-exponent).toNat := by omega
          rw [place, zpow_sub₀ two_ne_zero, zpow_natCast, zpow_natCast, mul_div_assoc', div_eq_iff (by positivity)]
          exact scaled
  | _ => cases checked

theorem powers_exact : ∀ places, ∀ _ : places < Float.exactlyRepresentablePowersOfTen.size,
    isExactly Float.exactlyRepresentablePowersOfTen[places].toModel.unpack (10 ^ places) := by
  decide +kernel

theorem product_in_reach (u v : UnpackedFloat) (x y : ℚ) (left : Exact u x) (right : Exact v y) (mantissa : ℕ)
    (exponent : ℤ) (canonical : Canonical mantissa exponent)
    (reach : InReach mantissa exponent (x * y * 2 ^ (-exponent))) :
    UnpackedFloat.mul .binary64 u v = .finite .positive mantissa exponent canonical.positive := by
  obtain ⟨m, e, positive, large, rfl, rfl⟩ := left
  obtain ⟨m', e', positive', -, rfl, rfl⟩ := right
  have long : 52 ≤ (m * m').log2 :=
    (Nat.le_log2 (Nat.mul_pos positive positive').ne').mpr (le_trans large (Nat.le_mul_of_pos_right m positive'))
  refine mul_in_reach .positive .positive m m' e e' positive positive' long mantissa exponent canonical ?_
  have value : (m : ℚ) * m' * 2 ^ (e + e' - exponent) = m * 2 ^ e * (m' * 2 ^ e') * 2 ^ (-exponent) := by
    rw [sub_eq_add_neg, zpow_add₀ two_ne_zero, zpow_add₀ two_ne_zero]
    ring
  rwa [value]

theorem quotient_in_reach (u v : UnpackedFloat) (x y : ℚ) (left : Exact u x) (right : Exact v y) (mantissa : ℕ)
    (exponent : ℤ) (canonical : Canonical mantissa exponent)
    (reach : InReach mantissa exponent (x / y * 2 ^ (-exponent))) :
    UnpackedFloat.div .binary64 u v = .finite .positive mantissa exponent canonical.positive := by
  obtain ⟨m, e, positive, -, rfl, rfl⟩ := left
  obtain ⟨m', e', positive', -, rfl, rfl⟩ := right
  refine div_in_reach .positive .positive m m' e e' positive positive' mantissa exponent canonical ?_
  have value : (m : ℚ) / m' * 2 ^ (e - e' - exponent) = m * 2 ^ e / (m' * 2 ^ e') * 2 ^ (-exponent) := by
    rw [sub_eq_add_neg, zpow_add₀ two_ne_zero, zpow_sub₀ two_ne_zero, ← div_mul_div_comm, mul_assoc]
  rwa [value]

theorem scientific_pack (m : ℕ) (below : Bool) (places : ℕ) (positive : 0 < m) (few : places ≤ 2048)
    (mantissa : ℕ) (exponent : ℤ) (canonical : Canonical mantissa exponent)
    (reach : InReach mantissa exponent (m * 10 ^ (if below then -(places : ℤ) else places) * 2 ^ (-exponent))) :
    (Float.ofScientific m below places).toModel = pack (.finite .positive mantissa exponent canonical.positive) := by
  rw [Float.ofScientific]
  by_cases short : m < 2 ^ 53 ∧ places ≤ 22
  · have size : m.toUInt64.toNat = m := UInt64.toNat_ofNat_of_lt' (lt_trans short.1 (by decide))
    have left : Exact m.toUInt64.toFloat.toModel.unpack m := by
      change Exact (pack (UnpackedFloat.ofNat .binary64 m.toUInt64.toNat)).unpack m
      rw [size]
      exact whole_exact m positive short.1
    have right := exact_of_check _ _ (powers_exact places (Nat.lt_succ_of_le short.2))
    rw [dif_pos short]
    push_cast at right
    cases below with
    | false =>
        rw [if_neg Bool.false_ne_true, zpow_natCast] at reach
        rw [if_neg Bool.false_ne_true]
        exact congrArg pack (product_in_reach _ _ m (10 ^ places) left right mantissa exponent canonical reach)
    | true =>
        rw [if_pos rfl, zpow_neg, zpow_natCast, ← div_eq_mul_inv] at reach
        rw [if_pos rfl]
        exact congrArg pack (quotient_in_reach _ _ m (10 ^ places) left right mantissa exponent canonical reach)
  · rw [dif_neg short]
    change pack (UnpackedFloat.ofScientific .binary64 m (if below then Int.negOfNat places else Int.ofNat places)) = _
    have place :
        (if below then Int.negOfNat places else Int.ofNat places) = if below then -(places : ℤ) else places := by
      cases below
      · rfl
      · exact Int.negOfNat_eq
    rw [place]
    rw [scientific_in_reach m _ positive (by split <;> omega) (by split <;> omega) mantissa exponent canonical reach]

end StyleCalc.Double
