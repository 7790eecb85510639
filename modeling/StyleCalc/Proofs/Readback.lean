import StyleCalc.Double
import StyleCalc.Proofs.Positional
import StyleCalc.Proofs.Scientific
import StyleCalc.Proofs.Shortest

set_option autoImplicit false

namespace StyleCalc.Double

open Float.Model Float.Model.UnpackedFloat

def signOf (negative : Bool) : UnpackedFloat.Sign :=
  if negative then .negative else .positive

section

variable (b : BitVec Format.binary64.numBits)

theorem fraction_field : (unpackMantissa b).toNat = b.toNat % 2 ^ 52 := by
  change b.toNat >>> 0 % 2 ^ 52 = _
  rw [Nat.shiftRight_zero]

theorem exponent_field : (unpackExponent b).toNat = b.toNat / 2 ^ 52 % 2 ^ 11 := by
  change b.toNat >>> 52 % 2 ^ 11 = _
  rw [Nat.shiftRight_eq_div_pow]

theorem sign_field : Sign.ofBitVec (unpackSign b) = signOf (b.toNat / 2 ^ 63 = 1) := by
  have value : (unpackSign b).toNat = b.toNat / 2 ^ 63 := by
    change b.toNat >>> 63 % 2 ^ 1 = _
    rw [Nat.shiftRight_eq_div_pow]
    have size : b.toNat < 2 ^ 64 := b.isLt
    omega
  rw [Sign.ofBitVec, signOf, ← value]
  by_cases positive : unpackSign b = 0#1
  · rw [if_pos positive, positive]
    rfl
  · have negative : unpackSign b = 1#1 := (BitVec.eq_zero_or_eq_one _).resolve_left positive
    rw [if_neg positive, negative]
    rfl

end

theorem endless (b : BitVec Format.binary64.numBits) (full : unpackExponent b = -1#11) :
    (UnpackedFloat.unpack .binary64 b).isFinite = false := by
  unfold UnpackedFloat.unpack
  dsimp only
  rw [if_pos full]
  split <;> rfl

theorem magnitude_subnormal (fraction : ℕ) (positive : 0 < fraction) (small : fraction < 2 ^ 52) :
    (magnitude 0 fraction).IsDouble := by
  have form : magnitude 0 fraction = ⟨fraction, -1074, false⟩ := rfl
  rw [form]
  exact ⟨⟨positive, by dsimp only; omega, le_rfl, .inr rfl⟩, fun _ normal => absurd normal (lt_irrefl _)⟩

theorem magnitude_normal_form (exponent fraction : ℕ) (normal : exponent ≠ 0) :
    magnitude exponent fraction = ⟨2 ^ 52 + fraction, exponent - 1075, decide (fraction = 0 ∧ 1 < exponent)⟩ :=
  if_neg normal

theorem magnitude_normal (exponent fraction : ℕ) (normal : exponent ≠ 0) (small : fraction < 2 ^ 52) :
    (magnitude exponent fraction).IsDouble := by
  rw [magnitude_normal_form exponent fraction normal]
  refine ⟨⟨?_, ?_, ?_, .inl ?_⟩, ?_⟩ <;> dsimp only
  · omega
  · omega
  · omega
  · omega
  · intro least above
    exact decide_eq_true (by omega)

theorem bits_form (b : BitVec Format.binary64.numBits) (finite : (UnpackedFloat.unpack .binary64 b).isFinite)
    (negative : Bool) (exponent fraction : ℕ)
    (split : (decide (b.toNat / 2 ^ 63 = 1), b.toNat / 2 ^ 52 % 2 ^ 11, b.toNat % 2 ^ 52) =
      (negative, exponent, fraction)) :
    exponent ≠ 2047 ∧
      (exponent = 0 ∧ fraction = 0 → UnpackedFloat.unpack .binary64 b = .zero (signOf negative)) ∧
        (¬ (exponent = 0 ∧ fraction = 0) → ∃ number : (magnitude exponent fraction).IsDouble,
          (magnitude exponent fraction).exponent ≤ 971 ∧
            UnpackedFloat.unpack .binary64 b = .finite (signOf negative) (magnitude exponent fraction).mantissa
              (magnitude exponent fraction).exponent number.canonical.positive) := by
  rw [← exponent_field b, ← fraction_field b, Prod.mk.injEq, Prod.mk.injEq] at split
  obtain ⟨rfl, rfl, rfl⟩ := split
  have small : (unpackMantissa b).toNat < 2 ^ 52 := (unpackMantissa b).isLt
  have large : (unpackExponent b).toNat < 2 ^ 11 := (unpackExponent b).isLt
  have ordinary : unpackExponent b ≠ -1#11 := by
    intro full
    rw [endless b full] at finite
    cases finite
  have notFull : (unpackExponent b).toNat ≠ 2047 := fun full => ordinary (BitVec.eq_of_toNat_eq full)
  refine ⟨notFull, ?_, ?_⟩
  · rintro ⟨noExponent, noFraction⟩
    have least : unpackExponent b = 0#11 := BitVec.eq_of_toNat_eq noExponent
    have nothing : unpackMantissa b = 0#52 := BitVec.eq_of_toNat_eq noFraction
    rw [← sign_field]
    unfold UnpackedFloat.unpack
    dsimp only
    rw [if_neg ordinary, if_pos least, dif_pos nothing]
  · intro something
    by_cases least : (unpackExponent b).toNat = 0
    · have positive : 0 < (unpackMantissa b).toNat := by omega
      rw [least]
      refine ⟨magnitude_subnormal _ positive small, (by decide : (-1074 : ℤ) ≤ 971), ?_⟩
      rw [← sign_field]
      exact unpack_subnormal b (BitVec.eq_of_toNat_eq least) positive
    · refine ⟨magnitude_normal _ _ least small, ?_, ?_⟩
      · rw [magnitude_normal_form _ _ least]
        dsimp only
        omega
      · rw [← sign_field]
        have form := magnitude_normal_form _ (unpackMantissa b).toNat least
        refine unpack_normal b ordinary (fun none => least (congrArg BitVec.toNat none)) _ _ _ ?_ ?_ <;> rw [form]

theorem fields_form (x : Float) (finite : Scalar.isFinite x) (negative : Bool) (exponent fraction : ℕ)
    (split : fields x = (negative, exponent, fraction)) :
    exponent ≠ 2047 ∧ (exponent = 0 ∧ fraction = 0 → x.toModel.unpack = .zero (signOf negative)) ∧
      (¬ (exponent = 0 ∧ fraction = 0) → ∃ number : (magnitude exponent fraction).IsDouble,
        (magnitude exponent fraction).exponent ≤ 971 ∧
          x.toModel.unpack = .finite (signOf negative) (magnitude exponent fraction).mantissa
            (magnitude exponent fraction).exponent number.canonical.positive) :=
  bits_form x.toModel.toBits.toBitVec finite negative exponent fraction split

theorem unpack_neg (x : Float) : (-x).toModel.unpack = (pack x.toModel.unpack.neg).unpack := rfl

theorem unpack_signed (x : Float) (negative : Bool) (mantissa : ℕ) (exponent : ℤ)
    (canonical : Canonical mantissa exponent) (most : exponent ≤ 971)
    (size : x.toModel = pack (.finite .positive mantissa exponent canonical.positive)) :
    (if negative then -x else x).toModel.unpack =
      .finite (signOf negative) mantissa exponent canonical.positive := by
  have form := unpack_pack_canonical .positive mantissa exponent canonical most
  cases negative with
  | false =>
      rw [if_neg Bool.false_ne_true, size, form]
      rfl
  | true =>
      rw [if_pos rfl, unpack_neg, size, form]
      exact unpack_pack_canonical .negative mantissa exponent canonical most

theorem beq_of_unpack (x y : Float) (finite : Scalar.isFinite y) (same : x.toModel.unpack = y.toModel.unpack) :
    x == y := by
  change y.toModel.unpack.isFinite at finite
  change UnpackedFloat.beq x.toModel.unpack y.toModel.unpack
  rw [same]
  generalize y.toModel.unpack = number at finite ⊢
  cases number with
  | notANumber => cases finite
  | infinity sign => cases finite
  | zero sign => cases sign <;> rfl
  | finite sign mantissa exponent positive =>
      have equal : (compare exponent exponent).then (compare mantissa mantissa) = .eq := by simp
      cases sign with
      | negative => exact congrArg (fun order => some order.swap == some Ordering.eq) equal
      | positive => exact congrArg (fun order => some order == some Ordering.eq) equal

theorem beq_zeros (x y : Float) (sign sign' : UnpackedFloat.Sign) (zero : x.toModel.unpack = .zero sign)
    (zero' : y.toModel.unpack = .zero sign') : x == y := by
  change UnpackedFloat.beq x.toModel.unpack y.toModel.unpack
  rw [zero, zero']
  cases sign <;> cases sign' <;> rfl

def writtenSign (negative : Bool) : NumeralSign :=
  if negative then .minus else .absent

theorem zero_numeral (negative : Bool) : ∃ n : Numeral, n.chars = (writtenSign negative).chars ++ ['0'] ∧ n.Plain ∧
    ∃ sign, (ofDecimal n.decimal).toModel.unpack = .zero sign := by
  obtain ⟨n, chars, plain, value⟩ := Decimal.positional_numeral (writtenSign negative) 0 0
  refine ⟨n, chars, plain, ?_⟩
  rw [value]
  cases negative <;> exact ⟨_, rfl⟩

theorem shortest_numeral (negative : Bool) (b : Decimal.Binary) (number : b.IsDouble) (most : b.exponent ≤ 971) :
    ∃ n : Numeral, n.chars = (writtenSign negative).chars ++ Decimal.positional b.shortest.1 b.shortest.2 ∧ n.Plain ∧
      (ofDecimal n.decimal).toModel.unpack =
        .finite (signOf negative) b.mantissa b.exponent number.canonical.positive := by
  obtain ⟨reach, fine⟩ := b.shortest_in_reach number
  generalize b.shortest.1 = k at reach ⊢
  generalize b.shortest.2 = e at reach fine ⊢
  obtain ⟨n, chars, plain, value⟩ := Decimal.positional_numeral (writtenSign negative) k e
  refine ⟨n, chars, plain, ?_⟩
  have sign : (writtenSign negative).negative = negative := by cases negative <;> rfl
  have positive : 0 < k * 10 ^ e.toNat := by
    have some : k ≠ 0 := by
      rintro rfl
      have least : (1 : ℚ) ≤ b.mantissa := by exact_mod_cast number.canonical.positive
      have lower := reach.nearest.lower
      rw [Nat.cast_zero, zero_mul, zero_mul] at lower
      linarith
    positivity
  have scaled : ((k * 10 ^ e.toNat : ℕ) : ℚ) * 10 ^ (if decide (min e 0 < 0) then -((min e 0).natAbs : ℤ)
      else (min e 0).natAbs) = k * 10 ^ e := by
    have place : (if decide (min e 0 < 0) then -((min e 0).natAbs : ℤ) else (min e 0).natAbs) = min e 0 := by
      by_cases below : min e 0 < 0
      · rw [if_pos (decide_eq_true below)]
        omega
      · rw [if_neg (by simpa using below)]
        omega
    have sum : (e.toNat : ℤ) + min e 0 = e := by omega
    rw [place]
    push_cast
    rw [mul_assoc, ← zpow_natCast, ← zpow_add₀ (by norm_num), sum]
  rw [value, ofDecimal]
  dsimp only
  rw [sign]
  refine unpack_signed _ negative b.mantissa b.exponent number.canonical most ?_
  exact scientific_pack _ _ _ positive (by omega) b.mantissa b.exponent number.canonical (by rwa [scaled])

theorem text_numeral (x : Float) (finite : Scalar.isFinite x) :
    ∃ n : Numeral, n.chars = (Scalar.text x).toList ∧ n.Plain ∧ (Scalar.ofDecimal n.decimal : Float) == x := by
  rcases split : fields x with ⟨negative, exponent, fraction⟩
  obtain ⟨notFull, zero, nonzero⟩ := fields_form x finite negative exponent fraction split
  have prefixed (s : List Char) : ((if negative then "-" else "") ++ String.ofList s).toList =
      (writtenSign negative).chars ++ s := by
    rw [String.toList_append, String.toList_ofList]
    cases negative <;> rfl
  change ∃ n : Numeral, n.chars = (text x).toList ∧ n.Plain ∧ (ofDecimal n.decimal) == x
  rw [text, split]
  dsimp only
  rw [if_neg notFull]
  by_cases nothing : exponent = 0 ∧ fraction = 0
  · obtain ⟨n, chars, plain, sign, value⟩ := zero_numeral negative
    rw [if_pos nothing]
    refine ⟨n, ?_, plain, beq_zeros _ x sign _ value (zero nothing)⟩
    rw [chars]
    exact (prefixed ['0']).symm
  · obtain ⟨number, most, form⟩ := nonzero nothing
    obtain ⟨n, chars, plain, value⟩ := shortest_numeral negative (magnitude exponent fraction) number most
    rw [if_neg nothing]
    refine ⟨n, ?_, plain, beq_of_unpack _ x finite (value.trans form.symm)⟩
    rw [chars, prefixed]

end StyleCalc.Double
