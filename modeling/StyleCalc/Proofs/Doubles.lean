import StyleCalc.Double

set_option autoImplicit false

namespace StyleCalc.Double

open Float.Model

theorem unpack_add (x y : Float) :
    (x + y).toModel.unpack = (pack (UnpackedFloat.add .binary64 x.toModel.unpack y.toModel.unpack)).unpack := rfl

theorem unpack_mul (x y : Float) :
    (x * y).toModel.unpack = (pack (UnpackedFloat.mul .binary64 x.toModel.unpack y.toModel.unpack)).unpack := rfl

theorem unpack_div (x y : Float) :
    (x / y).toModel.unpack = (pack (UnpackedFloat.div .binary64 x.toModel.unpack y.toModel.unpack)).unpack := rfl

@[simp]
theorem unpack_pack_zero (sign : UnpackedFloat.Sign) : (pack (.zero sign)).unpack = .zero sign := by
  cases sign <;> rfl

@[simp]
theorem unpack_pack_none : (pack .notANumber).unpack = .notANumber := rfl

@[simp]
theorem unpack_zero : (Scalar.ofNat 0 : Float).toModel.unpack = .zero .positive := rfl

theorem unpack_hundred : ∃ mantissa exponent positive,
    (Scalar.ofNat 100 : Float).toModel.unpack = .finite .positive mantissa exponent positive :=
  ⟨_, _, _, rfl⟩

theorem unpack_zero_mul (x : Float) (finite : Scalar.isFinite x) :
    ∃ sign, (Scalar.ofNat 0 * x).toModel.unpack = .zero sign := by
  change x.toModel.unpack.isFinite at finite
  rw [unpack_mul, unpack_zero]
  cases form : x.toModel.unpack with
  | notANumber =>
      rw [form] at finite
      cases finite
  | infinity sign =>
      rw [form] at finite
      cases finite
  | zero sign => exact ⟨_, unpack_pack_zero _⟩
  | finite sign mantissa exponent positive => exact ⟨_, unpack_pack_zero _⟩

theorem unpack_zero_div (x : Float) (sign : UnpackedFloat.Sign) (zero : x.toModel.unpack = .zero sign) :
    ∃ sign, (x / Scalar.ofNat 100).toModel.unpack = .zero sign := by
  obtain ⟨mantissa, exponent, positive, hundred⟩ := unpack_hundred
  rw [unpack_div, zero, hundred]
  exact ⟨_, unpack_pack_zero _⟩

theorem beq_zero (x : Float) (sign : UnpackedFloat.Sign) (zero : x.toModel.unpack = .zero sign) :
    x == Scalar.ofNat 0 := by
  change UnpackedFloat.beq x.toModel.unpack (Scalar.ofNat 0 : Float).toModel.unpack
  rw [zero, unpack_zero]
  cases sign <;> rfl

def NotANumber (x : Float) : Prop :=
  x.toModel.unpack = .notANumber

theorem not_a_number_endless (x : Float) (missing : NotANumber x) : ¬ Scalar.isFinite x := by
  change ¬ x.toModel.unpack.isFinite
  rw [missing]
  nofun

theorem not_a_number_zero_mul (x : Float) (endless : ¬ Scalar.isFinite x) :
    NotANumber (Scalar.ofNat 0 * x) := by
  change ¬ x.toModel.unpack.isFinite at endless
  rw [NotANumber, unpack_mul, unpack_zero]
  cases form : x.toModel.unpack with
  | notANumber => exact unpack_pack_none
  | infinity sign => exact unpack_pack_none
  | zero sign => exact absurd (by rw [form]; rfl) endless
  | finite sign mantissa exponent positive => exact absurd (by rw [form]; rfl) endless

theorem not_a_number_mul (x y : Float) (missing : NotANumber y) : NotANumber (x * y) := by
  rw [NotANumber, unpack_mul, missing]
  cases x.toModel.unpack <;> exact unpack_pack_none

theorem not_a_number_div (x y : Float) (missing : NotANumber x) : NotANumber (x / y) := by
  rw [NotANumber, unpack_div, missing]
  exact unpack_pack_none

theorem not_a_number_add (x y : Float) (either : NotANumber x ∨ NotANumber y) : NotANumber (x + y) := by
  rw [NotANumber, unpack_add]
  rcases either with missing | missing
  · rw [missing]
    exact unpack_pack_none
  · rw [missing]
    cases x.toModel.unpack <;> exact unpack_pack_none

end StyleCalc.Double
