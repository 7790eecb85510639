import StyleCalc.Context

set_option autoImplicit false

namespace StyleCalc.Numeric

variable {α : Type} [Scalar α]

def pixels? (ctx : Context α) (value : α) (units : String) : Option α :=
  let width := ctx.viewport.width * value / Scalar.ofNat 100
  let height := ctx.viewport.height * value / Scalar.ofNat 100
  match units with
  | "em" => some (value * ctx.fontSize)
  | "rem" => some (value * ctx.rootFontSize)
  | "vw" => some width
  | "vh" => some height
  | "vmin" => some (Scalar.least width height)
  | "vmax" => some (Scalar.greatest width height)
  | _ => none

def radians? (value : α) (units : String) : Option α :=
  match units with
  | "deg" => some (value * Scalar.ofNat 2 * Scalar.pi / Scalar.ofNat 360)
  | "grad" => some (value * Scalar.pi / Scalar.ofNat 200)
  | _ => none

def milliseconds? (value : α) (units : String) : Option α :=
  match units with
  | "s" => some (value * Scalar.ofNat 1000)
  | _ => none

def converted? (ctx : Context α) (n : Numeric α) : Option α :=
  match n.kind with
  | .count => none
  | .percent => none
  | .length => pixels? ctx n.value n.units
  | .angle => radians? n.value n.units
  | .time => milliseconds? n.value n.units

def normalize (ctx : Context α) (n : Numeric α) : Except (ExprError α) (Numeric α) :=
  if n.kind = .count ∨ n.kind = .percent ∨ n.units = n.kind.canonicalUnits then .ok n
  else
    match converted? ctx n with
    | some value => .ok ⟨n.kind, value, n.kind.canonicalUnits⟩
    | none => .error (.unknownUnits n.kind n.units)

-- A percentage in the kind of `n`. Only lengths have one: it is taken of the element's side along
-- the axis, and is nothing where no side is meant.
def ofPercent (ctx : Context α) (axis : Option Axis) (n : Numeric α) (percent : α) :
    Except (ExprError α) (Numeric α) :=
  if n.kind = .length then
    let side := (ctx.element.along axis).getD (Scalar.ofNat 0)
    .ok ⟨.length, side * percent / Scalar.ofNat 100, "px"⟩
  else .error (.percentUnsupported n.kind)

end StyleCalc.Numeric
