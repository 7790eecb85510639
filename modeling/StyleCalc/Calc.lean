import StyleCalc.Numeric.Conversion

set_option autoImplicit false

namespace StyleCalc

variable {α : Type} [Scalar α]

def SumOp.sign : SumOp → α
  | add => Scalar.ofNat 1
  | sub => -Scalar.ofNat 1

namespace Node

def operands (left : Node α) (symbol : Char) (right : Node α) :
    Except (ExprError α) (Numeric α × Numeric α) :=
  match left, right with
  | .numeric m, .numeric n => .ok (m, n)
  | _, _ => .error (.nonNumericOperand left symbol right)

end Node

namespace Numeric

def finite? (n : Numeric α) : Option (Numeric α) :=
  if Scalar.isFinite n.value then some n else none

def sameKind (ctx : Context α) (axis : Option Axis) (op : SumOp) (m n : Numeric α) :
    Except (ExprError α) (Numeric α × Numeric α) :=
  if m.kind = n.kind then .ok (m, n)
  else if m.isPercent then (ofPercent ctx axis n m.value).map (·, n)
  else if n.isPercent then (ofPercent ctx axis m n.value).map (m, ·)
  else .error (.incompatibleOperands m.kind op n.kind)

def sameUnits (ctx : Context α) (m n : Numeric α) : Except (ExprError α) (Numeric α × Numeric α) :=
  if m.units = n.units then .ok (m, n)
  else do
    let m ← m.normalize ctx
    let n ← n.normalize ctx
    return (m, n)

def sum (ctx : Context α) (axis : Option Axis) (m : Numeric α) (op : SumOp) (n : Numeric α) :
    Except (ExprError α) (Option (Numeric α)) := do
  let (m, n) ← sameKind ctx axis op m n
  let (m, n) ← sameUnits ctx m n
  return (m.withValue (m.value + op.sign * n.value)).finite?

def product (m : Numeric α) (op : ProductOp) (n : Numeric α) :
    Except (ExprError α) (Option (Numeric α)) :=
  match op with
  | .mul =>
      if m.isCount then .ok (n.withValue (n.value * m.value)).finite?
      else if n.isCount then .ok (m.withValue (m.value * n.value)).finite?
      else .error (.missingMultiplier m n)
  | .div =>
      if n.isCount then .ok (m.withValue (m.value * (Scalar.ofNat 1 / n.value))).finite?
      else .error (.nonNumericDivisor n)

end Numeric

end StyleCalc
