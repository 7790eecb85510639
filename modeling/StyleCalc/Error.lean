import StyleCalc.Node.Text
import StyleCalc.Numeric.Literal

set_option autoImplicit false

namespace StyleCalc

inductive ExprError (α : Type) where
  | nonNumericOperand (left : Node α) (symbol : Char) (right : Node α)
  | incompatibleOperands (left : Kind) (op : SumOp) (right : Kind)
  | missingMultiplier (left right : Numeric α)
  | nonNumericDivisor (divisor : Numeric α)
  | unknownUnits (kind : Kind) (units : String)
  | invalidLiteral (text : String)
  | percentUnsupported (kind : Kind)
  | unknownTranslateSuffix (suffix : String)
  | urlRejected (url reason : String)
  | maxDepthExceeded (name : String)

namespace ExprError

variable {α : Type} [Scalar α]

def message : ExprError α → String
  | nonNumericOperand left symbol right =>
      "calc operands must both be numeric: " ++ left.text ++ " " ++ String.singleton symbol ++ " "
        ++ right.text
  | incompatibleOperands left op right =>
      "calc operands must be the same type: " ++ left.name ++ " " ++ String.singleton op.symbol
        ++ " " ++ right.name
  | missingMultiplier left right =>
      "one side of a multiplication must be a number: " ++ left.text ++ " * " ++ right.text
  | nonNumericDivisor divisor => "denominator must be a number: " ++ divisor.text
  | unknownUnits kind units => "unknown " ++ kind.name ++ " units: " ++ units
  | invalidLiteral text => "invalid numeric literal: " ++ text
  | percentUnsupported kind => "cannot calculate percent for " ++ kind.name
  | unknownTranslateSuffix suffix => "unknown translate function: translate" ++ suffix
  | urlRejected url reason => "url rejected: " ++ url ++ ": " ++ reason
  | maxDepthExceeded name => "maximum var() resolution depth exceeded at " ++ name

end ExprError

variable {α : Type}

def Numeric.parse [Scalar α] (s : String) : Except (ExprError α) (Numeric α) :=
  match Numeric.ofText? s with
  | some n => .ok n
  | none => .error (.invalidLiteral s)

def Node.translate (suffix : String) (args : List (Node α)) : Except (ExprError α) (Node α) :=
  let variant := Text.lower suffix
  match Node.translateAxes? variant with
  | some axes => .ok (.call ("translate" ++ variant) args (some axes))
  | none => .error (.unknownTranslateSuffix variant)

end StyleCalc
