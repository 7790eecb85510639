import StyleCalc.Calc
import StyleCalc.Node.Constant
import StyleCalc.Scope
/-!
Resolution of expressions. A variable reference goes on with a tree that the host supplies, so the
recursion is on the number of references that may still be nested and, within one level, on the
expression.
-/

set_option autoImplicit false

namespace StyleCalc

def maxDepth : Nat :=
  100

namespace Node

variable {α : Type} [Scalar α]

def ofNumeric? (n : Option (Numeric α)) : Option (Node α) :=
  n.map .numeric

def valueOf (ctx : Context α) (name : String) (fallback : Option (Node α)) : Option (Node α) :=
  match ctx.lookup name with
  | some value => some value
  | none => fallback

def resolveVar (ctx : Context α) (below : Node α → Resolving α (Option (Node α)))
    (name : String) (fallback : Option (Node α)) : Resolving α (Option (Node α)) := do
  if maxDepth ≤ (← Resolving.scope).depth then
    Resolving.ofExcept (.error (.maxDepthExceeded name))
  else
    Resolving.deeper <|
      match valueOf ctx name fallback with
      | some value => below value
      | none => pure none

def sumOf (ctx : Context α) (op : SumOp) :
    Option (Node α) → Option (Node α) → Resolving α (Option (Node α))
  | some left, some right => do
      let scope ← Resolving.scope
      Resolving.ofExcept do
        let (m, n) ← operands left op.symbol right
        return ofNumeric? (← m.sum ctx scope.axis op n)
  | _, _ => pure none

def productOf (op : ProductOp) :
    Option (Node α) → Option (Node α) → Resolving α (Option (Node α))
  | some left, some right =>
      Resolving.ofExcept do
        let (m, n) ← operands left op.symbol right
        return ofNumeric? (← m.product op n)
  | _, _ => pure none

def numOf (ctx : Context α) : Option (Node α) → Resolving α (Option (Node α))
  | some (.numeric n) =>
      Resolving.ofExcept do
        let n ← n.normalize ctx
        return ofNumeric? (Numeric.count n.value).finite?
  | _ => pure none

mutual
def resolveLevel (ctx : Context α) (below : Node α → Resolving α (Option (Node α)))
    (node : Node α) : Resolving α (Option (Node α)) :=
  if node.isConstant then pure (some node)
  else
    match node with
    | .raw css => pure (some (.raw css))
    | .numeric n => pure (some (.numeric n))
    | .concat ns => do
        return (← resolveItems ctx below ns).map .concat
    | .url address => do
        let final ← Resolving.ofExcept (ctx.resolveUrl address)
        return some (.raw ("url(\"" ++ final ++ "\")"))
    | .call name args axes => do
        return (← resolveArgs ctx below args (axes.getD [])).map (.call name · axes)
    | .var name fallback => resolveVar ctx below name fallback
    | .calculation inner => resolveLevel ctx below inner
    | .sum left op right => do
        let left ← resolveLevel ctx below left
        let right ← resolveLevel ctx below right
        sumOf ctx op left right
    | .product left op right => do
        let left ← resolveLevel ctx below left
        let right ← resolveLevel ctx below right
        productOf op left right
    | .num inner => do
        numOf ctx (← resolveLevel ctx below inner)
    | .index => pure (some (.numeric (Numeric.count (Scalar.ofNat ctx.index))))

def resolveItems (ctx : Context α) (below : Node α → Resolving α (Option (Node α))) :
    List (Node α) → Resolving α (Option (List (Node α)))
  | [] => pure (some [])
  | n :: ns => do
      match ← resolveLevel ctx below n with
      | none => pure none
      | some m => return (← resolveItems ctx below ns).map (m :: ·)

def resolveArgs (ctx : Context α) (below : Node α → Resolving α (Option (Node α))) :
    List (Node α) → List Axis → Resolving α (Option (List (Node α)))
  | [], _ => pure (some [])
  | n :: ns, axes => do
      match ← Resolving.withAxis axes.head? (resolveLevel ctx below n) with
      | none => pure none
      | some m => return (← resolveArgs ctx below ns axes.tail).map (m :: ·)
end

def resolveWithin (ctx : Context α) : Nat → Node α → Resolving α (Option (Node α))
  | 0 => resolveLevel ctx fun _ => pure none
  | levels + 1 => resolveLevel ctx (resolveWithin ctx levels)

def resolveIn (ctx : Context α) (node : Node α) : Resolving α (Option (Node α)) :=
  fun scope => resolveWithin ctx (maxDepth - scope.depth) node scope

def resolve (ctx : Context α) (node : Node α) : Except (ExprError α) (Option (Node α)) :=
  (node.resolveIn ctx Scope.start).1

end Node

end StyleCalc
