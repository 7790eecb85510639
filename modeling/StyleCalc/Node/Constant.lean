import StyleCalc.Node.Basic
import StyleCalc.Text.Fold

set_option autoImplicit false

namespace StyleCalc.Node

variable {α : Type}

def isFinalAddress (address : String) : Bool :=
  let s := address.toList
  s.isEmpty || (Text.dropWord? "data:".toList s).isSome || (Text.dropWord? "https:".toList s).isSome

mutual
def isConstant : Node α → Bool
  | .raw _ => true
  | .numeric _ => true
  | .concat ns => allConstant ns
  | .url address => isFinalAddress address
  | .call _ args _ => allConstant args
  | .var _ _ => false
  | .calculation _ => false
  | .sum _ _ _ => false
  | .product _ _ _ => false
  | .num _ => false
  | .index => false

def allConstant : List (Node α) → Bool
  | [] => true
  | n :: ns => n.isConstant && allConstant ns
end

theorem allConstant_eq_all (ns : List (Node α)) : allConstant ns = ns.all isConstant := by
  induction ns with
  | nil => rfl
  | cons n ns ih => simp only [allConstant, List.all_cons, ih]

@[simp]
theorem allConstant_append (ms ns : List (Node α)) :
    allConstant (ms ++ ns) = (allConstant ms && allConstant ns) := by
  simp only [allConstant_eq_all, List.all_append]

theorem isConstant_eq_items (n : Node α) : n.isConstant = allConstant n.items := by
  cases n <;> simp [items, allConstant, isConstant]

end StyleCalc.Node
