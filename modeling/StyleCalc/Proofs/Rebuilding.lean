import StyleCalc.Proofs.Lexical

set_option autoImplicit false

namespace StyleCalc.Node

open Resolving

variable {α : Type}

theorem with_axis_pure {β : Type} (axis : Option Axis) (b : β) :
    withAxis axis (pure b : Resolving α β) = pure b := by
  cases axis <;> rfl

variable [Scalar α]

mutual
-- Resolution that takes every sequence and every call apart. Only an address is left alone where it
-- is final.
def rebuildLevel (ctx : Context α) (below : Node α → Resolving α (Option (Node α))) :
    Node α → Resolving α (Option (Node α))
  | .raw css => pure (some (.raw css))
  | .numeric n => pure (some (.numeric n))
  | .concat ns => do
      return (← rebuildItems ctx below ns).map .concat
  | .url address =>
      if isFinalAddress address then pure (some (.url address))
      else do
        let final ← Resolving.ofExcept (ctx.resolveUrl address)
        return some (.raw ("url(\"" ++ final ++ "\")"))
  | .call name args axes => do
      return (← rebuildArgs ctx below args (axes.getD [])).map (.call name · axes)
  | .var name fallback => resolveVar ctx below name fallback
  | .calculation inner => rebuildLevel ctx below inner
  | .sum left op right => do
      let left ← rebuildLevel ctx below left
      let right ← rebuildLevel ctx below right
      sumOf ctx op left right
  | .product left op right => do
      let left ← rebuildLevel ctx below left
      let right ← rebuildLevel ctx below right
      productOf op left right
  | .num inner => do
      numOf ctx (← rebuildLevel ctx below inner)
  | .index => pure (some (.numeric (Numeric.count (Scalar.ofNat ctx.index))))

def rebuildItems (ctx : Context α) (below : Node α → Resolving α (Option (Node α))) :
    List (Node α) → Resolving α (Option (List (Node α)))
  | [] => pure (some [])
  | n :: ns => do
      match ← rebuildLevel ctx below n with
      | none => pure none
      | some m => return (← rebuildItems ctx below ns).map (m :: ·)

def rebuildArgs (ctx : Context α) (below : Node α → Resolving α (Option (Node α))) :
    List (Node α) → List Axis → Resolving α (Option (List (Node α)))
  | [], _ => pure (some [])
  | n :: ns, axes => do
      match ← Resolving.withAxis axes.head? (rebuildLevel ctx below n) with
      | none => pure none
      | some m => return (← rebuildArgs ctx below ns axes.tail).map (m :: ·)
end

def rebuildWithin (ctx : Context α) : Nat → Node α → Resolving α (Option (Node α))
  | 0 => rebuildLevel ctx fun _ => pure none
  | levels + 1 => rebuildLevel ctx (rebuildWithin ctx levels)

def rebuildIn (ctx : Context α) (node : Node α) : Resolving α (Option (Node α)) :=
  fun scope => rebuildWithin ctx (maxDepth - scope.depth) node scope

mutual
theorem rebuild_level_constant (ctx : Context α) (below : Node α → Resolving α (Option (Node α)))
    (node : Node α) (constant : node.isConstant) : rebuildLevel ctx below node = pure (some node) := by
  cases node with
  | raw css => rw [rebuildLevel]
  | numeric n => rw [rebuildLevel]
  | concat ns =>
      rw [rebuildLevel, rebuild_items_constant ctx below ns (by simpa only [isConstant] using constant)]
      rfl
  | url address => rw [rebuildLevel, if_pos (by simpa only [isConstant] using constant)]
  | call name args axes =>
      rw [rebuildLevel, rebuild_args_constant ctx below args _ (by simpa only [isConstant] using constant)]
      rfl
  | var name fallback => simp [isConstant] at constant
  | calculation inner => simp [isConstant] at constant
  | sum left op right => simp [isConstant] at constant
  | product left op right => simp [isConstant] at constant
  | num inner => simp [isConstant] at constant
  | index => simp [isConstant] at constant

theorem rebuild_items_constant (ctx : Context α) (below : Node α → Resolving α (Option (Node α)))
    (ns : List (Node α)) (constant : allConstant ns) : rebuildItems ctx below ns = pure (some ns) := by
  cases ns with
  | nil => rw [rebuildItems]
  | cons n rest =>
      obtain ⟨first, others⟩ : n.isConstant ∧ allConstant rest := by simpa [allConstant] using constant
      rw [rebuildItems, rebuild_level_constant ctx below n first, rebuild_items_constant ctx below rest others]
      rfl

theorem rebuild_args_constant (ctx : Context α) (below : Node α → Resolving α (Option (Node α)))
    (ns : List (Node α)) (axes : List Axis) (constant : allConstant ns) :
    rebuildArgs ctx below ns axes = pure (some ns) := by
  cases ns with
  | nil => rw [rebuildArgs]
  | cons n rest =>
      obtain ⟨first, others⟩ : n.isConstant ∧ allConstant rest := by simpa [allConstant] using constant
      rw [rebuildArgs, rebuild_level_constant ctx below n first, with_axis_pure,
        rebuild_args_constant ctx below rest axes.tail others]
      rfl
end

-- Constant parts stand beside others in one expression, so the two recursions meet at every node.
mutual
theorem rebuild_level_resolve (ctx : Context α) (below : Node α → Resolving α (Option (Node α)))
    (node : Node α) : rebuildLevel ctx below node = resolveLevel ctx below node := by
  rw [resolveLevel.eq_def]
  by_cases constant : node.isConstant
  · rw [if_pos constant, rebuild_level_constant ctx below node constant]
  · rw [if_neg constant]
    cases node with
    | raw css => rw [rebuildLevel]
    | numeric n => rw [rebuildLevel]
    | concat ns => rw [rebuildLevel, rebuild_items_resolve ctx below ns]
    | url address => rw [rebuildLevel, if_neg (by simpa only [isConstant] using constant)]
    | call name args axes => rw [rebuildLevel, rebuild_args_resolve ctx below args]
    | var name fallback => rw [rebuildLevel]
    | calculation inner => rw [rebuildLevel, rebuild_level_resolve ctx below inner]
    | sum left op right =>
        rw [rebuildLevel, rebuild_level_resolve ctx below left, rebuild_level_resolve ctx below right]
    | product left op right =>
        rw [rebuildLevel, rebuild_level_resolve ctx below left, rebuild_level_resolve ctx below right]
    | num inner => rw [rebuildLevel, rebuild_level_resolve ctx below inner]
    | index => rw [rebuildLevel]

theorem rebuild_items_resolve (ctx : Context α) (below : Node α → Resolving α (Option (Node α)))
    (ns : List (Node α)) : rebuildItems ctx below ns = resolveItems ctx below ns := by
  cases ns with
  | nil => rw [rebuildItems, resolveItems]
  | cons n rest =>
      rw [rebuildItems, rebuild_level_resolve ctx below n, rebuild_items_resolve ctx below rest]
      rfl

theorem rebuild_args_resolve (ctx : Context α) (below : Node α → Resolving α (Option (Node α)))
    (ns : List (Node α)) (axes : List Axis) : rebuildArgs ctx below ns axes = resolveArgs ctx below ns axes := by
  cases ns with
  | nil => rw [rebuildArgs, resolveArgs]
  | cons n rest =>
      rw [rebuildArgs, rebuild_level_resolve ctx below n, rebuild_args_resolve ctx below rest axes.tail]
      rfl
end

theorem rebuild_within_resolve (ctx : Context α) (levels : Nat) :
    rebuildWithin ctx levels = resolveWithin ctx levels := by
  induction levels with
  | zero =>
      funext node
      exact rebuild_level_resolve ctx _ node
  | succ levels ih =>
      funext node
      rw [rebuildWithin, resolveWithin, ih]
      exact rebuild_level_resolve ctx _ node

theorem rebuilding_resolves (ctx : Context α) (node : Node α) (scope : Scope) :
    node.rebuildIn ctx scope = node.resolveIn ctx scope := by
  rw [rebuildIn, resolveIn, rebuild_within_resolve]

end StyleCalc.Node
