import StyleCalc.Resolve

set_option autoImplicit false

namespace StyleCalc

namespace Resolving

variable {α β γ : Type}

structure Lexical (run : Resolving α β) : Prop where
  balanced : ∀ s, (run s).2 = s
  determined : ∀ s t : Scope, s.axis = t.axis → s.depth = t.depth → (run s).1 = (run t).1

theorem bind_balanced (run : Resolving α β) (next : β → Resolving α γ) (s : Scope)
    (balanced : (run s).2 = s) :
    (run >>= next) s =
      match (run s).1 with
      | .ok b => next b s
      | .error e => (.error e, s) := by
  cases given : (run s).1 with
  | ok b => exact bind_ok (Prod.ext given balanced)
  | error e => exact bind_error (Prod.ext given balanced)

theorem pure_lexical (b : β) : Lexical (pure b : Resolving α β) :=
  ⟨fun _ => rfl, fun _ _ _ _ => rfl⟩

theorem of_except_lexical (r : Except (ExprError α) β) : Lexical (ofExcept r) :=
  ⟨fun _ => rfl, fun _ _ _ _ => rfl⟩

theorem bind_lexical (run : Resolving α β) (next : β → Resolving α γ)
    (lexical : Lexical run) (nextLexical : ∀ b, Lexical (next b)) : Lexical (run >>= next) := by
  constructor
  · intro s
    rw [bind_balanced run next s (lexical.balanced s)]
    cases (run s).1 with
    | ok b => exact (nextLexical b).balanced s
    | error e => rfl
  · intro s t axis depth
    rw [bind_balanced run next s (lexical.balanced s), bind_balanced run next t (lexical.balanced t),
      lexical.determined s t axis depth]
    cases (run t).1 with
    | ok b => exact (nextLexical b).determined s t axis depth
    | error e => rfl

-- Reading the scope is not lexical by itself: what is read must be used for its axis and depth only.
theorem scope_bind_lexical (next : Scope → Resolving α β) (nextLexical : ∀ s, Lexical (next s))
    (reads : ∀ s t : Scope, s.axis = t.axis → s.depth = t.depth → next s = next t) :
    Lexical (scope >>= next) := by
  constructor
  · intro s
    exact (nextLexical s).balanced s
  · intro s t axis depth
    have sameRun := (nextLexical s).determined s t axis depth
    rw [reads s t axis depth] at sameRun
    change (next s s).1 = (next t t).1
    rw [reads s t axis depth]
    exact sameRun

theorem with_axis_lexical (axis : Option Axis) (run : Resolving α β) (lexical : Lexical run) :
    Lexical (withAxis axis run) := by
  cases axis with
  | none => exact lexical
  | some a =>
      constructor
      · intro s
        rw [withAxis_some, lexical.balanced]
        rfl
      · intro s t _ depth
        rw [withAxis_some, withAxis_some]
        exact lexical.determined _ _ rfl depth

theorem deeper_lexical (run : Resolving α β) (lexical : Lexical run) : Lexical (deeper run) := by
  constructor
  · intro s
    rw [deeper_apply, lexical.balanced]
    rfl
  · intro s t axis depth
    rw [deeper_apply, deeper_apply]
    exact lexical.determined _ _ axis (congrArg (· + 1) depth)

end Resolving

namespace Node

open Resolving

variable {α : Type}

theorem resolve_var_lexical (ctx : Context α) (below : Node α → Resolving α (Option (Node α)))
    (name : String) (fallback : Option (Node α)) (lexical : ∀ n, Lexical (below n)) :
    Lexical (resolveVar ctx below name fallback) := by
  apply scope_bind_lexical
  · intro s
    by_cases tooDeep : maxDepth ≤ s.depth
    · simpa only [if_pos tooDeep] using of_except_lexical _
    · simp only [if_neg tooDeep]
      apply deeper_lexical
      cases valueOf ctx name fallback with
      | none => exact pure_lexical none
      | some value => exact lexical value
  · intro s t _ depth
    rw [depth]

variable [Scalar α]

theorem sum_of_lexical (ctx : Context α) (op : SumOp) (left right : Option (Node α)) :
    Lexical (sumOf ctx op left right) := by
  cases left with
  | none => exact pure_lexical none
  | some m =>
      cases right with
      | none => exact pure_lexical none
      | some n =>
          apply scope_bind_lexical
          · exact fun s => of_except_lexical _
          · intro s t axis _
            rw [axis]

theorem product_of_lexical (op : ProductOp) (left right : Option (Node α)) :
    Lexical (productOf op left right) := by
  cases left with
  | none => exact pure_lexical none
  | some m =>
      cases right with
      | none => exact pure_lexical none
      | some n => exact of_except_lexical _

theorem num_of_lexical (ctx : Context α) (value : Option (Node α)) : Lexical (numOf ctx value) := by
  unfold numOf
  split
  · exact of_except_lexical _
  · exact pure_lexical none

-- What lies a level further in is lexical by assumption, so that these follow the expression alone;
-- the levels are counted afterwards.
mutual
theorem resolve_level_lexical (ctx : Context α) (below : Node α → Resolving α (Option (Node α)))
    (lexical : ∀ n, Lexical (below n)) (node : Node α) : Lexical (resolveLevel ctx below node) := by
  rw [resolveLevel.eq_def]
  by_cases constant : node.isConstant
  · simpa only [if_pos constant] using pure_lexical (some node)
  · rw [if_neg constant]
    cases node with
    | raw css => exact pure_lexical _
    | numeric n => exact pure_lexical _
    | concat ns =>
        exact bind_lexical _ _ (resolve_items_lexical ctx below lexical ns) (fun _ => pure_lexical _)
    | url address => exact bind_lexical _ _ (of_except_lexical _) (fun _ => pure_lexical _)
    | call name args axes =>
        exact bind_lexical _ _ (resolve_args_lexical ctx below lexical args (axes.getD []))
          (fun _ => pure_lexical _)
    | var name fallback => exact resolve_var_lexical ctx below name fallback lexical
    | calculation inner => exact resolve_level_lexical ctx below lexical inner
    | sum left op right =>
        exact bind_lexical _ _ (resolve_level_lexical ctx below lexical left) fun _ =>
          bind_lexical _ _ (resolve_level_lexical ctx below lexical right) fun _ =>
            sum_of_lexical ctx op _ _
    | product left op right =>
        exact bind_lexical _ _ (resolve_level_lexical ctx below lexical left) fun _ =>
          bind_lexical _ _ (resolve_level_lexical ctx below lexical right) fun _ =>
            product_of_lexical op _ _
    | num inner =>
        exact bind_lexical _ _ (resolve_level_lexical ctx below lexical inner) (num_of_lexical ctx)
    | index => exact pure_lexical _

theorem resolve_items_lexical (ctx : Context α) (below : Node α → Resolving α (Option (Node α)))
    (lexical : ∀ n, Lexical (below n)) (ns : List (Node α)) : Lexical (resolveItems ctx below ns) := by
  cases ns with
  | nil => exact pure_lexical _
  | cons n rest =>
      apply bind_lexical _ _ (resolve_level_lexical ctx below lexical n)
      intro value
      cases value with
      | none => exact pure_lexical none
      | some m =>
          exact bind_lexical _ _ (resolve_items_lexical ctx below lexical rest) (fun _ => pure_lexical _)

theorem resolve_args_lexical (ctx : Context α) (below : Node α → Resolving α (Option (Node α)))
    (lexical : ∀ n, Lexical (below n)) (ns : List (Node α)) (axes : List Axis) :
    Lexical (resolveArgs ctx below ns axes) := by
  cases ns with
  | nil => exact pure_lexical _
  | cons n rest =>
      apply bind_lexical _ _ (with_axis_lexical _ _ (resolve_level_lexical ctx below lexical n))
      intro value
      cases value with
      | none => exact pure_lexical none
      | some m =>
          exact bind_lexical _ _ (resolve_args_lexical ctx below lexical rest axes.tail)
            (fun _ => pure_lexical _)
end

theorem resolve_within_lexical (ctx : Context α) (levels : Nat) (node : Node α) :
    Lexical (resolveWithin ctx levels node) := by
  induction levels generalizing node with
  | zero => exact resolve_level_lexical ctx _ (fun _ => pure_lexical none) node
  | succ levels ih => exact resolve_level_lexical ctx _ ih node

theorem resolve_in_lexical (ctx : Context α) (node : Node α) : Lexical (node.resolveIn ctx) := by
  constructor
  · exact fun s => (resolve_within_lexical ctx (maxDepth - s.depth) node).balanced s
  · intro s t axis depth
    have same := (resolve_within_lexical ctx (maxDepth - s.depth) node).determined s t axis depth
    simpa only [resolveIn, depth] using same

end Node

end StyleCalc
