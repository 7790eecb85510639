import StyleCalc.Proofs.Descent
/-!
Resolution terminates. Read as a recursion without levels, it asks for smaller resolutions only, and
its calls nest finitely deep, whatever trees the variables stand for.
-/

set_option autoImplicit false

namespace StyleCalc

namespace Resolving

variable {α β γ : Type}

theorem bind_congr_at (run other : Resolving α β) (next next' : β → Resolving α γ) (s : Scope)
    (same : run s = other s) (balanced : (other s).2 = s) (nextSame : ∀ b, next b s = next' b s) :
    (run >>= next) s = (other >>= next') s := by
  rw [bind_balanced run next s (by rw [same, balanced]), bind_balanced other next' s balanced, same]
  cases (other s).1 with
  | ok b => exact nextSame b
  | error e => rfl

theorem with_axis_congr (axis : Option Axis) (run other : Resolving α β) (s : Scope)
    (same : run (s.under axis) = other (s.under axis)) : withAxis axis run s = withAxis axis other s := by
  cases axis with
  | none => exact same
  | some a =>
      rw [withAxis_some, withAxis_some, show run { s with axes := a :: s.axes } = _ from same]
      rfl

end Resolving

namespace Node

open Resolving

variable {α : Type}

def itemsBy (ask : Node α → Resolving α (Option (Node α))) :
    List (Node α) → Resolving α (Option (List (Node α)))
  | [] => pure (some [])
  | n :: ns => do
      match ← ask n with
      | none => pure none
      | some m => return (← itemsBy ask ns).map (m :: ·)

def argsBy (ask : Node α → Resolving α (Option (Node α))) :
    List (Node α) → List Axis → Resolving α (Option (List (Node α)))
  | [], _ => pure (some [])
  | n :: ns, axes => do
      match ← Resolving.withAxis axes.head? (ask n) with
      | none => pure none
      | some m => return (← argsBy ask ns axes.tail).map (m :: ·)

theorem resolve_var_congr (ctx : Context α) (ask other : Node α → Resolving α (Option (Node α)))
    (name : String) (fallback : Option (Node α)) (s : Scope)
    (same : s.depth < maxDepth → ∀ value, valueOf ctx name fallback = some value →
      ask value s.deeper = other value s.deeper) :
    resolveVar ctx ask name fallback s = resolveVar ctx other name fallback s := by
  dsimp only [resolveVar]
  rw [bind_ok (m := Resolving.scope) (s := s) rfl, bind_ok (m := Resolving.scope) (s := s) rfl]
  by_cases tooDeep : maxDepth ≤ s.depth
  · rw [if_pos tooDeep, if_pos tooDeep]
  · rw [if_neg tooDeep, if_neg tooDeep, deeper_apply, deeper_apply]
    cases given : valueOf ctx name fallback with
    | none => rfl
    | some value =>
        have answered := same (Nat.lt_of_not_le tooDeep) value given
        simp only [Scope.deeper] at answered
        simp only [answered]

variable [Scalar α]

-- One call of resolution. Every further resolution, of a part or of a variable's value, is asked for
-- and not made here.
def resolveOnce (ctx : Context α) (ask : Node α → Resolving α (Option (Node α))) (node : Node α) :
    Resolving α (Option (Node α)) :=
  if node.isConstant then pure (some node)
  else
    match node with
    | .raw css => pure (some (.raw css))
    | .numeric n => pure (some (.numeric n))
    | .concat ns => do
        return (← itemsBy ask ns).map .concat
    | .url address => do
        let final ← Resolving.ofExcept (ctx.resolveUrl address)
        return some (.raw ("url(\"" ++ final ++ "\")"))
    | .call name args axes => do
        return (← argsBy ask args (axes.getD [])).map (.call name · axes)
    | .var name fallback => resolveVar ctx ask name fallback
    | .calculation inner => ask inner
    | .sum left op right => do
        let left ← ask left
        let right ← ask right
        sumOf ctx op left right
    | .product left op right => do
        let left ← ask left
        let right ← ask right
        productOf op left right
    | .num inner => do
        numOf ctx (← ask inner)
    | .index => pure (some (.numeric (Numeric.count (Scalar.ofNat ctx.index))))

-- Calls of calls down to a given nesting. What is asked for beyond it gets any answer at all, so that
-- a result that no such answer can change has been computed.
def nested (ctx : Context α) (beyond : Node α → Resolving α (Option (Node α))) :
    Nat → Node α → Resolving α (Option (Node α))
  | 0 => beyond
  | nesting + 1 => resolveOnce ctx (nested ctx beyond nesting)

theorem items_by_resolve (ctx : Context α) (ask : Node α → Resolving α (Option (Node α)))
    (ns : List (Node α)) (s : Scope) (asked : ∀ n ∈ ns, ask n s = n.resolveIn ctx s) :
    itemsBy ask ns s = resolveItems ctx (further ctx s.depth) ns s := by
  induction ns with
  | nil => rfl
  | cons n rest ih =>
      have head : ask n s = resolveLevel ctx (further ctx s.depth) n s := by
        rw [asked n List.mem_cons_self, resolve_in_level]
      apply bind_congr_at _ _ _ _ s head (by rw [resolve_level_outcome])
      intro value
      cases value with
      | none => rfl
      | some m =>
          apply bind_congr_at _ _ _ _ s (ih fun n member => asked n (List.mem_cons_of_mem _ member))
            (by rw [resolve_items_outcome])
          exact fun _ => rfl

theorem args_by_resolve (ctx : Context α) (ask : Node α → Resolving α (Option (Node α)))
    (ns : List (Node α)) (axes : List Axis) (s : Scope)
    (asked : ∀ (i : Nat) (n : Node α), ns[i]? = some n →
      ask n (s.under axes[i]?) = n.resolveIn ctx (s.under axes[i]?)) :
    argsBy ask ns axes s = resolveArgs ctx (further ctx s.depth) ns axes s := by
  induction ns generalizing axes with
  | nil => rfl
  | cons n rest ih =>
      have head : ask n (s.under axes.head?) = resolveLevel ctx (further ctx s.depth) n (s.under axes.head?) := by
        rw [List.head?_eq_getElem?, asked 0 n rfl, resolve_in_level, Scope.under_depth]
      apply bind_congr_at _ _ _ _ s (with_axis_congr _ _ _ s head) (by rw [with_axis_outcome])
      intro value
      cases value with
      | none => rfl
      | some m =>
          have tail := ih axes.tail fun i n found => by
            simpa only [List.getElem?_tail] using asked (i + 1) n found
          exact bind_congr_at _ _ _ _ s tail (by rw [resolve_args_outcome]) fun _ => rfl

theorem operands_by_resolve (ctx : Context α) (ask : Node α → Resolving α (Option (Node α)))
    (left right : Node α) (next : Option (Node α) → Option (Node α) → Resolving α (Option (Node α))) (s : Scope)
    (askedLeft : ask left s = left.resolveIn ctx s) (askedRight : ask right s = right.resolveIn ctx s) :
    (ask left >>= fun a => ask right >>= fun b => next a b) s =
      (resolveLevel ctx (further ctx s.depth) left >>= fun a =>
        resolveLevel ctx (further ctx s.depth) right >>= fun b => next a b) s := by
  rw [resolve_in_level] at askedLeft askedRight
  apply bind_congr_at _ _ _ _ s askedLeft (by rw [resolve_level_outcome])
  intro a
  exact bind_congr_at _ _ _ _ s askedRight (by rw [resolve_level_outcome]) fun _ => rfl

theorem resolve_once_local (ctx : Context α) (ask : Node α → Resolving α (Option (Node α))) (node : Node α)
    (s : Scope) (asked : ∀ need ∈ needs ctx node s, ask need.1 need.2 = need.1.resolveIn ctx need.2) :
    resolveOnce ctx ask node s = node.resolveIn ctx s := by
  rw [resolve_in_level, resolveOnce.eq_def, resolveLevel.eq_def]
  by_cases constant : node.isConstant
  · rw [if_pos constant, if_pos constant]
  · rw [if_neg constant, if_neg constant]
    cases node with
    | raw css => rfl
    | numeric n => rfl
    | url address => rfl
    | index => rfl
    | concat ns =>
        have items := items_by_resolve ctx ask ns s fun n member =>
          asked (n, s) (List.mem_map_of_mem (f := fun n => (n, s)) member)
        exact bind_congr_at _ _ _ _ s items (by rw [resolve_items_outcome]) fun _ => rfl
    | call name args axes =>
        have arguments := args_by_resolve ctx ask args (axes.getD []) s fun i n found =>
          asked (n, s.under (axes.getD [])[i]?) (by
            obtain ⟨bound, same⟩ := List.getElem?_eq_some_iff.mp found
            exact List.mem_mapIdx.mpr ⟨i, bound, by rw [same]⟩)
        exact bind_congr_at _ _ _ _ s arguments (by rw [resolve_args_outcome]) fun _ => rfl
    | var name fallback =>
        apply resolve_var_congr
        intro room value given
        rw [further_resolve_in ctx s.depth value s.deeper room rfl]
        exact asked (value, s.deeper) ((needs_var_iff ctx name fallback s _).mpr ⟨room, value, given, rfl⟩)
    | calculation inner =>
        exact (asked (inner, s) List.mem_cons_self).trans (resolve_in_level ctx inner s)
    | sum left op right =>
        exact operands_by_resolve ctx ask left right (sumOf ctx op) s (asked (left, s) (by simp [needs]))
          (asked (right, s) (by simp [needs]))
    | product left op right =>
        exact operands_by_resolve ctx ask left right (productOf op) s (asked (left, s) (by simp [needs]))
          (asked (right, s) (by simp [needs]))
    | num inner =>
        have operand := (asked (inner, s) List.mem_cons_self).trans (resolve_in_level ctx inner s)
        exact bind_congr_at _ _ _ _ s operand (by rw [resolve_level_outcome]) fun _ => rfl

theorem enough_for_all (ctx : Context α) (row : List (Node α × Scope))
    (each : ∀ need ∈ row, ∃ enough, ∀ more beyond,
      nested ctx beyond (enough + more) need.1 need.2 = need.1.resolveIn ctx need.2) :
    ∃ enough, ∀ need ∈ row, ∀ more beyond,
      nested ctx beyond (enough + more) need.1 need.2 = need.1.resolveIn ctx need.2 := by
  induction row with
  | nil => exact ⟨0, fun need member => absurd member List.not_mem_nil⟩
  | cons first rest ih =>
      obtain ⟨a, here⟩ := each first List.mem_cons_self
      obtain ⟨b, later⟩ := ih fun need member => each need (List.mem_cons_of_mem _ member)
      refine ⟨a + b, fun need member more beyond => ?_⟩
      rcases List.mem_cons.mp member with rfl | among
      · rw [Nat.add_assoc]
        exact here (b + more) beyond
      · rw [Nat.add_comm a b, Nat.add_assoc]
        exact later need among (a + more) beyond

theorem enough_nesting (ctx : Context α) (node : Node α) (scope : Scope) :
    ∃ enough, ∀ more beyond, nested ctx beyond (enough + more) node scope = node.resolveIn ctx scope := by
  induction node, scope using needs_induction ctx with
  | step node scope ih =>
      obtain ⟨enough, all⟩ := enough_for_all ctx (needs ctx node scope) fun need needed =>
        ih need.1 need.2 needed
      refine ⟨enough + 1, fun more beyond => ?_⟩
      rw [Nat.add_right_comm]
      exact resolve_once_local ctx _ node scope fun need needed => all need needed more beyond

theorem resolution_terminates (ctx : Context α) (node : Node α) (scope : Scope) :
    (∃ enough, ∀ more beyond, nested ctx beyond (enough + more) node scope = node.resolveIn ctx scope) ∧
    ∀ ask : Node α → Resolving α (Option (Node α)),
      (∀ inner within, Smaller (inner, within) (node, scope) → ask inner within = inner.resolveIn ctx within) →
        resolveOnce ctx ask node scope = node.resolveIn ctx scope := by
  refine ⟨enough_nesting ctx node scope, ?_⟩
  intro ask smaller
  exact resolve_once_local ctx ask node scope fun need needed =>
    smaller need.1 need.2 (needs_smaller ctx node need.1 scope need.2 needed)

def loopPage : Context Float :=
  Context.page fun _ => some (var "--loop" none)

def fickle (node : Node Float) : Resolving Float (Option (Node Float)) :=
  fun scope => if scope.depth < 98 then (.ok none, Scope.start) else node.resolveIn loopPage scope

theorem loop_terminates :
    resolveOnce loopPage fickle (var "--loop" none) ⟨[], 98⟩ =
      (.error (.maxDepthExceeded "--loop"), ⟨[], 98⟩) := by
  have limit : (var "--loop" none).resolveIn loopPage ⟨[], 98⟩ =
      (.error (.maxDepthExceeded "--loop"), ⟨[], 98⟩) := rfl
  rw [← limit]
  apply (resolution_terminates loopPage (var "--loop" none) ⟨[], 98⟩).2 fickle
  intro inner within smaller
  have deep : ¬ within.depth < 98 := by
    have bound := Prod.lex_def.mp smaller
    simp only [maxDepth] at bound
    omega
  rw [fickle, if_neg deep]

end Node

end StyleCalc
