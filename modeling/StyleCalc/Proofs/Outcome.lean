import StyleCalc.Double
import StyleCalc.Proofs.Lexical
import StyleCalc.Proofs.Units
/-!
What an expression comes to under an axis at a depth, without a scope to thread: one equation for
each form of expression.
-/

set_option autoImplicit false

namespace StyleCalc

def Context.page (lookup : String → Option (Node Float)) : Context Float where
  resolveUrl address := .ok ("https://page/" ++ address)
  lookup := lookup
  fontSize := 16
  rootFontSize := 16
  viewport := ⟨800, 600⟩
  element := ⟨200, 100⟩
  index := 3

namespace Node

open Resolving Numeric

variable {α : Type}

theorem all_constant_iff (ns : List (Node α)) : allConstant ns ↔ ∀ n ∈ ns, n.isConstant := by
  rw [allConstant_eq_all, List.all_eq_true]

def combine (symbol : Char) (apply : Numeric α → Numeric α → Except (ExprError α) (Option (Numeric α))) :
    Option (Node α) → Option (Node α) → Except (ExprError α) (Option (Node α))
  | some left, some right => do
      let (m, n) ← operands left symbol right
      return ofNumeric? (← apply m n)
  | _, _ => .ok none

theorem operands_ok (left right : Node α) (symbol : Char) (m n : Numeric α)
    (given : operands left symbol right = .ok (m, n)) : left = .numeric m ∧ right = .numeric n := by
  unfold operands at given
  split at given
  · cases given
    exact ⟨rfl, rfl⟩
  · cases given

theorem of_numeric_some_iff (n : Option (Numeric α)) (out : Node α) :
    ofNumeric? n = some out ↔ ∃ r, n = some r ∧ out = .numeric r := by
  cases n with
  | none => simp [ofNumeric?]
  | some r => simp [ofNumeric?, eq_comm]

theorem combine_numeric (symbol : Char)
    (apply : Numeric α → Numeric α → Except (ExprError α) (Option (Numeric α))) (m n : Numeric α) :
    combine symbol apply (some (.numeric m)) (some (.numeric n)) = (apply m n).map ofNumeric? := by
  change (apply m n >>= fun r => .ok (ofNumeric? r)) = _
  cases apply m n <;> rfl

theorem combine_ok (symbol : Char)
    (apply : Numeric α → Numeric α → Except (ExprError α) (Option (Numeric α))) (left right : Node α)
    (result : Option (Node α)) (given : combine symbol apply (some left) (some right) = .ok result) :
    ∃ m n r, left = .numeric m ∧ right = .numeric n ∧ apply m n = .ok r ∧ ofNumeric? r = result := by
  obtain ⟨⟨m, n⟩, numerics, applied⟩ := (except_bind_ok_iff _ _ _).mp given
  obtain ⟨leftNumeric, rightNumeric⟩ := operands_ok left right symbol m n numerics
  obtain ⟨r, computed, value⟩ := (except_bind_ok_iff _ _ _).mp applied
  exact ⟨m, n, r, leftNumeric, rightNumeric, computed, Except.ok.inj value⟩

theorem combine_some (symbol : Char)
    (apply : Numeric α → Numeric α → Except (ExprError α) (Option (Numeric α))) (a b : Option (Node α))
    (out : Node α) (given : combine symbol apply a b = .ok (some out)) :
    ∃ m n r, a = some (.numeric m) ∧ b = some (.numeric n) ∧ apply m n = .ok (some r) ∧ out = .numeric r := by
  match a, b with
  | none, _ => simp [combine] at given
  | some _, none => simp [combine] at given
  | some left, some right =>
      obtain ⟨m, n, r, rfl, rfl, applied, value⟩ := combine_ok symbol apply left right _ given
      obtain ⟨q, rfl, rfl⟩ := (of_numeric_some_iff r out).mp value
      exact ⟨m, n, q, rfl, rfl, applied, rfl⟩

def binary (symbol : Char) (apply : Numeric α → Numeric α → Except (ExprError α) (Option (Numeric α)))
    (left right : Except (ExprError α) (Option (Node α))) : Except (ExprError α) (Option (Node α)) :=
  left >>= fun a => right >>= fun b => combine symbol apply a b

theorem binary_some (symbol : Char)
    (apply : Numeric α → Numeric α → Except (ExprError α) (Option (Numeric α)))
    (left right : Except (ExprError α) (Option (Node α))) (out : Node α)
    (given : binary symbol apply left right = .ok (some out)) :
    ∃ m n r, left = .ok (some (.numeric m)) ∧ right = .ok (some (.numeric n)) ∧
      apply m n = .ok (some r) ∧ out = .numeric r := by
  obtain ⟨a, first, rest⟩ := (except_bind_ok_iff _ _ _).mp given
  obtain ⟨b, second, combined⟩ := (except_bind_ok_iff _ _ _).mp rest
  obtain ⟨m, n, r, rfl, rfl, applied, same⟩ := combine_some symbol apply a b out combined
  exact ⟨m, n, r, first, second, applied, same⟩

theorem binary_none (symbol : Char)
    (apply : Numeric α → Numeric α → Except (ExprError α) (Option (Numeric α)))
    (left right : Except (ExprError α) (Option (Node α)))
    (given : binary symbol apply left right = .ok none) :
    left = .ok none ∨ right = .ok none ∨
      ∃ m n, left = .ok (some (.numeric m)) ∧ right = .ok (some (.numeric n)) ∧ apply m n = .ok none := by
  obtain ⟨a, first, rest⟩ := (except_bind_ok_iff _ _ _).mp given
  obtain ⟨b, second, combined⟩ := (except_bind_ok_iff _ _ _).mp rest
  match a, b with
  | none, _ => exact .inl first
  | some _, none => exact .inr (.inl second)
  | some leftValue, some rightValue =>
      obtain ⟨m, n, r, rfl, rfl, applied, value⟩ := combine_ok symbol apply leftValue rightValue _ combined
      have missing : r = none := by simpa [ofNumeric?] using value
      exact .inr (.inr ⟨m, n, first, second, missing ▸ applied⟩)

variable [Scalar α]

def plain (ctx : Context α) : Option (Node α) → Except (ExprError α) (Option (Node α))
  | some (.numeric n) => do
      let n ← n.normalize ctx
      return ofNumeric? (Numeric.count n.value).finite?
  | _ => .ok none

theorem plain_some (ctx : Context α) (value : Option (Node α)) (out : Node α)
    (given : plain ctx value = .ok (some out)) :
    ∃ n r, value = some (.numeric n) ∧ n.normalize ctx = .ok r ∧ Scalar.isFinite r.value ∧
      out = .numeric (Numeric.count r.value) := by
  unfold plain at given
  split at given
  · rename_i n
    obtain ⟨r, normalized, finite⟩ := (except_bind_ok_iff _ _ _).mp given
    obtain ⟨q, counted, rfl⟩ := (of_numeric_some_iff _ out).mp (Except.ok.inj finite)
    obtain ⟨isFinite, rfl⟩ := finite_some (Numeric.count r.value) q counted
    exact ⟨n, r, rfl, normalized, isFinite, rfl⟩
  · cases given

-- Any scope with this axis innermost gives the same, so the shortest one stands for all of them.
def outcome (ctx : Context α) (axis : Option Axis) (depth : Nat) (node : Node α) :
    Except (ExprError α) (Option (Node α)) :=
  (node.resolveIn ctx ⟨axis.toList, depth⟩).1

theorem resolve_in_outcome (ctx : Context α) (node : Node α) (s : Scope) :
    node.resolveIn ctx s = (node.outcome ctx s.axis s.depth, s) := by
  apply Prod.ext
  · refine (resolve_in_lexical ctx node).determined s ⟨s.axis.toList, s.depth⟩ ?_ rfl
    obtain ⟨axes, depth⟩ := s
    cases axes <;> rfl
  · exact (resolve_in_lexical ctx node).balanced s

def further (ctx : Context α) (depth : Nat) : Node α → Resolving α (Option (Node α)) :=
  match maxDepth - depth with
  | 0 => fun _ => pure none
  | levels + 1 => resolveWithin ctx levels

theorem resolve_in_level (ctx : Context α) (node : Node α) (s : Scope) :
    node.resolveIn ctx s = resolveLevel ctx (further ctx s.depth) node s := by
  unfold resolveIn further
  cases maxDepth - s.depth <;> rfl

theorem further_resolve_in (ctx : Context α) (depth : Nat) (node : Node α) (s : Scope)
    (room : depth < maxDepth) (next : s.depth = depth + 1) : further ctx depth node s = node.resolveIn ctx s := by
  have levels : maxDepth - depth = (maxDepth - s.depth) + 1 := by omega
  rw [further, levels]
  rfl

theorem resolve_level_outcome (ctx : Context α) (node : Node α) (s : Scope) :
    resolveLevel ctx (further ctx s.depth) node s = (node.outcome ctx s.axis s.depth, s) := by
  rw [← resolve_in_level, resolve_in_outcome]

theorem resolve_items_outcome (ctx : Context α) (ns : List (Node α)) (s : Scope) :
    resolveItems ctx (further ctx s.depth) ns s =
      (collect (ns.map (outcome ctx s.axis s.depth)), s) := by
  induction ns with
  | nil => rfl
  | cons n rest ih =>
      rw [resolveItems, bind_balanced _ _ s (by rw [resolve_level_outcome]), resolve_level_outcome,
        List.map_cons]
      match n.outcome ctx s.axis s.depth with
      | .error e => rfl
      | .ok none => rfl
      | .ok (some m) =>
          dsimp only
          rw [bind_balanced _ _ s (by rw [ih]), ih, collect]
          cases collect (rest.map (outcome ctx s.axis s.depth)) <;> rfl

theorem with_axis_outcome (ctx : Context α) (axis : Option Axis) (node : Node α) (s : Scope) :
    withAxis axis (resolveLevel ctx (further ctx s.depth) node) s =
      (node.outcome ctx (axis.or s.axis) s.depth, s) := by
  cases axis with
  | none => exact resolve_level_outcome ctx node s
  | some a =>
      rw [withAxis_some]
      have inner := resolve_level_outcome ctx node { s with axes := a :: s.axes }
      dsimp only at inner
      rw [inner]
      rfl

theorem resolve_args_outcome (ctx : Context α) (ns : List (Node α)) (axes : List Axis) (s : Scope) :
    resolveArgs ctx (further ctx s.depth) ns axes s =
      (collect (ns.mapIdx fun i n => n.outcome ctx (axes[i]?.or s.axis) s.depth), s) := by
  induction ns generalizing axes with
  | nil => rfl
  | cons n rest ih =>
      rw [resolveArgs, bind_balanced _ _ s (by rw [with_axis_outcome]), with_axis_outcome,
        List.mapIdx_cons, List.head?_eq_getElem?]
      match n.outcome ctx (axes[0]?.or s.axis) s.depth with
      | .error e => rfl
      | .ok none => rfl
      | .ok (some m) =>
          dsimp only
          rw [bind_balanced _ _ s (by rw [ih]), ih, collect]
          simp only [List.getElem?_tail]
          cases collect (rest.mapIdx fun i n => n.outcome ctx (axes[i + 1]?.or s.axis) s.depth) <;> rfl

@[simp]
theorem to_list_axis (axis : Option Axis) (depth : Nat) : (⟨axis.toList, depth⟩ : Scope).axis = axis := by
  cases axis <;> rfl

theorem outcome_level (ctx : Context α) (axis : Option Axis) (depth : Nat) (node : Node α) :
    node.outcome ctx axis depth = (resolveLevel ctx (further ctx depth) node ⟨axis.toList, depth⟩).1 := by
  rw [outcome, resolve_in_level]

theorem outcome_constant (ctx : Context α) (axis : Option Axis) (depth : Nat) (node : Node α)
    (constant : node.isConstant) : node.outcome ctx axis depth = .ok (some node) := by
  rw [outcome_level, resolveLevel.eq_def, if_pos constant]
  rfl

@[simp]
theorem outcome_raw (ctx : Context α) (axis : Option Axis) (depth : Nat) (css : String) :
    (raw css).outcome ctx axis depth = .ok (some (.raw css)) :=
  outcome_constant ctx axis depth _ rfl

@[simp]
theorem outcome_numeric (ctx : Context α) (axis : Option Axis) (depth : Nat) (n : Numeric α) :
    (numeric n).outcome ctx axis depth = .ok (some (.numeric n)) :=
  outcome_constant ctx axis depth _ rfl

-- The equations for sequences and calls hold of constant ones too, which are rebuilt as they are.
@[simp]
theorem outcome_concat (ctx : Context α) (axis : Option Axis) (depth : Nat) (ns : List (Node α)) :
    (concat ns).outcome ctx axis depth =
      (collect (ns.map (outcome ctx axis depth))).map (·.map .concat) := by
  by_cases constant : (concat ns).isConstant
  · have each := (all_constant_iff ns).mp (by simpa only [isConstant] using constant)
    rw [outcome_constant ctx axis depth _ constant,
      List.map_congr_left fun n member => outcome_constant ctx axis depth n (each n member), collect_values]
    rfl
  · rw [outcome_level, resolveLevel.eq_def, if_neg constant]
    dsimp only
    have items := resolve_items_outcome ctx ns ⟨axis.toList, depth⟩
    rw [to_list_axis] at items
    rw [bind_balanced _ _ _ (by rw [items]), items]
    cases collect (ns.map (outcome ctx axis depth)) <;> rfl

@[simp]
theorem outcome_call (ctx : Context α) (axis : Option Axis) (depth : Nat) (name : String)
    (args : List (Node α)) (axes : Option (List Axis)) :
    (call name args axes).outcome ctx axis depth =
      (collect (args.mapIdx fun i n => n.outcome ctx ((axes.getD [])[i]?.or axis) depth)).map
        (·.map (.call name · axes)) := by
  by_cases constant : (call name args axes).isConstant
  · have each := (all_constant_iff args).mp (by simpa only [isConstant] using constant)
    have rebuilt : (args.mapIdx fun i n => n.outcome ctx ((axes.getD [])[i]?.or axis) depth) =
        args.map fun n => .ok (some n) := by
      rw [List.mapIdx_eq_iff]
      intro i
      rw [List.getElem?_map]
      cases found : args[i]? with
      | none => rfl
      | some n => simp only [Option.map_some, outcome_constant ctx _ depth n (each n (List.mem_of_getElem? found))]
    rw [outcome_constant ctx axis depth _ constant, rebuilt, collect_values]
    rfl
  · rw [outcome_level, resolveLevel.eq_def, if_neg constant]
    dsimp only
    have resolved := resolve_args_outcome ctx args (axes.getD []) ⟨axis.toList, depth⟩
    rw [to_list_axis] at resolved
    rw [bind_balanced _ _ _ (by rw [resolved]), resolved]
    cases collect (args.mapIdx fun i n => n.outcome ctx ((axes.getD [])[i]?.or axis) depth) <;> rfl

theorem outcome_url (ctx : Context α) (axis : Option Axis) (depth : Nat) (address : String)
    (notFinal : ¬ isFinalAddress address) :
    (url address).outcome ctx axis depth =
      (ctx.resolveUrl address).map fun final => some (.raw ("url(\"" ++ final ++ "\")")) := by
  rw [outcome_level, resolveLevel.eq_def, if_neg (by simpa only [isConstant] using notFinal)]
  cases given : ctx.resolveUrl address with
  | error e => exact congrArg Prod.fst (bind_error (m := ofExcept (ctx.resolveUrl address)) (by rw [given]; rfl))
  | ok final => exact congrArg Prod.fst (bind_ok (m := ofExcept (ctx.resolveUrl address)) (by rw [given]; rfl))

theorem outcome_var (ctx : Context α) (axis : Option Axis) (depth : Nat) (name : String)
    (fallback : Option (Node α)) :
    (var name fallback).outcome ctx axis depth =
      if maxDepth ≤ depth then .error (.maxDepthExceeded name)
      else
        match valueOf ctx name fallback with
        | some value => value.outcome ctx axis (depth + 1)
        | none => .ok none := by
  rw [outcome_level, resolveLevel.eq_def, if_neg (by simp [isConstant])]
  dsimp only [resolveVar]
  rw [bind_ok (m := Resolving.scope) (s := ⟨axis.toList, depth⟩) rfl]
  by_cases tooDeep : maxDepth ≤ depth
  · rw [if_pos tooDeep, if_pos tooDeep]
    rfl
  · rw [if_neg tooDeep, if_neg tooDeep, deeper_apply]
    cases valueOf ctx name fallback with
    | none => rfl
    | some value =>
        have inside := congrArg Prod.fst (further_resolve_in ctx depth value ⟨axis.toList, depth + 1⟩
          (Nat.lt_of_not_le tooDeep) rfl)
        exact inside

@[simp]
theorem outcome_calculation (ctx : Context α) (axis : Option Axis) (depth : Nat) (inner : Node α) :
    (calculation inner).outcome ctx axis depth = inner.outcome ctx axis depth := by
  rw [outcome_level, outcome_level, resolveLevel.eq_def, if_neg (by simp [isConstant])]

theorem sum_of_combine (ctx : Context α) (op : SumOp) (left right : Option (Node α)) (s : Scope) :
    sumOf ctx op left right s = (combine op.symbol (fun m n => m.sum ctx s.axis op n) left right, s) := by
  cases left with
  | none => rfl
  | some m => cases right <;> rfl

theorem product_of_combine (op : ProductOp) (left right : Option (Node α)) (s : Scope) :
    productOf op left right s = (combine op.symbol (fun m n => m.product op n) left right, s) := by
  cases left with
  | none => rfl
  | some m => cases right <;> rfl

theorem num_of_plain (ctx : Context α) (value : Option (Node α)) (s : Scope) :
    numOf ctx value s = (plain ctx value, s) := by
  cases value with
  | none => rfl
  | some node => cases node <;> rfl

theorem bind_level (ctx : Context α) (axis : Option Axis) (depth : Nat) (node : Node α)
    (next : Option (Node α) → Resolving α (Option (Node α))) :
    ((resolveLevel ctx (further ctx depth) node >>= next) ⟨axis.toList, depth⟩).1 =
      node.outcome ctx axis depth >>= fun value => (next value ⟨axis.toList, depth⟩).1 := by
  have level := resolve_level_outcome ctx node ⟨axis.toList, depth⟩
  rw [to_list_axis] at level
  rw [bind_balanced _ _ _ (by rw [level]), level]
  cases node.outcome ctx axis depth <;> rfl

@[simp]
theorem outcome_sum (ctx : Context α) (axis : Option Axis) (depth : Nat) (left right : Node α) (op : SumOp) :
    (sum left op right).outcome ctx axis depth =
      binary op.symbol (fun m n => m.sum ctx axis op n) (left.outcome ctx axis depth)
        (right.outcome ctx axis depth) := by
  rw [outcome_level, resolveLevel.eq_def, if_neg (by simp [isConstant])]
  simp only [bind_level, sum_of_combine, to_list_axis, binary]

@[simp]
theorem outcome_product (ctx : Context α) (axis : Option Axis) (depth : Nat) (left right : Node α)
    (op : ProductOp) :
    (product left op right).outcome ctx axis depth =
      binary op.symbol (fun m n => m.product op n) (left.outcome ctx axis depth)
        (right.outcome ctx axis depth) := by
  rw [outcome_level, resolveLevel.eq_def, if_neg (by simp [isConstant])]
  simp only [bind_level, product_of_combine, binary]

@[simp]
theorem outcome_num (ctx : Context α) (axis : Option Axis) (depth : Nat) (inner : Node α) :
    (num inner).outcome ctx axis depth =
      (inner.outcome ctx axis depth >>= plain ctx) := by
  rw [outcome_level, resolveLevel.eq_def, if_neg (by simp [isConstant])]
  simp only [bind_level, num_of_plain]

@[simp]
theorem outcome_index (ctx : Context α) (axis : Option Axis) (depth : Nat) :
    (index : Node α).outcome ctx axis depth = .ok (some (.numeric (Numeric.count (Scalar.ofNat ctx.index)))) := by
  rw [outcome_level, resolveLevel.eq_def, if_neg (by simp [isConstant])]
  rfl

end Node

end StyleCalc
