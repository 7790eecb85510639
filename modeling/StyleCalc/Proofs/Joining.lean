import StyleCalc.Proofs.Outcome

set_option autoImplicit false

namespace StyleCalc.Node

variable {α : Type}

theorem join_assoc (a b c : Node α) : (a.join b).join c = a.join (b.join c) :=
  congrArg concat (List.append_assoc a.items b.items c.items)

theorem join_constant_iff (a b : Node α) : (a.join b).isConstant ↔ a.isConstant ∧ b.isConstant := by
  simp [isConstant_eq_items]

theorem items_empty (a : Node α) : a.items = [] ↔ a = .concat [] := by
  cases a <;> simp [items]

-- What a value of the expression adds to a sequence that the expression stands in. The value of anything
-- but a sequence is one item, even if it happens to be a sequence itself.
def pieces : Node α → Node α → List (Node α)
  | .concat _, value => value.items
  | _, value => [value]

variable [Scalar α]

theorem joined_pieces (a value : Node α) : joinedText " " (a.pieces value) = value.text := by
  cases a with
  | concat ns => exact (text_eq_items value).symm
  | _ => exact joinedText_singleton " " value

theorem collect_items (ctx : Context α) (axis : Option Axis) (depth : Nat) (a : Node α) :
    collect (a.items.map (outcome ctx axis depth)) = (a.outcome ctx axis depth).map (·.map a.pieces) := by
  have single (r : Except (ExprError α) (Option (Node α))) : collect [r] = r.map (·.map fun value => [value]) := by
    match r with
    | .error e => rfl
    | .ok none => rfl
    | .ok (some value) => rfl
  cases a with
  | concat ns =>
      rw [outcome_concat, items_concat]
      match collect (ns.map (outcome ctx axis depth)) with
      | .error e => rfl
      | .ok none => rfl
      | .ok (some values) => rfl
  | _ => exact single _

theorem pieces_empty (ctx : Context α) (axis : Option Axis) (depth : Nat) (a value : Node α)
    (given : a.outcome ctx axis depth = .ok (some value)) : a.pieces value = [] ↔ a = .concat [] := by
  cases a with
  | concat ns =>
      have row := collect_items ctx axis depth (.concat ns)
      rw [given] at row
      have values := (collect_some_iff _ _).mp row
      have lengths := congrArg List.length values
      rw [List.length_map, List.length_map, items_concat] at lengths
      rw [← List.length_eq_zero_iff, ← lengths, List.length_eq_zero_iff, concat.injEq]
  | _ => simp [pieces]

theorem outcome_join (ctx : Context α) (axis : Option Axis) (depth : Nat) (a b : Node α) :
    (a.join b).outcome ctx axis depth = a.outcome ctx axis depth >>= fun
      | none => .ok none
      | some x => (b.outcome ctx axis depth).map (·.map fun y => .concat (a.pieces x ++ b.pieces y)) := by
  rw [join, outcome_concat, List.map_append, collect_append, collect_items, collect_items]
  match a.outcome ctx axis depth with
  | .error e => rfl
  | .ok none => rfl
  | .ok (some x) =>
      match b.outcome ctx axis depth with
      | .error e => rfl
      | .ok none => rfl
      | .ok (some y) => rfl

structure Spaced (a b : Node α) (left right joined : String) : Prop where
  leftEmpty : a = .concat [] → joined = right
  rightEmpty : b = .concat [] → joined = left
  between : a ≠ .concat [] → b ≠ .concat [] → joined = left ++ " " ++ right

theorem spaced_rows (a b : Node α) (ms ns : List (Node α)) (left : ms = [] ↔ a = .concat [])
    (right : ns = [] ↔ b = .concat []) :
    Spaced a b (joinedText " " ms) (joinedText " " ns) (joinedText " " (ms ++ ns)) := by
  constructor
  · intro empty
    rw [left.mpr empty, List.nil_append]
  · intro empty
    rw [right.mpr empty, List.append_nil]
  · intro some some'
    exact joinedText_append " " ms ns (mt left.mp some) (mt right.mp some')

inductive InSequence (a b : Node α) : Except (ExprError α) (Option (Node α)) →
    Except (ExprError α) (Option (Node α)) → Except (ExprError α) (Option (Node α)) → Prop where
  | leftError (e : ExprError α) (right : Except (ExprError α) (Option (Node α))) :
      InSequence a b (.error e) right (.error e)
  | leftMissing (right : Except (ExprError α) (Option (Node α))) : InSequence a b (.ok none) right (.ok none)
  | rightError (x : Node α) (e : ExprError α) : InSequence a b (.ok (some x)) (.error e) (.error e)
  | rightMissing (x : Node α) : InSequence a b (.ok (some x)) (.ok none) (.ok none)
  | values (x y out : Node α) (spaced : Spaced a b x.text y.text out.text) :
      InSequence a b (.ok (some x)) (.ok (some y)) (.ok (some out))

theorem outcome_in_sequence (ctx : Context α) (axis : Option Axis) (depth : Nat) (a b : Node α) :
    InSequence a b (a.outcome ctx axis depth) (b.outcome ctx axis depth) ((a.join b).outcome ctx axis depth) := by
  have left := pieces_empty ctx axis depth a
  have right := pieces_empty ctx axis depth b
  rw [outcome_join]
  generalize a.outcome ctx axis depth = r at left
  generalize b.outcome ctx axis depth = s at right
  match r, s with
  | .error e, s => exact .leftError e s
  | .ok none, s => exact .leftMissing s
  | .ok (some x), .error e => exact .rightError x e
  | .ok (some x), .ok none => exact .rightMissing x
  | .ok (some x), .ok (some y) =>
      refine .values x y (.concat (a.pieces x ++ b.pieces y)) ?_
      rw [← joined_pieces a x, ← joined_pieces b y, text_eq_items, items_concat]
      exact spaced_rows a b _ _ (left x rfl) (right y rfl)

theorem join_text (a b : Node α) : Spaced a b a.text b.text (a.join b).text := by
  rw [text_eq_items a, text_eq_items b, text_eq_items, items_join]
  exact spaced_rows a b a.items b.items (items_empty a) (items_empty b)

theorem resolution_distributes_over_joining :
    (∀ a b c : Node α, (a.join b).join c = a.join (b.join c)) ∧
    ∀ a b : Node α,
      ((a.join b).isConstant ↔ a.isConstant ∧ b.isConstant) ∧
      Spaced a b a.text b.text (a.join b).text ∧
      ∀ (ctx : Context α) (scope : Scope),
        InSequence a b (a.resolveIn ctx scope).1 (b.resolveIn ctx scope).1 ((a.join b).resolveIn ctx scope).1 := by
  refine ⟨join_assoc, fun a b => ⟨join_constant_iff a b, join_text a b, ?_⟩⟩
  intro ctx scope
  simp only [resolve_in_outcome]
  exact outcome_in_sequence ctx scope.axis scope.depth a b

end StyleCalc.Node
