import StyleCalc.Resolve

set_option autoImplicit false

namespace StyleCalc.Node

variable {α : Type}

def parts : Node α → List (Node α)
  | .concat ns => ns
  | .call _ args _ => args
  | .var _ fallback => fallback.toList
  | .calculation inner => [inner]
  | .sum left _ right => [left, right]
  | .product left _ right => [left, right]
  | .num inner => [inner]
  | _ => []

theorem part_smaller (node part : Node α) (member : part ∈ node.parts) : sizeOf part < sizeOf node := by
  cases node with
  | concat ns =>
      have smaller := List.sizeOf_lt_of_mem (show part ∈ ns from member)
      simp only [concat.sizeOf_spec]
      omega
  | call name args axes =>
      have smaller := List.sizeOf_lt_of_mem (show part ∈ args from member)
      simp only [call.sizeOf_spec]
      omega
  | var name fallback =>
      have same : fallback = some part := by simpa [parts] using member
      simp only [same, var.sizeOf_spec, Option.some.sizeOf_spec]
      omega
  | calculation inner =>
      have same : part = inner := by simpa [parts] using member
      simp only [same, calculation.sizeOf_spec]
      omega
  | num inner =>
      have same : part = inner := by simpa [parts] using member
      simp only [same, num.sizeOf_spec]
      omega
  | sum left op right =>
      have same : part = left ∨ part = right := by simpa [parts] using member
      rcases same with rfl | rfl <;> simp only [sum.sizeOf_spec] <;> omega
  | product left op right =>
      have same : part = left ∨ part = right := by simpa [parts] using member
      rcases same with rfl | rfl <;> simp only [product.sizeOf_spec] <;> omega
  | raw css => simp [parts] at member
  | url address => simp [parts] at member
  | numeric n => simp [parts] at member
  | index => simp [parts] at member

-- A variable goes on with any expression at all, but one level deeper; everything else goes on with
-- a part at the same depth.
theorem depth_induction {motive : Nat → Node α → Prop}
    (step : ∀ depth node, (depth < maxDepth → ∀ value, motive (depth + 1) value) →
      (∀ part ∈ node.parts, motive depth part) → motive depth node)
    (depth : Nat) (node : Node α) : motive depth node :=
  step depth node (fun _ value => depth_induction step (depth + 1) value)
    (fun part _ => depth_induction step depth part)
termination_by (maxDepth - depth, sizeOf node)
decreasing_by
  · exact Prod.Lex.left _ _ (by omega)
  · exact Prod.Lex.right _ (part_smaller node part (by assumption))

inductive Occurs (root : Node α) : Node α → Prop where
  | root : Occurs root root
  | part (node part : Node α) (previous : Occurs root node) (member : part ∈ node.parts) : Occurs root part

theorem occurs_in_part (root part node : Node α) (member : part ∈ root.parts) (occurs : Occurs part node) :
    Occurs root node := by
  induction occurs with
  | root => exact .part root part .root member
  | part previous inner _ among ih => exact .part previous inner ih among

theorem occurs_cases (root inner : Node α) (occurs : Occurs root inner) :
    inner = root ∨ ∃ part ∈ root.parts, Occurs part inner := by
  induction occurs with
  | root => exact .inl rfl
  | part node part _ member ih =>
      right
      rcases ih with rfl | ⟨first, among, within⟩
      · exact ⟨part, member, .root⟩
      · exact ⟨first, among, .part node part within member⟩

inductive Reaches (ctx : Context α) (root : Node α) : Node α → Prop where
  | root : Reaches ctx root root
  | part (node part : Node α) (previous : Reaches ctx root node) (member : part ∈ node.parts) :
      Reaches ctx root part
  | value (name : String) (fallback : Option (Node α)) (value : Node α)
      (previous : Reaches ctx root (.var name fallback)) (bound : ctx.lookup name = some value) :
      Reaches ctx root value

theorem reaches_trans (ctx : Context α) (root middle node : Node α) (first : Reaches ctx root middle)
    (second : Reaches ctx middle node) : Reaches ctx root node := by
  induction second with
  | root => exact first
  | part node part _ member ih => exact .part node part ih member
  | value name fallback value _ bound ih => exact .value name fallback value ih bound

end StyleCalc.Node
