import StyleCalc.Proofs.Measures
import StyleCalc.Proofs.Origin

set_option autoImplicit false

namespace StyleCalc

variable {pi : Rat}

open Node

inductive Agrees (ctx : Context (Exact pi)) :
    Except (ExprError (Exact pi)) (Option (Node (Exact pi))) → Except Obstacle Quantity → Prop where
  | value (n : Numeric (Exact pi)) (q : Quantity) (measured : Measures ctx n q) :
      Agrees ctx (.ok (some (.numeric n))) (.ok q)
  | missing : Agrees ctx (.ok none) (.error .zeroDivisor)
  | error (e : ExprError (Exact pi)) (arithmetic : e.isArithmetic) (obstacle : Obstacle) :
      Agrees ctx (.error e) (.error obstacle)

theorem agrees_some (ctx : Context (Exact pi)) (out : Node (Exact pi)) (plain : Except Obstacle Quantity)
    (agrees : Agrees ctx (.ok (some out)) plain) :
    ∃ n q, out = .numeric n ∧ plain = .ok q ∧ Measures ctx n q := by
  cases agrees with
  | value n q measured => exact ⟨n, q, rfl, rfl, measured⟩

theorem agrees_none (ctx : Context (Exact pi)) (plain : Except Obstacle Quantity)
    (agrees : Agrees ctx (.ok none) plain) : plain = .error .zeroDivisor := by
  cases agrees with
  | missing => rfl

theorem agrees_zero_divisor (ctx : Context (Exact pi)) (k : Kind)
    (result : Except (ExprError (Exact pi)) (Option (Node (Exact pi)))) (kinded : Kinded k result)
    (agrees : Agrees ctx result (.error .zeroDivisor)) : result = .ok none := by
  cases agrees with
  | missing => rfl
  | error e arithmetic _ =>
      cases kinded with
      | tooDeep name => cases arithmetic

namespace Numeric

variable {ctx : Context (Exact pi)}

theorem same_kind_measures (finite : ctx.Finite) (axis : Option Axis) (op : SumOp) (m n : Numeric (Exact pi))
    (p q : Quantity) (left : Measures ctx m p) (right : Measures ctx n q) (k : Kind)
    (rule : Kind.sum? m.kind n.kind = some k) :
    ∃ m' n' p' q', sameKind ctx axis op m n = .ok (m', n') ∧ Measures ctx m' p' ∧ Measures ctx n' q' ∧
      p'.kind = q'.kind ∧ p.sum (ctx.side axis) op q = .ok ⟨p'.kind, op.plain p'.value q'.value⟩ := by
  have leftKind := left.kind_eq
  have rightKind := right.kind_eq
  by_cases agree : m.kind = n.kind
  · have kinds : p.kind = q.kind := by rw [← leftKind, ← rightKind, agree]
    exact ⟨m, n, p, q, by rw [sameKind, if_pos agree], left, right, kinds, Quantity.sum_same _ p op q kinds⟩
  · obtain ⟨_, ⟨percent, isLength⟩ | ⟨isLength, percent⟩⟩ := Kind.sum_mixed m.kind n.kind k agree rule
    · obtain ⟨m', converted, measured⟩ := Measures.of_percent finite axis p.value isLength
      refine ⟨m', n, _, q, ?_, measured, right, isLength.symm.trans rightKind, ?_⟩
      · rw [sameKind, if_neg agree, if_pos (by simp [isPercent, percent]), left.bare_value (.inr percent),
          converted]
        rfl
      · exact Quantity.sum_percent_left _ p op q (leftKind.symm.trans percent) (rightKind.symm.trans isLength)
    · obtain ⟨n', converted, measured⟩ := Measures.of_percent finite axis q.value isLength
      refine ⟨m, n', p, _, ?_, left, measured, leftKind.symm.trans isLength, ?_⟩
      · rw [sameKind, if_neg agree, if_neg (by simp [isPercent, isLength]), if_pos (by simp [isPercent, percent]),
          right.bare_value (.inr percent), converted]
        rfl
      · exact Quantity.sum_percent_right _ p op q (leftKind.symm.trans isLength) (rightKind.symm.trans percent)

theorem sum_agrees (finite : ctx.Finite) (axis : Option Axis) (op : SumOp) (m n : Numeric (Exact pi))
    (p q : Quantity) (left : Measures ctx m p) (right : Measures ctx n q) :
    Agrees ctx ((m.sum ctx axis op n).map ofNumeric?) (p.sum (ctx.side axis) op q) := by
  cases rule : Kind.sum? m.kind n.kind with
  | none =>
      have mismatch := rule
      rw [left.kind_eq, right.kind_eq] at mismatch
      rw [Quantity.sum_mismatch _ p op q mismatch]
      cases given : m.sum ctx axis op n with
      | error e => exact .error e (sum_arithmetic ctx axis op m n e given) .mismatch
      | ok result =>
          obtain ⟨k, allowed, _⟩ := sum_kind ctx axis op m n result given
          rw [rule] at allowed
          cases allowed
  | some k =>
      obtain ⟨m', n', p', q', kept, left', right', kinds, plain⟩ :=
        same_kind_measures finite axis op m n p q left right k rule
      obtain ⟨m'', n'', units, left'', right'', shared⟩ := left'.same_units right' finite kinds
      obtain ⟨x, added, measured⟩ := left''.add right'' op shared
      have value : m.sum ctx axis op n = .ok (some (m''.withValue (.value x))) := by
        rw [sum, kept]
        change (sameUnits ctx m' n' >>= _) = _
        rw [units]
        change Except.ok (m''.withValue (m''.value + op.sign * n''.value)).finite? = _
        rw [added]
        rfl
      rw [value, plain]
      exact .value _ _ measured

theorem product_agrees (op : ProductOp) (m n : Numeric (Exact pi)) (p q : Quantity) (left : Measures ctx m p)
    (right : Measures ctx n q) : Agrees ctx ((m.product op n).map ofNumeric?) (p.product op q) := by
  have leftKind := left.kind_eq
  have rightKind := right.kind_eq
  cases op with
  | mul =>
      by_cases countLeft : m.kind = .count
      · obtain ⟨x, scaled, measured⟩ := right.scale p.value
        rw [product, if_pos (by simp [isCount, countLeft]), left.bare_value (.inl countLeft), scaled,
          Quantity.product, if_pos (leftKind.symm.trans countLeft), Rat.mul_comm]
        exact .value _ _ measured
      · by_cases countRight : n.kind = .count
        · obtain ⟨x, scaled, measured⟩ := left.scale q.value
          rw [product, if_neg (by simp [isCount, countLeft]), if_pos (by simp [isCount, countRight]),
            right.bare_value (.inl countRight), scaled, Quantity.product, if_neg (leftKind ▸ countLeft),
            if_pos (rightKind.symm.trans countRight)]
          exact .value _ _ measured
        · rw [product, if_neg (by simp [isCount, countLeft]), if_neg (by simp [isCount, countRight]),
            Quantity.product, if_neg (leftKind ▸ countLeft), if_neg (rightKind ▸ countRight)]
          exact .error _ rfl .mismatch
  | div =>
      by_cases countRight : n.kind = .count
      · rw [product, if_pos (by simp [isCount, countRight]), right.bare_value (.inl countRight),
          Quantity.product, if_pos (rightKind.symm.trans countRight)]
        by_cases zero : q.value = 0
        · rw [if_pos zero, zero, Exact.div_zero, Exact.mul_undefined]
          exact .missing
        · have inverse : (Scalar.ofNat 1 / Exact.value q.value : Exact pi) = .value (1 / q.value) :=
            Exact.value_div 1 q.value zero
          have quotient : p.value * (1 / q.value) = p.value / q.value := by grind
          obtain ⟨x, scaled, measured⟩ := left.scale (1 / q.value)
          rw [quotient] at measured
          rw [if_neg zero, inverse, scaled]
          exact .value _ _ measured
      · rw [product, if_neg (by simp [isCount, countRight]), Quantity.product, if_neg (rightKind ▸ countRight)]
        exact .error _ rfl .mismatch

end Numeric

namespace Node

variable {ctx : Context (Exact pi)}

theorem num_agrees (finite : ctx.Finite) (operand : Except (ExprError (Exact pi)) (Option (Node (Exact pi))))
    (quantity : Except Obstacle Quantity) (agrees : Agrees ctx operand quantity) :
    Agrees ctx (operand >>= plain ctx) (quantity >>= fun q => .ok ⟨.count, q.value⟩) := by
  cases agrees with
  | value n q measured =>
      change Agrees ctx (plain ctx (some (.numeric n))) _
      rw [plain, measured.normalize finite]
      exact .value (Numeric.count (.value q.value)) _ (.of_canonical .count q.value)
  | missing => exact .missing
  | error e arithmetic obstacle => exact .error e arithmetic obstacle

-- Resolving goes on with the right operand where the left one has no value, and may fail there; plain
-- evaluation has stopped at the division by zero.
theorem binary_agrees (symbol : Char)
    (apply : Numeric (Exact pi) → Numeric (Exact pi) → Except (ExprError (Exact pi)) (Option (Numeric (Exact pi))))
    (combined : Quantity → Quantity → Except Obstacle Quantity)
    (left right : Except (ExprError (Exact pi)) (Option (Node (Exact pi))))
    (p q : Except Obstacle Quantity) (leftAgrees : Agrees ctx left p) (rightAgrees : Agrees ctx right q)
    (applies : ∀ m n a b, Measures ctx m a → Measures ctx n b →
      Agrees ctx ((apply m n).map ofNumeric?) (combined a b)) :
    Agrees ctx (binary symbol apply left right) (p >>= fun a => q >>= fun b => combined a b) := by
  cases leftAgrees with
  | value m a measured =>
      cases rightAgrees with
      | value n b measured' =>
          change Agrees ctx (combine symbol apply (some (.numeric m)) (some (.numeric n))) (combined a b)
          rw [combine_numeric]
          exact applies m n a b measured measured'
      | missing => exact .missing
      | error e arithmetic obstacle => exact .error e arithmetic obstacle
  | missing =>
      cases rightAgrees with
      | value n b measured => exact .missing
      | missing => exact .missing
      | error e arithmetic obstacle => exact .error e arithmetic .zeroDivisor
  | error e arithmetic obstacle => exact .error e arithmetic obstacle

def Linear (node : Node (Exact pi)) : Prop :=
  ∀ n, node.Occurs (.numeric n) → n.units ∈ n.kind.linear ∧ Scalar.isFinite n.value

theorem linear_part (node part : Node (Exact pi)) (linear : node.Linear) (member : part ∈ node.parts) :
    part.Linear :=
  fun n occurs => linear n (occurs_in_part node part _ member occurs)

theorem outcome_agrees (finite : ctx.Finite) (axis : Option Axis) (depth : Nat) (node : Node (Exact pi))
    (arithmetic : Arithmetic node) (linear : node.Linear) :
    Agrees ctx (node.outcome ctx axis depth) (node.reference ctx axis) := by
  induction arithmetic with
  | numeric n =>
      obtain ⟨units, number⟩ := linear n .root
      rw [outcome_numeric, reference]
      exact .value n _ (.of_leaf units number)
  | index =>
      rw [outcome_index, reference]
      exact .value _ _ (.of_canonical .count ctx.index)
  | num inner _ ih =>
      rw [outcome_num, reference]
      exact num_agrees finite _ _ (ih (linear_part _ inner linear (by simp [parts])))
  | calculation inner _ ih =>
      rw [outcome_calculation, reference]
      exact ih (linear_part _ inner linear (by simp [parts]))
  | sum left right op _ _ leftIh rightIh =>
      have first := leftIh (linear_part _ left linear (by simp [parts]))
      have second := rightIh (linear_part _ right linear (by simp [parts]))
      rw [outcome_sum, reference]
      exact binary_agrees _ _ _ _ _ _ _ first second (Numeric.sum_agrees finite axis op)
  | product left right op _ _ leftIh rightIh =>
      have first := leftIh (linear_part _ left linear (by simp [parts]))
      have second := rightIh (linear_part _ right linear (by simp [parts]))
      rw [outcome_product, reference]
      exact binary_agrees _ _ _ _ _ _ _ first second (Numeric.product_agrees op)

theorem arithmetic_reach (node inner : Node (Exact pi)) (arithmetic : Arithmetic node)
    (reached : Reaches ctx node inner) : Arithmetic inner ∧ node.Occurs inner := by
  induction reached with
  | root => exact ⟨arithmetic, .root⟩
  | part middle part _ member ih =>
      refine ⟨?_, .part middle part ih.2 member⟩
      have same := ih.1
      cases same <;> simp [parts] at member
      · rwa [member]
      · rwa [member]
      · rcases member with rfl | rfl <;> assumption
      · rcases member with rfl | rfl <;> assumption
  | value name fallback value _ bound ih => cases ih.1

theorem resolving_agrees_with_reference (ctx : Context (Exact pi)) (finite : ctx.Finite)
    (node : Node (Exact pi)) (arithmetic : Arithmetic node) (linear : node.Linear) (scope : Scope) :
    (∀ out, (node.resolveIn ctx scope).1 = .ok (some out) →
      ∃ n q, out = .numeric n ∧ node.reference ctx scope.axis = .ok q ∧ n.normalize ctx = .ok q.numeric) ∧
    ((node.resolveIn ctx scope).1 = .ok none → node.reference ctx scope.axis = .error .zeroDivisor) ∧
    ∀ assigned k, HasKind ctx assigned node k → node.reference ctx scope.axis = .error .zeroDivisor →
      (node.resolveIn ctx scope).1 = .ok none := by
  have agrees := outcome_agrees finite scope.axis scope.depth node arithmetic linear
  rw [resolve_in_outcome]
  dsimp only
  refine ⟨?_, ?_, ?_⟩
  · intro out given
    rw [given] at agrees
    obtain ⟨n, q, rfl, plain, measured⟩ := agrees_some ctx out _ agrees
    exact ⟨n, q, rfl, plain, measured.normalize finite⟩
  · intro given
    rw [given] at agrees
    exact agrees_none ctx _ agrees
  · intro assigned k kinded zero
    have bindings (name : String) (fallback : Option (Node (Exact pi))) (value : Node (Exact pi))
        (reached : Reaches ctx node (.var name fallback)) : HasKind ctx assigned value (assigned name) := by
      cases (arithmetic_reach node _ arithmetic reached).1
    have leaves (n : Numeric (Exact pi)) (reached : Reaches ctx node (.numeric n)) : n.Convertible :=
      n.kind.linear_convertible n.units (linear n (arithmetic_reach node _ arithmetic reached).2).1
    have result := outcome_kinded ctx assigned node (fun name fallback value reached _ =>
      bindings name fallback value reached) leaves scope.depth node .root k kinded scope.axis
    rw [zero] at agrees
    exact agrees_zero_divisor ctx k _ result agrees

theorem linear_of_parts (node : Node (Exact pi))
    (here : ∀ n, node = .numeric n → n.units ∈ n.kind.linear ∧ Scalar.isFinite n.value)
    (parts : ∀ part ∈ node.parts, part.Linear) : node.Linear := by
  intro n occurs
  rcases occurs_cases node _ occurs with same | ⟨part, member, within⟩
  · exact here n same.symm
  · exact parts part member n within

theorem numeric_linear (n : Numeric (Exact pi)) (units : n.units ∈ n.kind.linear) (number : Scalar.isFinite n.value) :
    (numeric n).Linear := by
  apply linear_of_parts
  · rintro _ ⟨⟩
    exact ⟨units, number⟩
  · simp [parts]

def exactPage : Context (Exact (22 / 7)) where
  resolveUrl address := .ok address
  lookup _ := none
  fontSize := .value 16
  rootFontSize := .value 10
  viewport := ⟨.value 800, .value 600⟩
  element := ⟨.value 200, .value 100⟩
  index := 3

def inset : Node (Exact (22 / 7)) :=
  .sum (.sum (.numeric (Numeric.percent (.value 10))) .add (.numeric (Numeric.percent (.value 20)))) .add
    (.numeric ⟨.length, .value 1, "em"⟩)

def share : Node (Exact (22 / 7)) :=
  .product (.numeric ⟨.angle, .value 90, "deg"⟩) .div (.sum .index .sub (.num (.numeric ⟨.time, .value 3, "ms"⟩)))

theorem portions_outcome (axis : Option Axis) (depth : Nat) :
    (sum (.numeric (Numeric.percent (.value 10))) .add (.numeric (Numeric.percent (.value 20)))).outcome exactPage
      axis depth = .ok (some (.numeric (Numeric.percent (.value 30)))) := by
  have value : (10 + 1 * 20 : Rat) = 30 := by decide +kernel
  have added : (Numeric.percent (.value 10)).sum exactPage axis .add (Numeric.percent (.value 20)) =
      .ok (some (Numeric.percent (.value 30))) :=
    congrArg (fun x => Except.ok (some (Numeric.percent (Exact.value x)))) value
  rw [outcome_sum, outcome_numeric, outcome_numeric]
  exact congrArg (Except.map ofNumeric?) added

theorem inset_outcome : (inset.resolveIn exactPage ⟨[.w], 0⟩).1 =
    .ok (some (.numeric ⟨.length, .value 76, "px"⟩)) := by
  have value : (200 * 30 / 100 + 1 * (1 * 16) : Rat) = 76 := by decide +kernel
  have added : (Numeric.percent (.value 30)).sum exactPage (some .w) .add ⟨.length, .value 1, "em"⟩ =
      .ok (some ⟨.length, .value 76, "px"⟩) :=
    congrArg (fun x => Except.ok (some (⟨.length, .value x, "px"⟩ : Numeric (Exact (22 / 7))))) value
  rw [resolve_in_outcome, inset, outcome_sum, portions_outcome, outcome_numeric]
  exact congrArg (Except.map ofNumeric?) added

theorem share_outcome : (share.resolveIn exactPage ⟨[.w], 0⟩).1 = .ok none := by
  have value : (3 + -1 * 3 : Rat) = 0 := by decide +kernel
  have taken : (Numeric.count (.value 3)).sum exactPage (some .w) .sub (Numeric.count (.value 3)) =
      .ok (some (Numeric.count (.value 0))) :=
    congrArg (fun x => Except.ok (some (Numeric.count (Exact.value x)))) value
  have divided : (⟨.angle, .value 90, "deg"⟩ : Numeric (Exact (22 / 7))).product .div (Numeric.count (.value 0)) =
      .ok none := rfl
  have difference : (sum .index .sub (.num (.numeric ⟨.time, .value 3, "ms"⟩))).outcome exactPage (some .w) 0 =
      .ok (some (.numeric (Numeric.count (.value 0)))) := by
    rw [outcome_sum, outcome_index, outcome_num, outcome_numeric]
    exact congrArg (Except.map ofNumeric?) taken
  rw [resolve_in_outcome, share]
  change (product _ _ _).outcome exactPage (some .w) 0 = _
  rw [outcome_product, difference, outcome_numeric]
  exact congrArg (Except.map ofNumeric?) divided

theorem inset_linear : inset.Linear := by
  apply linear_of_parts
  · simp [inset]
  · simp only [inset, parts, List.forall_mem_cons]
    refine ⟨linear_of_parts _ (by simp) ?_, numeric_linear _ (by decide) rfl, by simp⟩
    simp only [parts, List.forall_mem_cons]
    exact ⟨numeric_linear _ (by decide) rfl, numeric_linear _ (by decide) rfl, by simp⟩

theorem share_linear : share.Linear := by
  apply linear_of_parts
  · simp [share]
  · simp only [share, parts, List.forall_mem_cons]
    refine ⟨numeric_linear _ (by decide) rfl, linear_of_parts _ (by simp) ?_, by simp⟩
    simp only [parts, List.forall_mem_cons]
    refine ⟨linear_of_parts _ (by simp) (by simp [parts]), linear_of_parts _ (by simp) ?_, by simp⟩
    simp only [parts, List.forall_mem_cons]
    exact ⟨numeric_linear _ (by decide) rfl, by simp⟩

theorem inset_agrees_with_reference :
    (∃ n q, numeric ⟨.length, .value 76, "px"⟩ = .numeric n ∧ inset.reference exactPage (some .w) = .ok q ∧
      n.normalize exactPage = .ok q.numeric) ∧
    share.reference exactPage (some .w) = .error .zeroDivisor ∧ (share.resolveIn exactPage ⟨[.w], 0⟩).1 = .ok none := by
  have finite : exactPage.Finite := ⟨rfl, rfl, ⟨rfl, rfl⟩, ⟨rfl, rfl⟩⟩
  have insetArithmetic : Arithmetic inset := .sum _ _ _ (.sum _ _ _ (.numeric _) (.numeric _)) (.numeric _)
  have shareArithmetic : Arithmetic share := .product _ _ _ (.numeric _) (.sum _ _ _ .index (.num _ (.numeric _)))
  have kinded : HasKind exactPage (fun _ => .angle) share .angle :=
    .product _ _ .div .angle .count .angle (.numeric _)
      (.sum _ _ .sub .count .count .count .index (.num _ .time (.numeric _)) rfl) rfl
  obtain ⟨value, _, _⟩ := resolving_agrees_with_reference exactPage finite inset insetArithmetic inset_linear ⟨[.w], 0⟩
  obtain ⟨_, missing, zero⟩ :=
    resolving_agrees_with_reference exactPage finite share shareArithmetic share_linear ⟨[.w], 0⟩
  have divides := missing share_outcome
  exact ⟨value _ inset_outcome, divides, zero _ .angle kinded divides⟩

end Node

end StyleCalc
