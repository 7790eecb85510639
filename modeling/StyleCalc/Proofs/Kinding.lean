import StyleCalc.Proofs.Outcome
import StyleCalc.Proofs.Reach

set_option autoImplicit false

namespace StyleCalc.Node

variable {α : Type}

-- A variable that is neither bound nor given a fallback has no value, and so any kind.
inductive HasKind (ctx : Context α) (assigned : String → Kind) : Node α → Kind → Prop where
  | numeric (n : Numeric α) : HasKind ctx assigned (.numeric n) n.kind
  | index : HasKind ctx assigned .index .count
  | num (inner : Node α) (k : Kind) (operand : HasKind ctx assigned inner k) :
      HasKind ctx assigned (.num inner) .count
  | calculation (inner : Node α) (k : Kind) (operand : HasKind ctx assigned inner k) :
      HasKind ctx assigned (.calculation inner) k
  | sum (left right : Node α) (op : SumOp) (k l r : Kind) (leftKind : HasKind ctx assigned left k)
      (rightKind : HasKind ctx assigned right l) (rule : Kind.sum? k l = some r) :
      HasKind ctx assigned (.sum left op right) r
  | product (left right : Node α) (op : ProductOp) (k l r : Kind) (leftKind : HasKind ctx assigned left k)
      (rightKind : HasKind ctx assigned right l) (rule : Kind.product? op k l = some r) :
      HasKind ctx assigned (.product left op right) r
  | bound (name : String) (fallback : Option (Node α)) (value : Node α)
      (bound : ctx.lookup name = some value) : HasKind ctx assigned (.var name fallback) (assigned name)
  | fallback (name : String) (value : Node α) (k : Kind) (free : ctx.lookup name = none)
      (operand : HasKind ctx assigned value k) : HasKind ctx assigned (.var name (some value)) k
  | free (name : String) (k : Kind) (free : ctx.lookup name = none) :
      HasKind ctx assigned (.var name none) k

inductive Arithmetic : Node α → Prop where
  | numeric (n : Numeric α) : Arithmetic (.numeric n)
  | index : Arithmetic .index
  | num (inner : Node α) (operand : Arithmetic inner) : Arithmetic (.num inner)
  | calculation (inner : Node α) (operand : Arithmetic inner) : Arithmetic (.calculation inner)
  | sum (left right : Node α) (op : SumOp) (leftOperand : Arithmetic left) (rightOperand : Arithmetic right) :
      Arithmetic (.sum left op right)
  | product (left right : Node α) (op : ProductOp) (leftOperand : Arithmetic left)
      (rightOperand : Arithmetic right) : Arithmetic (.product left op right)

inductive Kinded (k : Kind) : Except (ExprError α) (Option (Node α)) → Prop where
  | value (n : Numeric α) (kind : n.kind = k) (convertible : n.Convertible) :
      Kinded k (.ok (some (.numeric n)))
  | missing : Kinded k (.ok none)
  | tooDeep (name : String) : Kinded k (.error (.maxDepthExceeded name))

theorem kinded_bind (k l : Kind) (r : Except (ExprError α) (Option (Node α)))
    (next : Option (Node α) → Except (ExprError α) (Option (Node α))) (kinded : Kinded k r)
    (absent : Kinded l (next none))
    (present : ∀ n : Numeric α, n.kind = k → n.Convertible → Kinded l (next (some (.numeric n)))) :
    Kinded l (r >>= next) := by
  cases kinded with
  | value n kind convertible => exact present n kind convertible
  | missing => exact absent
  | tooDeep name => exact .tooDeep name

theorem kinded_numeric (k : Kind) (result : Option (Numeric α))
    (each : ∀ r, result = some r → r.kind = k ∧ r.Convertible) : Kinded k (.ok (ofNumeric? result)) := by
  cases result with
  | none => exact .missing
  | some r => exact .value r (each r rfl).1 (each r rfl).2

-- Both operands are resolved before they are combined, so that the right one may be too deep even
-- where the left one has no value.
theorem kinded_binary (k l r : Kind) (symbol : Char)
    (apply : Numeric α → Numeric α → Except (ExprError α) (Option (Numeric α)))
    (left right : Except (ExprError α) (Option (Node α))) (leftKinded : Kinded k left)
    (rightKinded : Kinded l right)
    (applies : ∀ m n : Numeric α, m.kind = k → n.kind = l → m.Convertible → n.Convertible →
      ∃ result, apply m n = .ok result ∧ ∀ q, result = some q → q.kind = r ∧ q.Convertible) :
    Kinded r (binary symbol apply left right) := by
  apply kinded_bind k r left _ leftKinded
  · apply kinded_bind l r right _ rightKinded
    · exact .missing
    · exact fun n _ _ => .missing
  · intro m leftKind leftConvertible
    apply kinded_bind l r right _ rightKinded
    · exact .missing
    · intro n rightKind rightConvertible
      obtain ⟨result, applied, each⟩ := applies m n leftKind rightKind leftConvertible rightConvertible
      rw [combine_numeric, applied]
      exact kinded_numeric r result each

variable [Scalar α]

theorem kinded_plain (ctx : Context α) (n : Numeric α) (convertible : n.Convertible) :
    Kinded .count (plain ctx (some (.numeric n))) := by
  obtain ⟨r, normalized, _⟩ := Numeric.normalize_convertible ctx n convertible
  have given : plain ctx (some (.numeric n)) = .ok (ofNumeric? (Numeric.count r.value).finite?) := by
    rw [plain, normalized]
    rfl
  rw [given]
  apply kinded_numeric
  intro q present
  obtain ⟨_, rfl⟩ := Numeric.finite_some _ q present
  exact ⟨rfl, Numeric.count_convertible _⟩

theorem kinded_var (ctx : Context α) (axis : Option Axis) (depth : Nat) (name : String)
    (fallback : Option (Node α)) (k : Kind)
    (further : depth < maxDepth → Kinded k
      (match valueOf ctx name fallback with
        | some value => value.outcome ctx axis (depth + 1)
        | none => .ok none)) :
    Kinded k ((var name fallback).outcome ctx axis depth) := by
  rw [outcome_var]
  by_cases tooDeep : maxDepth ≤ depth
  · rw [if_pos tooDeep]
    exact .tooDeep name
  · rw [if_neg tooDeep]
    exact further (Nat.lt_of_not_le tooDeep)

-- A variable's value is no part of it, so the induction is on the references that may still be nested
-- as well. A cycle of variables is no obstacle: the kind of a value is assigned, not computed from it.
theorem outcome_kinded (ctx : Context α) (assigned : String → Kind) (root : Node α)
    (bindings : ∀ name fallback value, Reaches ctx root (.var name fallback) →
      ctx.lookup name = some value → HasKind ctx assigned value (assigned name))
    (leaves : ∀ n, Reaches ctx root (.numeric n) → n.Convertible)
    (depth : Nat) (node : Node α) (reached : Reaches ctx root node) (k : Kind)
    (kinded : HasKind ctx assigned node k) (axis : Option Axis) : Kinded k (node.outcome ctx axis depth) := by
  induction depth, node using depth_induction generalizing k axis with
  | step depth node deeper parts =>
      have within (part : Node α) (member : part ∈ node.parts) (k : Kind)
          (kinded : HasKind ctx assigned part k) : Kinded k (part.outcome ctx axis depth) :=
        parts part member (.part node part reached member) k kinded axis
      cases kinded with
      | numeric n =>
          rw [outcome_numeric]
          exact .value n rfl (leaves n reached)
      | index =>
          rw [outcome_index]
          exact .value _ rfl (Numeric.count_convertible _)
      | num inner l operand =>
          rw [outcome_num]
          apply kinded_bind l .count _ _ (within inner (by simp [Node.parts]) l operand)
          · exact .missing
          · exact fun n _ convertible => kinded_plain ctx n convertible
      | calculation inner _ operand =>
          rw [outcome_calculation]
          exact within inner (by simp [Node.parts]) k operand
      | sum left right op l r _ leftKind rightKind rule =>
          rw [outcome_sum]
          apply kinded_binary l r k _ _ _ _ (within left (by simp [Node.parts]) l leftKind)
            (within right (by simp [Node.parts]) r rightKind)
          rintro m n rfl rfl leftConvertible rightConvertible
          exact Numeric.sum_convertible ctx axis op m n k rule leftConvertible rightConvertible
      | product left right op l r _ leftKind rightKind rule =>
          rw [outcome_product]
          apply kinded_binary l r k _ _ _ _ (within left (by simp [Node.parts]) l leftKind)
            (within right (by simp [Node.parts]) r rightKind)
          rintro m n rfl rfl leftConvertible rightConvertible
          exact Numeric.product_convertible op m n k rule leftConvertible rightConvertible
      | bound name fallback value bound =>
          apply kinded_var
          intro room
          rw [valueOf, bound]
          exact deeper room value (.value name fallback value reached bound) (assigned name)
            (bindings name fallback value reached bound) axis
      | fallback name value _ free operand =>
          apply kinded_var
          intro room
          rw [valueOf, free]
          exact deeper room value (.part _ value reached (by simp [Node.parts])) k operand axis
      | free name _ free =>
          apply kinded_var
          intro room
          rw [valueOf, free]
          exact .missing

theorem arithmetic_numeric (ctx : Context α) (assigned : String → Kind) (axis : Option Axis) (depth : Nat)
    (node : Node α) (arithmetic : Arithmetic node) :
    ∀ out, node.outcome ctx axis depth = .ok (some out) →
      ∃ n, out = .numeric n ∧ HasKind ctx assigned node n.kind := by
  induction arithmetic with
  | numeric n =>
      intro out given
      rw [outcome_numeric] at given
      cases given
      exact ⟨n, rfl, .numeric n⟩
  | index =>
      intro out given
      rw [outcome_index] at given
      cases given
      exact ⟨_, rfl, .index⟩
  | num inner _ ih =>
      intro out given
      rw [outcome_num, except_bind_ok_iff] at given
      obtain ⟨a, value, given⟩ := given
      obtain ⟨n, r, rfl, _, _, rfl⟩ := plain_some ctx a out given
      obtain ⟨m, _, kinded⟩ := ih _ value
      exact ⟨_, rfl, .num inner m.kind kinded⟩
  | calculation inner _ ih =>
      intro out given
      rw [outcome_calculation] at given
      obtain ⟨n, numeric, kinded⟩ := ih out given
      exact ⟨n, numeric, .calculation inner n.kind kinded⟩
  | sum left right op _ _ leftIh rightIh =>
      intro out given
      rw [outcome_sum] at given
      obtain ⟨m, n, r, first, second, added, rfl⟩ := binary_some _ _ _ _ out given
      obtain ⟨_, ⟨⟩, leftKind⟩ := leftIh _ first
      obtain ⟨_, ⟨⟩, rightKind⟩ := rightIh _ second
      obtain ⟨k, rule, each⟩ := Numeric.sum_kind ctx axis op m n _ added
      exact ⟨r, rfl, .sum left right op m.kind n.kind r.kind leftKind rightKind (each r rfl ▸ rule)⟩
  | product left right op _ _ leftIh rightIh =>
      intro out given
      rw [outcome_product] at given
      obtain ⟨m, n, r, first, second, multiplied, rfl⟩ := binary_some _ _ _ _ out given
      obtain ⟨_, ⟨⟩, leftKind⟩ := leftIh _ first
      obtain ⟨_, ⟨⟩, rightKind⟩ := rightIh _ second
      obtain ⟨k, rule, each⟩ := Numeric.product_kind op m n _ multiplied
      exact ⟨r, rfl, .product left right op m.kind n.kind r.kind leftKind rightKind (each r rfl ▸ rule)⟩

theorem missing_within_part (ctx : Context α) (assigned : String → Kind) (axis : Option Axis)
    (depth : Nat) (root part : Node α) (member : part ∈ root.parts)
    (within : ∃ inner k, Occurs part inner ∧ HasKind ctx assigned inner k ∧
      inner.outcome ctx axis depth = .ok none) :
    ∃ inner k, Occurs root inner ∧ HasKind ctx assigned inner k ∧
      inner.outcome ctx axis depth = .ok none := by
  obtain ⟨inner, k, occurs, kinded, missing⟩ := within
  exact ⟨inner, k, occurs_in_part root part inner member occurs, kinded, missing⟩

-- An operand without a value hides what does not fit together around it, so only some innermost
-- expression without a value is sure to have a kind.
theorem arithmetic_missing (ctx : Context α) (assigned : String → Kind) (axis : Option Axis) (depth : Nat)
    (node : Node α) (arithmetic : Arithmetic node) (given : node.outcome ctx axis depth = .ok none) :
    ∃ part k, Occurs node part ∧ HasKind ctx assigned part k ∧ part.outcome ctx axis depth = .ok none := by
  induction arithmetic with
  | numeric n =>
      rw [outcome_numeric] at given
      cases given
  | index =>
      rw [outcome_index] at given
      cases given
  | num inner operand ih =>
      obtain ⟨a, value, rest⟩ := (except_bind_ok_iff _ _ _).mp (outcome_num ctx axis depth inner ▸ given)
      cases a with
      | none => exact missing_within_part _ _ _ _ _ inner (by simp [Node.parts]) (ih value)
      | some out =>
          obtain ⟨n, _, kinded⟩ := arithmetic_numeric ctx assigned axis depth inner operand out value
          exact ⟨_, .count, .root, .num inner n.kind kinded, given⟩
  | calculation inner _ ih =>
      rw [outcome_calculation] at given
      exact missing_within_part _ _ _ _ _ inner (by simp [Node.parts]) (ih given)
  | sum left right op leftOperand rightOperand leftIh rightIh =>
      rcases binary_none _ _ _ _ (outcome_sum ctx axis depth left right op ▸ given) with
        missing | missing | ⟨m, n, first, second, added⟩
      · exact missing_within_part _ _ _ _ _ left (by simp [Node.parts]) (leftIh missing)
      · exact missing_within_part _ _ _ _ _ right (by simp [Node.parts]) (rightIh missing)
      · obtain ⟨_, ⟨⟩, leftKind⟩ := arithmetic_numeric ctx assigned axis depth left leftOperand _ first
        obtain ⟨_, ⟨⟩, rightKind⟩ := arithmetic_numeric ctx assigned axis depth right rightOperand _ second
        obtain ⟨k, rule, _⟩ := Numeric.sum_kind ctx axis op m n _ added
        exact ⟨_, k, .root, .sum left right op m.kind n.kind k leftKind rightKind rule, given⟩
  | product left right op leftOperand rightOperand leftIh rightIh =>
      rcases binary_none _ _ _ _ (outcome_product ctx axis depth left right op ▸ given) with
        missing | missing | ⟨m, n, first, second, multiplied⟩
      · exact missing_within_part _ _ _ _ _ left (by simp [Node.parts]) (leftIh missing)
      · exact missing_within_part _ _ _ _ _ right (by simp [Node.parts]) (rightIh missing)
      · obtain ⟨_, ⟨⟩, leftKind⟩ := arithmetic_numeric ctx assigned axis depth left leftOperand _ first
        obtain ⟨_, ⟨⟩, rightKind⟩ := arithmetic_numeric ctx assigned axis depth right rightOperand _ second
        obtain ⟨k, rule, _⟩ := Numeric.product_kind op m n _ multiplied
        exact ⟨_, k, .root, .product left right op m.kind n.kind k leftKind rightKind rule, given⟩

theorem kinding_sound_and_complete (ctx : Context α) (assigned : String → Kind) (node : Node α)
    (scope : Scope) :
    (∀ k, HasKind ctx assigned node k →
      (∀ name fallback value, Reaches ctx node (.var name fallback) → ctx.lookup name = some value →
        HasKind ctx assigned value (assigned name)) →
      (∀ n, Reaches ctx node (.numeric n) → n.Convertible) →
      Kinded k (node.resolveIn ctx scope).1) ∧
    (Arithmetic node →
      (∀ out, (node.resolveIn ctx scope).1 = .ok (some out) →
        ∃ n, out = .numeric n ∧ HasKind ctx assigned node n.kind) ∧
      ((node.resolveIn ctx scope).1 = .ok none →
        ∃ part k, Occurs node part ∧ HasKind ctx assigned part k ∧
          (part.resolveIn ctx scope).1 = .ok none)) := by
  simp only [resolve_in_outcome]
  refine ⟨?_, ?_⟩
  · intro k kinded bindings leaves
    exact outcome_kinded ctx assigned node bindings leaves scope.depth node .root k kinded scope.axis
  · intro arithmetic
    exact ⟨arithmetic_numeric ctx assigned scope.axis scope.depth node arithmetic,
      arithmetic_missing ctx assigned scope.axis scope.depth node arithmetic⟩

def gap : Node Float :=
  .sum (.numeric ⟨.length, 1, "em"⟩) .add (.numeric (Numeric.percent 50))

def doubledGap : Node Float :=
  .calculation (.product (.var "--gap" none) .mul (.numeric (Numeric.count 2)))

def gapPage : Context Float :=
  Context.page fun name => if name = "--gap" then some gap else none

theorem gap_outcome : (gap.resolveIn gapPage ⟨[.w], 0⟩).1 = .ok (some (.numeric ⟨.length, 116, "px"⟩)) := by
  have added : (⟨.length, 1, "em"⟩ : Numeric Float).sum gapPage (some .w) .add (Numeric.percent 50) =
      .ok (some ⟨.length, 116, "px"⟩) := by
    have value : (⟨.length, 1 * 16 + SumOp.add.sign * (200 * 50 / Scalar.ofNat 100), "px"⟩ : Numeric Float).finite? =
        some ⟨.length, 116, "px"⟩ := by decide +kernel
    exact congrArg Except.ok value
  rw [resolve_in_outcome, gap, outcome_sum, outcome_numeric, outcome_numeric]
  exact congrArg (Except.map ofNumeric?) added

theorem gap_kind : HasKind gapPage (fun _ => .length) gap .length :=
  .sum _ _ .add .length .percent .length (.numeric _) (.numeric _) rfl

theorem doubled_gap_kind : HasKind gapPage (fun _ => .length) doubledGap .length :=
  .calculation _ _ (.product _ _ .mul .length .count .length (.bound "--gap" none gap rfl) (.numeric _) rfl)

theorem doubled_gap_reach (m : Node Float) (reached : Reaches gapPage doubledGap m) :
    m ∈ [doubledGap, .product (.var "--gap" none) .mul (.numeric (Numeric.count 2)), .var "--gap" none,
      .numeric (Numeric.count 2), gap, .numeric ⟨.length, 1, "em"⟩, .numeric (Numeric.percent 50)] := by
  induction reached with
  | root => simp
  | part node part _ member ih =>
      simp only [List.mem_cons, List.not_mem_nil, or_false] at ih
      rcases ih with rfl | rfl | rfl | rfl | rfl | rfl | rfl <;> simp [Node.parts, doubledGap, gap] at member
      · simp [member]
      · rcases member with rfl | rfl <;> simp
      · rcases member with rfl | rfl <;> simp
  | value name fallback value _ bound _ =>
      obtain ⟨_, rfl⟩ : name = "--gap" ∧ gap = value := by simpa [gapPage, Context.page] using bound
      simp

theorem doubled_gap_leaves (n : Numeric Float) (reached : Reaches gapPage doubledGap (.numeric n)) :
    n.Convertible := by
  have known : n = Numeric.count 2 ∨ n = ⟨.length, 1, "em"⟩ ∨ n = Numeric.percent 50 := by
    simpa [doubledGap, gap] using doubled_gap_reach _ reached
  rcases known with rfl | rfl | rfl <;> decide

theorem doubled_gap_kinded :
    Kinded .length (doubledGap.resolveIn gapPage ⟨[.w], 0⟩).1 ∧
      ∃ n, (numeric ⟨.length, 116, "px"⟩ : Node Float) = .numeric n ∧
        HasKind gapPage (fun _ => .length) gap n.kind := by
  have bindings : ∀ name fallback value, Reaches gapPage doubledGap (.var name fallback) →
      gapPage.lookup name = some value → HasKind gapPage (fun _ => .length) value .length := by
    intro name fallback value _ bound
    obtain ⟨_, rfl⟩ : name = "--gap" ∧ gap = value := by simpa [gapPage, Context.page] using bound
    exact gap_kind
  have arithmetic : Arithmetic gap := .sum _ _ _ (.numeric _) (.numeric _)
  exact ⟨(kinding_sound_and_complete gapPage (fun _ => .length) doubledGap ⟨[.w], 0⟩).1 .length
      doubled_gap_kind bindings doubled_gap_leaves,
    ((kinding_sound_and_complete gapPage (fun _ => .length) gap ⟨[.w], 0⟩).2 arithmetic).1 _ gap_outcome⟩

end StyleCalc.Node
