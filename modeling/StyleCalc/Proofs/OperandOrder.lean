import StyleCalc.Proofs.KnownUnits
import StyleCalc.Proofs.Opposites

set_option autoImplicit false

namespace StyleCalc

variable {α : Type}

/-- Results in which only the magnitude may differ, as it is related. Errors need not agree. -/
inductive Mirrored (related : α → α → Prop) :
    Except (ExprError α) (Option (Node α)) → Except (ExprError α) (Option (Node α)) → Prop where
  | value (kind : Kind) (units : String) (x y : α) (values : related x y) :
      Mirrored related (.ok (some (.numeric ⟨kind, x, units⟩))) (.ok (some (.numeric ⟨kind, y, units⟩)))
  | missing : Mirrored related (.ok none) (.ok none)
  | failed (e e' : ExprError α) : Mirrored related (.error e) (.error e')

inductive Swapped (fit : Numeric α → Numeric α → Prop) :
    Except (ExprError α) (Numeric α × Numeric α) → Except (ExprError α) (Numeric α × Numeric α) → Prop where
  | pair (m n : Numeric α) (fits : fit m n) : Swapped fit (.ok (m, n)) (.ok (n, m))
  | failed (e e' : ExprError α) : Swapped fit (.error e) (.error e')

namespace Numeric

def OfOneKind (m n : Numeric α) : Prop :=
  m.kind = n.kind ∧ m.Bare ∧ n.Bare

def OfOneUnit (m n : Numeric α) : Prop :=
  m.kind = n.kind ∧ m.units = n.units

variable [Scalar α]

theorem same_kind_swapped (ctx : Context α) (axis : Option Axis) (op : SumOp) (m n : Numeric α) (left : m.Bare)
    (right : n.Bare) : Swapped OfOneKind (sameKind ctx axis op m n) (sameKind ctx axis op n m) := by
  have bare (x : α) : (⟨.length, x, "px"⟩ : Numeric α).Bare := fun _ => rfl
  by_cases same : m.kind = n.kind
  · rw [sameKind, sameKind, if_pos same, if_pos same.symm]
    exact .pair m n ⟨same, left, right⟩
  · rw [sameKind, sameKind, if_neg same, if_neg (Ne.symm same)]
    by_cases percentLeft : m.isPercent
    · have notPercent : ¬ n.isPercent := by
        simp only [isPercent, decide_eq_true_eq] at percentLeft ⊢
        exact fun percent => same (percentLeft.trans percent.symm)
      rw [if_pos percentLeft, if_neg notPercent, if_pos percentLeft, ofPercent]
      by_cases isLength : n.kind = .length
      · rw [if_pos isLength]
        exact .pair _ n ⟨isLength.symm, bare _, right⟩
      · rw [if_neg isLength]
        exact .failed _ _
    · rw [if_neg percentLeft, if_neg percentLeft]
      by_cases percentRight : n.isPercent
      · rw [if_pos percentRight, if_pos percentRight, ofPercent]
        by_cases isLength : m.kind = .length
        · rw [if_pos isLength]
          exact .pair m _ ⟨isLength, left, bare _⟩
        · rw [if_neg isLength]
          exact .failed _ _
      · rw [if_neg percentRight, if_neg percentRight]
        exact .failed _ _

theorem same_units_swapped (ctx : Context α) (m n : Numeric α) (aligned : OfOneKind m n) :
    Swapped OfOneUnit (sameUnits ctx m n) (sameUnits ctx n m) := by
  obtain ⟨kind, left, right⟩ := aligned
  by_cases agree : m.units = n.units
  · rw [sameUnits, sameUnits, if_pos agree, if_pos agree.symm]
    exact .pair m n ⟨kind, agree⟩
  · rw [sameUnits, sameUnits, if_neg agree, if_neg (Ne.symm agree)]
    cases first : m.normalize ctx with
    | error e => cases second : n.normalize ctx <;> exact .failed _ _
    | ok p =>
        cases second : n.normalize ctx with
        | error e => exact .failed _ _
        | ok q =>
            refine .pair p q ⟨?_, ?_⟩
            · rw [normalize_ok ctx m p first, normalize_ok ctx n q second, kind]
            · rw [normalize_bare_units ctx m p left first, normalize_bare_units ctx n q right second, kind]

structure SumsRelated (op : SumOp) (related : α → α → Prop) : Prop where
  finite : ∀ x y : α, Scalar.isFinite (x + op.sign * y) = Scalar.isFinite (y + op.sign * x)
  values : ∀ x y : α, Scalar.isFinite (x + op.sign * y) → related (x + op.sign * y) (y + op.sign * x)

theorem sum_mirrored (op : SumOp) (related : α → α → Prop) (sums : SumsRelated op related) (ctx : Context α)
    (axis : Option Axis) (m n : Numeric α) (left : m.Bare) (right : n.Bare) :
    Mirrored related ((m.sum ctx axis op n).map Node.ofNumeric?) ((n.sum ctx axis op m).map Node.ofNumeric?) := by
  have kinds := same_kind_swapped ctx axis op m n left right
  rw [sum, sum]
  generalize sameKind ctx axis op m n = r at kinds
  generalize sameKind ctx axis op n m = s at kinds
  cases kinds with
  | failed e e' => exact .failed e e'
  | pair p q aligned =>
      have units := same_units_swapped ctx p q aligned
      change Mirrored related ((sameUnits ctx p q >>= _).map _) ((sameUnits ctx q p >>= _).map _)
      generalize sameUnits ctx p q = r at units
      generalize sameUnits ctx q p = s at units
      cases units with
      | failed e e' => exact .failed e e'
      | pair p q same =>
          obtain ⟨kind, value, units⟩ := p
          obtain ⟨_, other, _⟩ := q
          obtain ⟨rfl, rfl⟩ := same
          change Mirrored related (.ok (Node.ofNumeric? (finite? ⟨kind, value + op.sign * other, units⟩)))
            (.ok (Node.ofNumeric? (finite? ⟨kind, other + op.sign * value, units⟩)))
          rw [finite?, finite?]
          dsimp only
          rw [← sums.finite value other]
          by_cases finite : Scalar.isFinite (value + op.sign * other)
          · rw [if_pos finite, if_pos finite]
            exact .value kind units _ _ (sums.values value other finite)
          · rw [if_neg finite, if_neg finite]
            exact .missing

theorem product_mirrored (swap : ∀ x y : α, x * y = y * x) (m n : Numeric α) (left : m.Bare) (right : n.Bare) :
    Mirrored (· = ·) ((m.product .mul n).map Node.ofNumeric?) ((n.product .mul m).map Node.ofNumeric?) := by
  have same (r : Option (Numeric α)) :
      Mirrored (· = ·) (.ok (Node.ofNumeric? r)) (.ok (Node.ofNumeric? r)) := by
    cases r with
    | none => exact .missing
    | some r => exact .value r.kind r.units r.value r.value rfl
  rw [product, product]
  by_cases countLeft : m.isCount
  · rw [if_pos countLeft, if_pos countLeft]
    by_cases countRight : n.isCount
    · obtain ⟨kind, value, units⟩ := m
      obtain ⟨kind', other, units'⟩ := n
      obtain rfl : kind = .count := by simpa [isCount] using countLeft
      obtain rfl : kind' = .count := by simpa [isCount] using countRight
      obtain rfl : units = "" := left (.inl rfl)
      obtain rfl : units' = "" := right (.inl rfl)
      rw [if_pos countRight, withValue, withValue]
      dsimp only
      rw [swap value other]
      exact same _
    · rw [if_neg countRight]
      exact same _
  · rw [if_neg countLeft, if_neg countLeft]
    by_cases countRight : n.isCount
    · rw [if_pos countRight, if_pos countRight]
      exact same _
    · rw [if_neg countRight, if_neg countRight]
      exact .failed _ _

end Numeric

namespace Node

theorem binary_mirrored (symbol : Char) (related : α → α → Prop)
    (apply : Numeric α → Numeric α → Except (ExprError α) (Option (Numeric α)))
    (left right : Except (ExprError α) (Option (Node α)))
    (applies : ∀ m n, left = .ok (some (.numeric m)) → right = .ok (some (.numeric n)) →
      Mirrored related ((apply m n).map ofNumeric?) ((apply n m).map ofNumeric?)) :
    Mirrored related (binary symbol apply left right) (binary symbol apply right left) := by
  match left, right with
  | .error e, .error e' => exact .failed e e'
  | .error e, .ok b => exact .failed e e
  | .ok a, .error e => exact .failed e e
  | .ok none, .ok none => exact .missing
  | .ok none, .ok (some b) => exact .missing
  | .ok (some a), .ok none => exact .missing
  | .ok (some a), .ok (some b) =>
      cases first : operands a symbol b with
      | ok pair =>
          obtain ⟨rfl, rfl⟩ := operands_ok a b symbol pair.1 pair.2 first
          change Mirrored related (combine symbol apply (some (.numeric _)) (some (.numeric _)))
            (combine symbol apply (some (.numeric _)) (some (.numeric _)))
          rw [combine_numeric, combine_numeric]
          exact applies _ _ rfl rfl
      | error e =>
          cases second : operands b symbol a with
          | ok pair =>
              obtain ⟨rfl, rfl⟩ := operands_ok b a symbol pair.1 pair.2 second
              cases first
          | error e' =>
              change Mirrored related (operands a symbol b >>= _) (operands b symbol a >>= _)
              rw [first, second]
              exact .failed e e'

theorem sums_equal : Numeric.SumsRelated .add (fun x y : Float => x = y) where
  finite x y := congrArg Scalar.isFinite (Double.signed_sum_swapped x y)
  values x y _ := Double.signed_sum_swapped x y

theorem differences_negated : Numeric.SumsRelated .sub (fun x y : Float => y == -x) where
  finite x y := Double.opposite_finite _ _ (Double.differences_opposite x y)
  values x y finite := Double.opposite_beq _ _ (Double.differences_opposite x y) finite

theorem operand_order_never_matters (ctx : Context Float) (scope : Scope) (a b : Node Float)
    (left : ∀ n, (a.resolveIn ctx scope).1 = .ok (some (.numeric n)) → n.Bare)
    (right : ∀ n, (b.resolveIn ctx scope).1 = .ok (some (.numeric n)) → n.Bare) :
    Mirrored (· = ·) ((sum a .add b).resolveIn ctx scope).1 ((sum b .add a).resolveIn ctx scope).1 ∧
    Mirrored (· = ·) ((product a .mul b).resolveIn ctx scope).1 ((product b .mul a).resolveIn ctx scope).1 ∧
    Mirrored (fun x y => y == -x) ((sum a .sub b).resolveIn ctx scope).1
      ((sum b .sub a).resolveIn ctx scope).1 := by
  simp only [resolve_in_outcome, outcome_sum, outcome_product] at left right ⊢
  refine ⟨?_, ?_, ?_⟩
  · apply binary_mirrored
    intro m n first second
    exact Numeric.sum_mirrored .add _ sums_equal ctx scope.axis m n (left m first) (right n second)
  · apply binary_mirrored
    intro m n first second
    exact Numeric.product_mirrored Double.mul_swapped m n (left m first) (right n second)
  · apply binary_mirrored
    intro m n first second
    exact Numeric.sum_mirrored .sub _ differences_negated ctx scope.axis m n (left m first) (right n second)

def half : Node Float :=
  .var "--half" none

def twoEm : Node Float :=
  .numeric ⟨.length, 2, "em"⟩

def halfPage : Context Float :=
  Context.page fun name => if name = "--half" then some (.numeric (Numeric.percent 50)) else none

theorem half_outcome : (half.resolveIn halfPage ⟨[.w], 0⟩).1 = .ok (some (.numeric (Numeric.percent 50))) := rfl

theorem half_less_two_em : ((sum half .sub twoEm).resolveIn halfPage ⟨[.w], 0⟩).1 =
    .ok (some (.numeric ⟨.length, 68, "px"⟩)) := by
  have subtracted : (Numeric.percent 50).sum halfPage (some .w) .sub ⟨.length, 2, "em"⟩ =
      .ok (some ⟨.length, 68, "px"⟩) := by
    have value : (⟨.length, 200 * 50 / Scalar.ofNat 100 + SumOp.sub.sign * (2 * 16), "px"⟩ : Numeric Float).finite?
        = some ⟨.length, 68, "px"⟩ := by decide +kernel
    exact congrArg Except.ok value
  have left : half.outcome halfPage (some .w) 0 = .ok (some (.numeric (Numeric.percent 50))) := half_outcome
  change (sum half .sub twoEm).outcome halfPage (some .w) 0 = _
  rw [outcome_sum, left, twoEm, outcome_numeric]
  exact congrArg (Except.map ofNumeric?) subtracted

theorem half_and_two_em_swapped :
    (∀ n, (half.resolveIn halfPage ⟨[.w], 0⟩).1 = .ok (some (.numeric n)) → n.Bare) ∧
    (∀ n, (twoEm.resolveIn halfPage ⟨[.w], 0⟩).1 = .ok (some (.numeric n)) → n.Bare) ∧
    Mirrored (· = ·) ((sum half .add twoEm).resolveIn halfPage ⟨[.w], 0⟩).1
      ((sum twoEm .add half).resolveIn halfPage ⟨[.w], 0⟩).1 ∧
    Mirrored (· = ·) ((product half .mul twoEm).resolveIn halfPage ⟨[.w], 0⟩).1
      ((product twoEm .mul half).resolveIn halfPage ⟨[.w], 0⟩).1 ∧
    ∃ x, ((sum twoEm .sub half).resolveIn halfPage ⟨[.w], 0⟩).1 = .ok (some (.numeric ⟨.length, x, "px"⟩)) ∧
      x == -68 := by
  have left (n : Numeric Float) (given : (half.resolveIn halfPage ⟨[.w], 0⟩).1 = .ok (some (.numeric n))) :
      n.Bare := by
    rw [half_outcome] at given
    cases given
    exact fun _ => rfl
  have right (n : Numeric Float) (given : (twoEm.resolveIn halfPage ⟨[.w], 0⟩).1 = .ok (some (.numeric n))) :
      n.Bare := by
    rw [resolve_in_outcome, twoEm, outcome_numeric] at given
    cases given
    rintro (count | percent)
    · cases count
    · cases percent
  obtain ⟨sums, products, differences⟩ :=
    operand_order_never_matters halfPage ⟨[.w], 0⟩ half twoEm left right
  refine ⟨left, right, sums, products, ?_⟩
  rw [half_less_two_em] at differences
  generalize ((sum twoEm .sub half).resolveIn halfPage ⟨[.w], 0⟩).1 = swapped at differences
  cases differences with
  | value _ _ _ x negated => exact ⟨x, rfl, negated⟩

end Node

end StyleCalc
