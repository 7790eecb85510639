import StyleCalc.Calc
import StyleCalc.Proofs.Collect

set_option autoImplicit false

namespace StyleCalc

namespace Kind

def sum? : Kind → Kind → Option Kind
  | percent, length => some length
  | length, percent => some length
  | k, l => if k = l then some k else none

def product? : ProductOp → Kind → Kind → Option Kind
  | .mul, count, l => some l
  | .mul, k, count => some k
  | .div, k, count => some k
  | _, _, _ => none

def convertible : Kind → List String
  | count => [""]
  | percent => ["%"]
  | length => ["px", "em", "rem", "vw", "vh", "vmin", "vmax"]
  | angle => ["rad", "deg", "grad"]
  | time => ["ms", "s"]

theorem canonical_convertible (k : Kind) : k.canonicalUnits ∈ k.convertible := by
  cases k <;> decide

@[simp]
theorem sum_same (k : Kind) : sum? k k = some k := by
  cases k <;> rfl

theorem sum_mixed (k l r : Kind) (different : k ≠ l) (rule : sum? k l = some r) :
    r = length ∧ (k = percent ∧ l = length ∨ k = length ∧ l = percent) := by
  cases k <;> cases l <;> simp_all [sum?]

@[simp]
theorem mul_count_left (l : Kind) : product? .mul count l = some l := rfl

@[simp]
theorem count_right (op : ProductOp) (k : Kind) : product? op k count = some k := by
  cases op <;> cases k <;> rfl

theorem mul_other_left (k l r : Kind) (other : k ≠ count) (rule : product? .mul k l = some r) :
    l = count ∧ k = r := by
  cases k <;> cases l <;> simp_all [product?]

theorem div_count (k l r : Kind) (rule : product? .div k l = some r) : l = count ∧ k = r := by
  cases k <;> cases l <;> simp_all [product?]

end Kind

namespace Numeric

variable {α : Type}

def Convertible (n : Numeric α) : Prop := n.units ∈ n.kind.convertible

instance (n : Numeric α) : Decidable n.Convertible :=
  inferInstanceAs (Decidable (n.units ∈ n.kind.convertible))

theorem with_value_convertible (n : Numeric α) (value : α) (convertible : n.Convertible) :
    (n.withValue value).Convertible := convertible

theorem count_convertible (value : α) : (count value).Convertible :=
  Kind.canonical_convertible .count

variable [Scalar α]

theorem finite_some (n r : Numeric α) (given : n.finite? = some r) : Scalar.isFinite n.value ∧ r = n := by
  unfold finite? at given
  split at given
  · rename_i finite
    exact ⟨finite, (Option.some.inj given).symm⟩
  · cases given

theorem normalize_ok (ctx : Context α) (n r : Numeric α) (given : n.normalize ctx = .ok r) :
    r.kind = n.kind := by
  unfold normalize at given
  split at given
  · cases given
    rfl
  · split at given
    · cases given
      rfl
    · cases given

theorem normalize_canonical (ctx : Context α) (n r : Numeric α) (canonical : n.units = n.kind.canonicalUnits)
    (given : n.normalize ctx = .ok r) : r = n := by
  rw [normalize, if_pos (.inr (.inr canonical))] at given
  exact (Except.ok.inj given).symm

theorem normalize_convertible (ctx : Context α) (n : Numeric α) (convertible : n.Convertible) :
    ∃ r, n.normalize ctx = .ok r ∧ r.kind = n.kind ∧ r.Convertible := by
  obtain ⟨kind, value, units⟩ := n
  cases kind with
  | count => exact ⟨_, rfl, rfl, convertible⟩
  | percent => exact ⟨_, rfl, rfl, convertible⟩
  | length =>
      have known : units = "px" ∨ units = "em" ∨ units = "rem" ∨ units = "vw" ∨ units = "vh" ∨
          units = "vmin" ∨ units = "vmax" := by
        simpa [Convertible, Kind.convertible] using convertible
      rcases known with rfl | rfl | rfl | rfl | rfl | rfl | rfl <;>
        exact ⟨_, rfl, rfl, Kind.canonical_convertible .length⟩
  | angle =>
      have known : units = "rad" ∨ units = "deg" ∨ units = "grad" := by
        simpa [Convertible, Kind.convertible] using convertible
      rcases known with rfl | rfl | rfl <;> exact ⟨_, rfl, rfl, Kind.canonical_convertible .angle⟩
  | time =>
      have known : units = "ms" ∨ units = "s" := by
        simpa [Convertible, Kind.convertible] using convertible
      rcases known with rfl | rfl <;> exact ⟨_, rfl, rfl, Kind.canonical_convertible .time⟩

theorem same_units_ok (ctx : Context α) (m n p q : Numeric α) (given : sameUnits ctx m n = .ok (p, q)) :
    p.kind = m.kind ∧ q.kind = n.kind := by
  unfold sameUnits at given
  split at given
  · cases given
    exact ⟨rfl, rfl⟩
  · obtain ⟨p', left, rest⟩ := (except_bind_ok_iff _ _ _).mp given
    obtain ⟨q', right, pair⟩ := (except_bind_ok_iff _ _ _).mp rest
    cases pair
    exact ⟨normalize_ok ctx m p left, normalize_ok ctx n q right⟩

theorem same_units_canonical (ctx : Context α) (m n p q : Numeric α) (given : sameUnits ctx m n = .ok (p, q)) :
    (m.units = m.kind.canonicalUnits → p = m) ∧ (n.units = n.kind.canonicalUnits → q = n) := by
  by_cases agree : m.units = n.units
  · rw [sameUnits, if_pos agree] at given
    cases given
    exact ⟨fun _ => rfl, fun _ => rfl⟩
  · rw [sameUnits, if_neg agree] at given
    obtain ⟨p', left, rest⟩ := (except_bind_ok_iff _ _ _).mp given
    obtain ⟨q', right, pair⟩ := (except_bind_ok_iff _ _ _).mp rest
    cases pair
    exact ⟨fun canonical => normalize_canonical ctx m p canonical left,
      fun canonical => normalize_canonical ctx n q canonical right⟩

theorem same_units_convertible (ctx : Context α) (m n : Numeric α) (left : m.Convertible)
    (right : n.Convertible) : ∃ p q, sameUnits ctx m n = .ok (p, q) ∧ p.kind = m.kind ∧ p.Convertible := by
  by_cases agree : m.units = n.units
  · exact ⟨m, n, by rw [sameUnits, if_pos agree], rfl, left⟩
  · obtain ⟨p, leftNormal, kind, convertible⟩ := normalize_convertible ctx m left
    obtain ⟨q, rightNormal, _⟩ := normalize_convertible ctx n right
    refine ⟨p, q, ?_, kind, convertible⟩
    rw [sameUnits, if_neg agree, leftNormal, rightNormal]
    rfl

theorem of_percent_length (ctx : Context α) (axis : Option Axis) (n : Numeric α) (percent : α)
    (isLength : n.kind = .length) :
    ∃ p, ofPercent ctx axis n percent = .ok p ∧ p.kind = .length ∧ p.Convertible := by
  refine ⟨_, by rw [ofPercent, if_pos isLength], rfl, ?_⟩
  exact Kind.canonical_convertible .length

theorem of_percent_ok (ctx : Context α) (axis : Option Axis) (n p : Numeric α) (percent : α)
    (given : ofPercent ctx axis n percent = .ok p) : n.kind = .length ∧ p.kind = .length := by
  unfold ofPercent at given
  split at given
  · rename_i isLength
    cases given
    exact ⟨isLength, rfl⟩
  · cases given

theorem same_kind_convertible (ctx : Context α) (axis : Option Axis) (op : SumOp) (m n : Numeric α)
    (k : Kind) (rule : Kind.sum? m.kind n.kind = some k) (left : m.Convertible) (right : n.Convertible) :
    ∃ p q, sameKind ctx axis op m n = .ok (p, q) ∧ p.kind = k ∧ p.Convertible ∧ q.Convertible := by
  by_cases agree : m.kind = n.kind
  · have same : m.kind = k := by simpa [agree] using rule
    exact ⟨m, n, by rw [sameKind, if_pos agree], same, left, right⟩
  · obtain ⟨rfl, ⟨percent, isLength⟩ | ⟨isLength, percent⟩⟩ := Kind.sum_mixed m.kind n.kind k agree rule
    · obtain ⟨p, converted, kind, convertible⟩ := of_percent_length ctx axis n m.value isLength
      refine ⟨p, n, ?_, kind, convertible, right⟩
      rw [sameKind, if_neg agree, if_pos (by simp [isPercent, percent]), converted]
      rfl
    · obtain ⟨q, converted, _, convertible⟩ := of_percent_length ctx axis m n.value isLength
      refine ⟨m, q, ?_, isLength, left, convertible⟩
      rw [sameKind, if_neg agree, if_neg (by simp [isPercent, isLength]), if_pos (by simp [isPercent, percent]),
        converted]
      rfl

theorem same_kind_ok (ctx : Context α) (axis : Option Axis) (op : SumOp) (m n p q : Numeric α)
    (given : sameKind ctx axis op m n = .ok (p, q)) : Kind.sum? m.kind n.kind = some p.kind := by
  unfold sameKind at given
  by_cases agree : m.kind = n.kind
  · rw [if_pos agree] at given
    cases given
    rw [agree, Kind.sum_same]
  · rw [if_neg agree] at given
    by_cases percentLeft : m.isPercent
    · rw [if_pos percentLeft, except_map_ok_iff] at given
      obtain ⟨r, converted, pair⟩ := given
      cases pair
      have kinds := of_percent_ok ctx axis n p m.value converted
      have percent : m.kind = .percent := by simpa [isPercent] using percentLeft
      rw [percent, kinds.1, kinds.2]
      rfl
    · rw [if_neg percentLeft] at given
      by_cases percentRight : n.isPercent
      · rw [if_pos percentRight, except_map_ok_iff] at given
        obtain ⟨r, converted, pair⟩ := given
        cases pair
        have kinds := of_percent_ok ctx axis m q n.value converted
        have percent : n.kind = .percent := by simpa [isPercent] using percentRight
        rw [percent, kinds.1]
        rfl
      · rw [if_neg percentRight] at given
        cases given

theorem sum_kind (ctx : Context α) (axis : Option Axis) (op : SumOp) (m n : Numeric α)
    (result : Option (Numeric α)) (given : m.sum ctx axis op n = .ok result) :
    ∃ k, Kind.sum? m.kind n.kind = some k ∧ ∀ r, result = some r → r.kind = k := by
  obtain ⟨⟨p, q⟩, kinds, rest⟩ := (except_bind_ok_iff _ _ _).mp given
  obtain ⟨⟨p', q'⟩, units, value⟩ := (except_bind_ok_iff _ _ _).mp rest
  refine ⟨p.kind, same_kind_ok ctx axis op m n p q kinds, ?_⟩
  intro r present
  obtain ⟨_, rfl⟩ := finite_some _ r ((Except.ok.inj value).trans present)
  exact (same_units_ok ctx p q p' q' units).1

theorem sum_same_kind (ctx : Context α) (axis : Option Axis) (op : SumOp) (m n out : Numeric α)
    (kinds : m.kind = n.kind) (given : m.sum ctx axis op n = .ok (some out)) :
    ∃ p q, sameUnits ctx m n = .ok (p, q) ∧ Scalar.isFinite (p.value + op.sign * q.value) := by
  obtain ⟨⟨m', n'⟩, kept, rest⟩ := (except_bind_ok_iff _ _ _).mp given
  rw [sameKind, if_pos kinds] at kept
  cases kept
  obtain ⟨⟨p, q⟩, units, value⟩ := (except_bind_ok_iff _ _ _).mp rest
  exact ⟨p, q, units, (finite_some _ out (Except.ok.inj value)).1⟩

theorem sum_convertible (ctx : Context α) (axis : Option Axis) (op : SumOp) (m n : Numeric α) (k : Kind)
    (rule : Kind.sum? m.kind n.kind = some k) (left : m.Convertible) (right : n.Convertible) :
    ∃ result, m.sum ctx axis op n = .ok result ∧ ∀ r, result = some r → r.kind = k ∧ r.Convertible := by
  obtain ⟨p, q, kinds, kind, pConvertible, qConvertible⟩ :=
    same_kind_convertible ctx axis op m n k rule left right
  obtain ⟨p', q', units, sameKind, convertible⟩ := same_units_convertible ctx p q pConvertible qConvertible
  refine ⟨(p'.withValue (p'.value + op.sign * q'.value)).finite?, ?_, ?_⟩
  · rw [sum, kinds]
    change (sameUnits ctx p q >>= _) = _
    rw [units]
    rfl
  · intro r present
    obtain ⟨_, rfl⟩ := finite_some _ r present
    exact ⟨sameKind.trans kind, with_value_convertible p' _ convertible⟩

theorem product_base (op : ProductOp) (m n : Numeric α) (k : Kind)
    (rule : Kind.product? op m.kind n.kind = some k) :
    ∃ base value, (base = m ∨ base = n) ∧ base.kind = k ∧ m.product op n = .ok (base.withValue value).finite? := by
  cases op with
  | mul =>
      by_cases countLeft : m.kind = .count
      · have kind : n.kind = k := by simpa [countLeft] using rule
        exact ⟨n, n.value * m.value, .inr rfl, kind, by rw [product, if_pos (by simp [isCount, countLeft])]⟩
      · obtain ⟨countRight, kind⟩ := Kind.mul_other_left m.kind n.kind k countLeft rule
        refine ⟨m, m.value * n.value, .inl rfl, kind, ?_⟩
        rw [product, if_neg (by simp [isCount, countLeft]), if_pos (by simp [isCount, countRight])]
  | div =>
      obtain ⟨countRight, kind⟩ := Kind.div_count m.kind n.kind k rule
      exact ⟨m, m.value * (Scalar.ofNat 1 / n.value), .inl rfl, kind,
        by rw [product, if_pos (by simp [isCount, countRight])]⟩

theorem product_rule (op : ProductOp) (m n : Numeric α) (result : Option (Numeric α))
    (given : m.product op n = .ok result) : ∃ k, Kind.product? op m.kind n.kind = some k := by
  cases op with
  | mul =>
      by_cases countLeft : m.kind = .count
      · exact ⟨n.kind, by simp [countLeft]⟩
      · by_cases countRight : n.kind = .count
        · exact ⟨m.kind, by simp [countRight]⟩
        · simp [product, isCount, countLeft, countRight] at given
  | div =>
      by_cases countRight : n.kind = .count
      · exact ⟨m.kind, by simp [countRight]⟩
      · simp [product, isCount, countRight] at given

theorem product_kind (op : ProductOp) (m n : Numeric α) (result : Option (Numeric α))
    (given : m.product op n = .ok result) :
    ∃ k, Kind.product? op m.kind n.kind = some k ∧ ∀ r, result = some r → r.kind = k := by
  obtain ⟨k, rule⟩ := product_rule op m n result given
  obtain ⟨base, value, _, kind, computed⟩ := product_base op m n k rule
  refine ⟨k, rule, ?_⟩
  intro r present
  obtain ⟨_, rfl⟩ := finite_some _ r ((Except.ok.inj (computed.symm.trans given)).trans present)
  exact kind

theorem product_convertible (op : ProductOp) (m n : Numeric α) (k : Kind)
    (rule : Kind.product? op m.kind n.kind = some k) (left : m.Convertible) (right : n.Convertible) :
    ∃ result, m.product op n = .ok result ∧ ∀ r, result = some r → r.kind = k ∧ r.Convertible := by
  obtain ⟨base, value, operand, kind, computed⟩ := product_base op m n k rule
  refine ⟨_, computed, ?_⟩
  intro r present
  obtain ⟨_, rfl⟩ := finite_some _ r present
  rcases operand with rfl | rfl
  · exact ⟨kind, with_value_convertible base value left⟩
  · exact ⟨kind, with_value_convertible base value right⟩

end Numeric

end StyleCalc
