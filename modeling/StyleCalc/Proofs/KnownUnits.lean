import StyleCalc.Proofs.Kinding
import StyleCalc.Proofs.OutcomeInvariant

set_option autoImplicit false

namespace StyleCalc

@[simp]
theorem Kind.canonical_known (k : Kind) : ofUnits? k.canonicalUnits = some k := by
  cases k <;> decide

theorem Kind.bare_units (k : Kind) (units : String) (known : ofUnits? units = some k)
    (bare : k = .count ∨ k = .percent) : units = k.canonicalUnits := by
  have row := k.units_of_kind units known
  rcases bare with rfl | rfl <;> exact List.mem_singleton.mp row

namespace Numeric

variable {α : Type}

def Known (n : Numeric α) : Prop :=
  Kind.ofUnits? n.units = some n.kind

instance (n : Numeric α) : Decidable n.Known :=
  inferInstanceAs (Decidable (Kind.ofUnits? n.units = some n.kind))

def Bare (n : Numeric α) : Prop :=
  n.kind = .count ∨ n.kind = .percent → n.units = n.kind.canonicalUnits

theorem known_bare (n : Numeric α) (known : n.Known) : n.Bare :=
  n.kind.bare_units n.units known

theorem known_of_canonical (n : Numeric α) (canonical : n.units = n.kind.canonicalUnits) : n.Known := by
  rw [Known, canonical]
  exact n.kind.canonical_known

theorem known_foreign (n : Numeric α) (known : n.Known) (foreign : n.units ≠ n.kind.canonicalUnits) :
    ¬ (n.kind = .count ∨ n.kind = .percent ∨ n.units = n.kind.canonicalUnits) := by
  rw [← or_assoc]
  exact not_or.mpr ⟨fun bare => foreign (n.known_bare known bare), foreign⟩

variable [Scalar α]

theorem normalize_bare_units (ctx : Context α) (n r : Numeric α) (bare : n.Bare) (given : n.normalize ctx = .ok r) :
    r.units = n.kind.canonicalUnits := by
  by_cases settled : n.kind = .count ∨ n.kind = .percent ∨ n.units = n.kind.canonicalUnits
  · have canonical : n.units = n.kind.canonicalUnits := (or_assoc.mpr settled).elim bare id
    rw [normalize_canonical ctx n r canonical given]
    exact canonical
  · rw [normalize, if_neg settled] at given
    split at given
    · cases given
      rfl
    · cases given

theorem normalize_units (ctx : Context α) (n r : Numeric α) (known : n.Known) (given : n.normalize ctx = .ok r) :
    r.units = n.kind.canonicalUnits :=
  normalize_bare_units ctx n r (n.known_bare known) given

theorem normalize_again (ctx : Context α) (n : Numeric α) (canonical : n.units = n.kind.canonicalUnits) :
    n.normalize ctx = .ok n :=
  if_pos (.inr (.inr canonical))

theorem converted_convertible (ctx : Context α) (n : Numeric α) (value : α)
    (given : converted? ctx n = some value) : n.Convertible := by
  obtain ⟨kind, magnitude, units⟩ := n
  cases kind with
  | count => cases given
  | percent => cases given
  | length =>
      change pixels? ctx magnitude units = some value at given
      unfold pixels? at given
      split at given <;> simp_all [Convertible, Kind.convertible]
  | angle =>
      change radians? magnitude units = some value at given
      unfold radians? at given
      split at given <;> simp_all [Convertible, Kind.convertible]
  | time =>
      change milliseconds? magnitude units = some value at given
      unfold milliseconds? at given
      split at given <;> simp_all [Convertible, Kind.convertible]

theorem normalize_unconvertible (ctx : Context α) (n : Numeric α) (known : n.Known)
    (unconvertible : ¬ n.Convertible) : n.normalize ctx = .error (.unknownUnits n.kind n.units) := by
  have foreign : n.units ≠ n.kind.canonicalUnits := by
    intro canonical
    apply unconvertible
    rw [Convertible, canonical]
    exact n.kind.canonical_convertible
  have nothing : converted? ctx n = none := by
    cases found : converted? ctx n with
    | none => rfl
    | some value => exact absurd (converted_convertible ctx n value found) unconvertible
  rw [normalize, if_neg (known_foreign n known foreign), nothing]

theorem of_percent_units (ctx : Context α) (axis : Option Axis) (n p : Numeric α) (percent : α)
    (given : ofPercent ctx axis n percent = .ok p) : p.units = p.kind.canonicalUnits := by
  unfold ofPercent at given
  split at given
  · cases given
    rfl
  · cases given

theorem same_kind_kept (ctx : Context α) (axis : Option Axis) (op : SumOp) (m n p q : Numeric α)
    (given : sameKind ctx axis op m n = .ok (p, q)) :
    (p = m ∧ q = n) ∨
      p.kind = q.kind ∧ (p.units = p.kind.canonicalUnits ∧ q = n ∨ p = m ∧ q.units = q.kind.canonicalUnits) := by
  unfold sameKind at given
  split at given
  · cases given
    exact .inl ⟨rfl, rfl⟩
  · split at given
    · obtain ⟨side, converted, same⟩ := (except_map_ok_iff _ _ _).mp given
      cases same
      obtain ⟨other, isLength⟩ := of_percent_ok ctx axis n p _ converted
      exact .inr ⟨isLength.trans other.symm, .inl ⟨of_percent_units ctx axis n p _ converted, rfl⟩⟩
    · split at given
      · obtain ⟨side, converted, same⟩ := (except_map_ok_iff _ _ _).mp given
        cases same
        obtain ⟨other, isLength⟩ := of_percent_ok ctx axis m q _ converted
        exact .inr ⟨other.trans isLength.symm, .inr ⟨rfl, of_percent_units ctx axis m q _ converted⟩⟩
      · cases given

theorem same_kind_known (ctx : Context α) (axis : Option Axis) (op : SumOp) (m n p q : Numeric α) (left : m.Known)
    (right : n.Known) (given : sameKind ctx axis op m n = .ok (p, q)) : p.Known ∧ q.Known := by
  rcases same_kind_kept ctx axis op m n p q given with ⟨rfl, rfl⟩ | ⟨_, ⟨pixels, rfl⟩ | ⟨rfl, pixels⟩⟩
  · exact ⟨left, right⟩
  · exact ⟨known_of_canonical p pixels, right⟩
  · exact ⟨left, known_of_canonical q pixels⟩

theorem same_units_settled (ctx : Context α) (m n p q : Numeric α) (left : m.Known)
    (given : sameUnits ctx m n = .ok (p, q)) :
    (m.units = n.units ∧ p = m) ∨ p.units = p.kind.canonicalUnits := by
  unfold sameUnits at given
  split at given
  · rename_i shared
    cases given
    exact .inl ⟨shared, rfl⟩
  · obtain ⟨p', normalized, rest⟩ := (except_bind_ok_iff _ _ _).mp given
    obtain ⟨q', _, pair⟩ := (except_bind_ok_iff _ _ _).mp rest
    cases pair
    rw [normalize_ok ctx m p normalized]
    exact .inr (normalize_units ctx m p left normalized)

theorem same_units_known (ctx : Context α) (m n p q : Numeric α) (left : m.Known)
    (given : sameUnits ctx m n = .ok (p, q)) : p.Known := by
  rcases same_units_settled ctx m n p q left given with ⟨_, rfl⟩ | canonical
  · exact left
  · exact known_of_canonical p canonical

theorem sum_known (ctx : Context α) (axis : Option Axis) (m : Numeric α) (op : SumOp) (n r : Numeric α)
    (left : m.Known) (right : n.Known) (given : m.sum ctx axis op n = .ok (some r)) : r.Known := by
  obtain ⟨⟨p, q⟩, kinds, rest⟩ := (except_bind_ok_iff _ _ _).mp given
  obtain ⟨⟨p', q'⟩, units, value⟩ := (except_bind_ok_iff _ _ _).mp rest
  obtain ⟨_, rfl⟩ := finite_some _ r (Except.ok.inj value)
  exact same_units_known ctx p q p' q' (same_kind_known ctx axis op m n p q left right kinds).1 units

-- A sum keeps the unit that its operands share. A percentage and a length share none, but pixels beside the
-- pixels that the percentage comes to are canonical too.
theorem sum_units (ctx : Context α) (axis : Option Axis) (m : Numeric α) (op : SumOp) (n r : Numeric α)
    (left : m.Known) (right : n.Known) (given : m.sum ctx axis op n = .ok (some r)) :
    (r.units = m.units ∧ r.units = n.units) ∨ r.units = r.kind.canonicalUnits := by
  obtain ⟨⟨p, q⟩, kinds, rest⟩ := (except_bind_ok_iff _ _ _).mp given
  obtain ⟨⟨p', q'⟩, units, value⟩ := (except_bind_ok_iff _ _ _).mp rest
  obtain ⟨_, rfl⟩ := finite_some _ r (Except.ok.inj value)
  have leftKnown := (same_kind_known ctx axis op m n p q left right kinds).1
  change (p'.units = m.units ∧ p'.units = n.units) ∨ p'.units = p'.kind.canonicalUnits
  rcases same_units_settled ctx p q p' q' leftKnown units with ⟨shared, rfl⟩ | canonical
  · rcases same_kind_kept ctx axis op m n p' q kinds with ⟨rfl, rfl⟩ | ⟨sameKind, pixels⟩
    · exact .inl ⟨rfl, shared⟩
    · right
      rcases pixels with ⟨pixels, _⟩ | ⟨_, pixels⟩
      · exact pixels
      · rw [shared, sameKind]
        exact pixels
  · exact .inr canonical

theorem product_known (m : Numeric α) (op : ProductOp) (n r : Numeric α) (left : m.Known) (right : n.Known)
    (given : m.product op n = .ok (some r)) : r.Known := by
  obtain ⟨k, rule⟩ := product_rule op m n _ given
  obtain ⟨base, value, operand, _, computed⟩ := product_base op m n k rule
  have result : (base.withValue value).finite? = some r := Except.ok.inj (computed.symm.trans given)
  obtain ⟨_, rfl⟩ := finite_some _ r result
  rcases operand with rfl | rfl
  · exact left
  · exact right

theorem conversion_decided (kind : Kind) (units : String) (known : Kind.ofUnits? units = some kind) :
    (∀ (ctx : Context α) value,
      (⟨kind, value, units⟩ : Numeric α).normalize ctx = .error (.unknownUnits kind units)) ∨
    ∀ (ctx : Context α) value, ∃ r, (⟨kind, value, units⟩ : Numeric α).normalize ctx = .ok r ∧ r.Known ∧
      r.kind = kind ∧ r.units = kind.canonicalUnits ∧ ∀ other : Context α, r.normalize other = .ok r := by
  by_cases convertible : units ∈ kind.convertible
  · right
    intro ctx value
    obtain ⟨r, normalized, sameKind, _⟩ := normalize_convertible ctx ⟨kind, value, units⟩ convertible
    have canonical : r.units = r.kind.canonicalUnits := by
      rw [sameKind]
      exact normalize_units ctx ⟨kind, value, units⟩ r known normalized
    refine ⟨r, normalized, known_of_canonical r canonical, sameKind, ?_, fun other => normalize_again other r canonical⟩
    rw [canonical, sameKind]
  · left
    intro ctx value
    exact normalize_unconvertible ctx ⟨kind, value, units⟩ known convertible

end Numeric

namespace Node

variable {α : Type} [Scalar α]

def KnownNumber : Node α → Prop
  | .numeric n => n.Known
  | _ => True

theorem known_invariant (ctx : Context α) (root : Node α)
    (leaves : ∀ n, Reaches ctx root (.numeric n) → n.Known) : OutcomeInvariant ctx root KnownNumber := by
  constructor
  · exact fun _ _ => trivial
  · exact fun n reached => leaves n reached
  · exact fun _ _ _ => trivial
  · exact fun _ _ _ _ => trivial
  · exact fun _ _ => trivial
  · exact fun _ _ _ _ => trivial
  · exact fun axis m op n r left right added => Numeric.sum_known ctx axis m op n r left right added
  · exact fun m op n r left right multiplied => Numeric.product_known m op n r left right multiplied
  · exact fun _ _ _ _ _ => Kind.canonical_known .count
  · exact Kind.canonical_known .count

theorem units_stay_consistent (ctx : Context α) (node : Node α)
    (leaves : ∀ n, Reaches ctx node (.numeric n) → n.Known) :
    (∀ scope out, (node.resolveIn ctx scope).1 = .ok (some out) → ∀ n, out.Occurs (.numeric n) → n.Known) ∧
    (∀ left op right scope out, Reaches ctx node (.sum left op right) →
      ((sum left op right).resolveIn ctx scope).1 = .ok (some out) →
      ∃ m n r, (left.resolveIn ctx scope).1 = .ok (some (.numeric m)) ∧
        (right.resolveIn ctx scope).1 = .ok (some (.numeric n)) ∧ out = .numeric r ∧ r.Known ∧
        ((r.units = m.units ∧ r.units = n.units) ∨ r.units = r.kind.canonicalUnits)) ∧
    (∀ inner scope out, Reaches ctx node (.num inner) →
      ((num inner).resolveIn ctx scope).1 = .ok (some out) →
      ∃ r, out = .numeric r ∧ r.Known ∧ r.units = r.kind.canonicalUnits) ∧
    ∀ kind units, Kind.ofUnits? units = some kind →
      (∀ (page : Context α) value,
        (⟨kind, value, units⟩ : Numeric α).normalize page = .error (.unknownUnits kind units)) ∨
      ∀ (page : Context α) value, ∃ r, (⟨kind, value, units⟩ : Numeric α).normalize page = .ok r ∧ r.Known ∧
        r.kind = kind ∧ r.units = kind.canonicalUnits ∧ ∀ other : Context α, r.normalize other = .ok r := by
  have invariant := known_invariant ctx node leaves
  refine ⟨?_, ?_, ?_, Numeric.conversion_decided⟩
  · intro scope out given n occurs
    exact value_invariant ctx node _ invariant scope out given (.numeric n) occurs
  · intro left op right scope out reached given
    have operand (part : Node α) (member : part ∈ (sum left op right).parts) (n : Numeric α)
        (value : part.outcome ctx scope.axis scope.depth = .ok (some (.numeric n))) : n.Known :=
      outcome_invariant ctx node _ invariant scope.depth part (.part _ part reached member) scope.axis _ value
    rw [resolve_in_outcome, outcome_sum] at given
    obtain ⟨m, n, r, first, second, added, rfl⟩ := binary_some _ _ _ _ out given
    have leftKnown := operand left (by simp [parts]) m first
    have rightKnown := operand right (by simp [parts]) n second
    refine ⟨m, n, r, ?_, ?_, rfl, Numeric.sum_known ctx scope.axis m op n r leftKnown rightKnown added,
      Numeric.sum_units ctx scope.axis m op n r leftKnown rightKnown added⟩
    · rw [resolve_in_outcome]
      exact first
    · rw [resolve_in_outcome]
      exact second
  · intro inner scope out _ given
    rw [resolve_in_outcome, outcome_num] at given
    obtain ⟨a, _, given⟩ := (except_bind_ok_iff _ _ _).mp given
    obtain ⟨_, r, _, _, _, rfl⟩ := plain_some ctx a out given
    exact ⟨Numeric.count r.value, rfl, Kind.canonical_known .count, rfl⟩

def gapLength : Node Float :=
  .num (.var "--gap" none)

theorem gap_length_reach (m : Node Float) (reached : Reaches gapPage gapLength m) :
    m ∈ [gapLength, .var "--gap" none, gap, .numeric ⟨.length, 1, "em"⟩, .numeric (Numeric.percent 50)] := by
  induction reached with
  | root => simp
  | part node part _ member ih =>
      simp only [List.mem_cons, List.not_mem_nil, or_false] at ih
      rcases ih with rfl | rfl | rfl | rfl | rfl <;> simp [Node.parts, gapLength, gap] at member
      · simp [member]
      · rcases member with rfl | rfl <;> simp
  | value name fallback value _ bound _ =>
      obtain ⟨_, rfl⟩ : name = "--gap" ∧ gap = value := by simpa [gapPage, Context.page] using bound
      simp

theorem gap_length_leaves (n : Numeric Float) (reached : Reaches gapPage gapLength (.numeric n)) : n.Known := by
  have either : n = ⟨.length, 1, "em"⟩ ∨ n = Numeric.percent 50 := by
    simpa [gapLength, gap] using gap_length_reach _ reached
  rcases either with rfl | rfl <;> decide

theorem gap_length_outcome :
    (gapLength.resolveIn gapPage ⟨[.w], 0⟩).1 = .ok (some (.numeric (Numeric.count 116))) := by
  have value := gap_outcome
  rw [resolve_in_outcome] at value
  have within : gap.outcome gapPage (some .w) 1 = .ok (some (.numeric ⟨.length, 116, "px"⟩)) := by
    rw [← value]
    simp only [gap, outcome_sum, outcome_numeric]
    rfl
  rw [resolve_in_outcome, gapLength, outcome_num, outcome_var, if_neg (by decide)]
  change gap.outcome gapPage (some .w) 1 >>= plain gapPage = _
  rw [within]
  have finite : (Numeric.count (116 : Float)).finite? = some (Numeric.count 116) := by decide
  exact congrArg (Except.ok ∘ ofNumeric?) finite

theorem gap_units_stay_consistent :
    (∀ n, Reaches gapPage gapLength (.numeric n) → n.Known) ∧ (Numeric.count (116 : Float)).Known ∧
    (∃ m n r, ((numeric ⟨.length, 1, "em"⟩ : Node Float).resolveIn gapPage ⟨[.w], 0⟩).1 = .ok (some (.numeric m)) ∧
      ((numeric (Numeric.percent 50) : Node Float).resolveIn gapPage ⟨[.w], 0⟩).1 = .ok (some (.numeric n)) ∧
      (numeric ⟨.length, 116, "px"⟩ : Node Float) = .numeric r ∧ r.Known ∧
      ((r.units = m.units ∧ r.units = n.units) ∨ r.units = r.kind.canonicalUnits)) ∧
    (∃ r, (numeric (Numeric.count 116) : Node Float) = .numeric r ∧ r.Known ∧ r.units = r.kind.canonicalUnits) ∧
    ∃ r, (⟨.time, 2, "s"⟩ : Numeric Float).normalize gapPage = .ok r ∧ r.Known ∧ r.kind = .time ∧ r.units = "ms" ∧
      ∀ other : Context Float, r.normalize other = .ok r := by
  obtain ⟨numbers, sums, lengths, decided⟩ := units_stay_consistent gapPage gapLength gap_length_leaves
  have sumReached : Reaches gapPage gapLength gap :=
    .value "--gap" none gap (.part gapLength _ .root (by simp [parts, gapLength])) rfl
  refine ⟨gap_length_leaves, numbers _ _ gap_length_outcome _ .root, sums _ _ _ _ _ sumReached gap_outcome,
    lengths _ _ _ .root gap_length_outcome, ?_⟩
  rcases decided .time "s" (by decide) with unknown | converted
  · cases unknown gapPage 2
  · exact converted gapPage 2

end Node

end StyleCalc
