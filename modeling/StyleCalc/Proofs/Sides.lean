import StyleCalc.Proofs.Assembly
import StyleCalc.Proofs.Doubles
import StyleCalc.Proofs.Units

set_option autoImplicit false

namespace StyleCalc

variable {α : Type}

theorem along_without_height (size : Size α) (height : α) (axis : Option Axis) (other : axis ≠ some .h) :
    ({ size with height } : Size α).along axis = size.along axis := by
  match axis with
  | none => rfl
  | some .w => rfl
  | some .h => exact absurd rfl other
  | some .z => rfl

theorem along_without_width (size : Size α) (width : α) (axis : Option Axis) (other : axis ≠ some .w) :
    ({ size with width } : Size α).along axis = size.along axis := by
  match axis with
  | none => rfl
  | some .w => exact absurd rfl other
  | some .h => rfl
  | some .z => rfl

theorem along_no_side (size : Size α) (axis : Option Axis) (notWidth : axis ≠ some .w)
    (notHeight : axis ≠ some .h) : size.along axis = none := by
  match axis with
  | none => rfl
  | some .w => exact absurd rfl notWidth
  | some .h => exact absurd rfl notHeight
  | some .z => rfl

variable [Scalar α]

namespace Numeric

def ofNothing (percent : Numeric α) : Numeric α :=
  ⟨.length, Scalar.ofNat 0 * percent.value / Scalar.ofNat 100, "px"⟩

theorem of_nothing_zero (percent : Numeric Float) (finite : Scalar.isFinite percent.value) :
    percent.ofNothing.value == Scalar.ofNat 0 := by
  obtain ⟨sign, product⟩ := Double.unpack_zero_mul percent.value finite
  obtain ⟨sign, quotient⟩ := Double.unpack_zero_div _ sign product
  exact Double.beq_zero _ sign quotient

theorem sum_endless_nothing (ctx : Context Float) (axis : Option Axis) (op : SumOp) (m percent out : Numeric Float)
    (isLength : m.kind = .length) (endless : ¬ Scalar.isFinite percent.value) :
    m.sum ctx axis op percent.ofNothing ≠ .ok (some out) ∧
      percent.ofNothing.sum ctx axis op m ≠ .ok (some out) := by
  have missing : Double.NotANumber percent.ofNothing.value :=
    Double.not_a_number_div _ _ (Double.not_a_number_zero_mul percent.value endless)
  refine ⟨?_, ?_⟩
  · intro given
    obtain ⟨p, q, units, finite⟩ := sum_same_kind ctx axis op m percent.ofNothing out isLength given
    obtain rfl := (same_units_canonical ctx _ _ p q units).2 rfl
    have value := Double.not_a_number_add p.value _ (.inr (Double.not_a_number_mul op.sign _ missing))
    exact Double.not_a_number_endless _ value finite
  · intro given
    obtain ⟨p, q, units, finite⟩ := sum_same_kind ctx axis op percent.ofNothing m out isLength.symm given
    obtain rfl := (same_units_canonical ctx _ _ p q units).1 rfl
    exact Double.not_a_number_endless _ (Double.not_a_number_add _ (op.sign * q.value) (.inl missing)) finite

theorem same_kind_side (ctx : Context α) (element : Size α) (axis : Option Axis) (op : SumOp)
    (m n : Numeric α) (side : element.along axis = ctx.element.along axis) :
    sameKind { ctx with element } axis op m n = sameKind ctx axis op m n := by
  simp only [sameKind, ofPercent, side]

theorem sum_side (ctx : Context α) (element : Size α) (axis : Option Axis) (op : SumOp) (m n : Numeric α)
    (side : element.along axis = ctx.element.along axis) :
    m.sum { ctx with element } axis op n = m.sum ctx axis op n := by
  rw [sum, sum, same_kind_side ctx element axis op m n side]
  rfl

theorem of_percent_nothing (ctx : Context α) (axis : Option Axis) (noSide : ctx.element.along axis = none)
    (n percent : Numeric α) (isLength : n.kind = .length) :
    ofPercent ctx axis n percent.value = .ok percent.ofNothing := by
  rw [ofPercent, if_pos isLength, noSide]
  rfl

theorem sum_of_nothing (ctx : Context α) (axis : Option Axis) (noSide : ctx.element.along axis = none)
    (op : SumOp) (m percent : Numeric α) (isLength : m.kind = .length) (isPercent : percent.kind = .percent) :
    m.sum ctx axis op percent = m.sum ctx axis op percent.ofNothing ∧
      percent.sum ctx axis op m = percent.ofNothing.sum ctx axis op m := by
  have converted := of_percent_nothing ctx axis noSide m percent isLength
  have lengths : m.kind = percent.ofNothing.kind := isLength
  have right : sameKind ctx axis op m percent = sameKind ctx axis op m percent.ofNothing := by
    rw [sameKind, sameKind, if_pos lengths, if_neg (by simp [isLength, isPercent]),
      if_neg (by simp [Numeric.isPercent, isLength]), if_pos (by simp [Numeric.isPercent, isPercent]), converted]
    rfl
  have left : sameKind ctx axis op percent m = sameKind ctx axis op percent.ofNothing m := by
    rw [sameKind, sameKind, if_pos lengths.symm, if_neg (by simp [isLength, isPercent]),
      if_pos (by simp [Numeric.isPercent, isPercent]), converted]
    rfl
  exact ⟨by rw [sum, sum, right], by rw [sum, sum, left]⟩

end Numeric

namespace Node

def Untagged (ctx : Context α) (node : Node α) (axis : Axis) : Prop :=
  ∀ name args axes, Reaches ctx node (.call name args axes) → axis ∉ axes.getD []

theorem unseen_sides (ctx : Context α) (element : Size α) (root : Node α) (scope : Scope)
    (top : element.along scope.axis = ctx.element.along scope.axis)
    (tags : ∀ name args axes, Reaches ctx root (.call name args axes) →
      ∀ axis ∈ axes.getD [], element.along (some axis) = ctx.element.along (some axis)) :
    root.resolveIn { ctx with element } scope = root.resolveIn ctx scope := by
  apply indistinct_resolve ctx _ fun node scope =>
    Reaches ctx root node ∧ element.along scope.axis = ctx.element.along scope.axis
  · constructor
    · intro node scope _
      cases node <;> rfl
    · rintro node scope ⟨_, side⟩
      cases node with
      | sum left op right =>
          funext row
          simp only [assemble, Numeric.sum_side ctx element scope.axis op _ _ side]
      | _ => rfl
    · rintro node scope ⟨inner, within⟩ ⟨reached, side⟩ needed
      have enters := needs_enters ctx node inner scope within needed
      refine ⟨reaches_trans ctx root node inner reached (enters_reaches ctx node inner scope within enters), ?_⟩
      rcases needs_axis ctx node inner scope within needed with same | ⟨name, args, axes, axis, rfl, named, same⟩
      · rw [same]
        exact side
      · rw [same]
        exact tags name args axes reached axis named
  · exact ⟨.root, top⟩

theorem axes_do_not_mix (ctx : Context α) (node : Node α) (scope : Scope) :
    (scope.axis ≠ some .h → Untagged ctx node .h → ∀ height,
      node.resolveIn { ctx with element := { ctx.element with height } } scope = node.resolveIn ctx scope) ∧
    (scope.axis ≠ some .w → Untagged ctx node .w → ∀ width,
      node.resolveIn { ctx with element := { ctx.element with width } } scope = node.resolveIn ctx scope) ∧
    (scope.axis ≠ some .w → scope.axis ≠ some .h → Untagged ctx node .w → Untagged ctx node .h → ∀ element,
      node.resolveIn { ctx with element } scope = node.resolveIn ctx scope) ∧
    (∀ axis, axis = none ∨ axis = some .z → ∀ (op : SumOp) (m percent : Numeric α), m.kind = .length →
      percent.kind = .percent → m.sum ctx axis op percent = m.sum ctx axis op percent.ofNothing ∧
        percent.sum ctx axis op m = percent.ofNothing.sum ctx axis op m) ∧
    ∀ percent : Numeric Float,
      (Scalar.isFinite percent.value → percent.ofNothing.value == Scalar.ofNat 0) ∧
      (¬ Scalar.isFinite percent.value → ∀ (page : Context Float) (axis : Option Axis) (op : SumOp)
        (m out : Numeric Float), m.kind = .length → m.sum page axis op percent.ofNothing ≠ .ok (some out) ∧
          percent.ofNothing.sum page axis op m ≠ .ok (some out)) := by
  refine ⟨?_, ?_, ?_, ?_, ?_⟩
  · intro top untagged height
    have beside := along_without_height ctx.element height
    apply unseen_sides ctx _ node scope (beside scope.axis top)
    intro name args axes reached axis named
    have other : axis ≠ .h := fun same => untagged name args axes reached (same ▸ named)
    exact beside (some axis) (by simpa using other)
  · intro top untagged width
    have beside := along_without_width ctx.element width
    apply unseen_sides ctx _ node scope (beside scope.axis top)
    intro name args axes reached axis named
    have other : axis ≠ .w := fun same => untagged name args axes reached (same ▸ named)
    exact beside (some axis) (by simpa using other)
  · intro topWidth topHeight untaggedWidth untaggedHeight element
    have deep (axis : Option Axis) (notWidth : axis ≠ some .w) (notHeight : axis ≠ some .h) :
        element.along axis = ctx.element.along axis := by
      rw [along_no_side element axis notWidth notHeight, along_no_side ctx.element axis notWidth notHeight]
    apply unseen_sides ctx element node scope (deep scope.axis topWidth topHeight)
    intro name args axes reached axis named
    have notWidth : axis ≠ .w := fun same => untaggedWidth name args axes reached (same ▸ named)
    have notHeight : axis ≠ .h := fun same => untaggedHeight name args axes reached (same ▸ named)
    exact deep (some axis) (by simpa using notWidth) (by simpa using notHeight)
  · intro axis noSide op m percent isLength isPercent
    have missing : ctx.element.along axis = none := by
      rcases noSide with rfl | rfl <;> rfl
    exact Numeric.sum_of_nothing ctx axis missing op m percent isLength isPercent
  · intro percent
    refine ⟨Numeric.of_nothing_zero percent, ?_⟩
    intro endless page axis op m out isLength
    exact Numeric.sum_endless_nothing page axis op m percent out isLength endless

-- An endless percentage is not zero even of nothing: the sum loses its value.
theorem endless_percentage_takes_value :
    (sum (numeric ⟨.length, 1, "px"⟩) .add (numeric (Numeric.percent (1 / 0)))).resolve
      (Context.page fun _ => none : Context Float) = .ok none ∧
    (sum (numeric ⟨.length, 1, "px"⟩) .add (numeric ⟨.length, 0, "px"⟩)).resolve
      (Context.page fun _ => none : Context Float) = .ok (some (numeric ⟨.length, 1, "px"⟩)) :=
  ⟨rfl, rfl⟩

def nudge (axis : Axis) : Node Float :=
  .call "translate" [.sum (.numeric ⟨.length, 1, "px"⟩) .add (.var "--half" none)] (some [axis])

def nudgePage : Context Float :=
  Context.page fun name => if name = "--half" then some (.numeric (Numeric.percent 50)) else none

theorem nudge_reach (axis : Axis) (m : Node Float) (reached : Reaches nudgePage (nudge axis) m) :
    m ∈ [nudge axis, .sum (.numeric ⟨.length, 1, "px"⟩) .add (.var "--half" none),
      .numeric ⟨.length, 1, "px"⟩, .var "--half" none, .numeric (Numeric.percent 50)] := by
  induction reached with
  | root => simp
  | part node part _ member ih =>
      simp only [List.mem_cons, List.not_mem_nil, or_false] at ih
      rcases ih with rfl | rfl | rfl | rfl | rfl <;> simp [Node.parts, nudge] at member
      · simp [member]
      · rcases member with rfl | rfl <;> simp
  | value name fallback value _ bound _ =>
      obtain ⟨_, rfl⟩ : name = "--half" ∧ numeric (Numeric.percent 50) = value := by
        simpa [nudgePage, Context.page] using bound
      simp

theorem nudge_untagged (axis other : Axis) (different : other ≠ axis) : Untagged nudgePage (nudge axis) other := by
  intro name args axes reached
  obtain ⟨_, _, rfl⟩ : name = "translate" ∧ args = _ ∧ axes = some [axis] := by
    simpa [nudge] using nudge_reach axis _ reached
  simpa using different

theorem nudge_along_one_axis :
    (nudge .w).resolveIn { nudgePage with element := { nudgePage.element with height := 7 } } ⟨[.z], 3⟩ =
      (nudge .w).resolveIn nudgePage ⟨[.z], 3⟩ ∧
    (nudge .h).resolveIn { nudgePage with element := { nudgePage.element with width := 7 } } ⟨[.z], 3⟩ =
      (nudge .h).resolveIn nudgePage ⟨[.z], 3⟩ ∧
    (nudge .z).resolveIn { nudgePage with element := ⟨7, 8⟩ } ⟨[.z], 3⟩ = (nudge .z).resolveIn nudgePage ⟨[.z], 3⟩ ∧
    (⟨.length, 1, "px"⟩ : Numeric Float).sum nudgePage (some .z) .add (Numeric.percent 50) =
      (⟨.length, 1, "px"⟩ : Numeric Float).sum nudgePage (some .z) .add (Numeric.percent 50).ofNothing ∧
    (Numeric.percent (50 : Float)).ofNothing.value == Scalar.ofNat 0 ∧
    (⟨.length, 1, "px"⟩ : Numeric Float).sum nudgePage none .sub (Numeric.percent (1 / 0)).ofNothing ≠
      .ok (some ⟨.length, 1, "px"⟩) := by
  have top (axis : Axis) (other : axis ≠ .z) : (⟨[.z], 3⟩ : Scope).axis ≠ some axis := by
    simpa [Scope.axis] using other.symm
  have height := (axes_do_not_mix nudgePage (nudge .w) ⟨[.z], 3⟩).1
  have width := (axes_do_not_mix nudgePage (nudge .h) ⟨[.z], 3⟩).2.1
  obtain ⟨_, _, both, nothing, percentages⟩ := axes_do_not_mix nudgePage (nudge .z) ⟨[.z], 3⟩
  refine ⟨height (top .h (by decide)) (nudge_untagged .w .h (by decide)) 7,
    width (top .w (by decide)) (nudge_untagged .h .w (by decide)) 7,
    both (top .w (by decide)) (top .h (by decide)) (nudge_untagged .z .w (by decide))
      (nudge_untagged .z .h (by decide)) ⟨7, 8⟩, ?_, ?_⟩
  · exact (nothing (some .z) (.inr rfl) .add ⟨.length, 1, "px"⟩ (Numeric.percent 50) rfl rfl).1
  · have zero := (percentages (Numeric.percent 50)).1 (by decide)
    have endless := (percentages (Numeric.percent (1 / 0))).2 (by decide)
    exact ⟨zero, (endless nudgePage none .sub ⟨.length, 1, "px"⟩ _ rfl).1⟩

end Node

end StyleCalc
