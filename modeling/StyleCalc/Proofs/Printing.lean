import StyleCalc.Proofs.Finite
import StyleCalc.Proofs.KnownUnits
import StyleCalc.Proofs.Literals
import StyleCalc.Proofs.Readback
import StyleCalc.Variable

set_option autoImplicit false

namespace StyleCalc

open Text

theorem Kind.known_units_lower (k : Kind) (units : String) (known : ofUnits? units = some k) : lower units = units := by
  have table : ∀ u ∈ k.units, lower u = u := by cases k <;> decide
  exact table units (units_of_kind k units known)

namespace Double

theorem zero_of_beq (x : Float) (zero : x == Scalar.ofNat 0) : ∃ sign, x.toModel.unpack = .zero sign := by
  change Float.Model.UnpackedFloat.beq x.toModel.unpack (Scalar.ofNat 0 : Float).toModel.unpack at zero
  rw [unpack_zero] at zero
  generalize x.toModel.unpack = number at zero ⊢
  cases number with
  | zero sign => exact ⟨sign, rfl⟩
  | notANumber => cases zero
  | infinity sign => cases sign <;> cases zero
  | finite sign mantissa exponent positive => cases sign <;> cases zero

end Double

namespace Numeric

theorem written_literal (n : Numeric Float) (finite : Scalar.isFinite n.value) (k : Kind)
    (known : Kind.ofUnits? n.units = some k) :
    ∃ l : Literal, l.chars = n.text.toList ∧ ∃ value, l.numeric = ⟨k, value, n.units⟩ ∧ value == n.value := by
  have lowered : lower (String.ofList n.units.toList) = n.units := by
    rw [String.ofList_toList, Kind.known_units_lower k n.units known]
  have literal (x : Float) (finite : Scalar.isFinite x) (same : ∀ y : Float, y == x → y == n.value) :
      ∃ l : Literal, l.chars = (Scalar.text x ++ n.units).toList ∧
        ∃ value, l.numeric = ⟨k, value, n.units⟩ ∧ value == n.value := by
    obtain ⟨numeral, chars, _, value⟩ := Double.text_numeral x finite
    refine ⟨⟨numeral, n.units.toList, k, by rwa [lowered]⟩, ?_, _, congrArg (Numeric.mk k _) lowered, same _ value⟩
    rw [Literal.chars, chars, String.toList_append]
  rw [text]
  by_cases zero : n.value == Scalar.ofNat 0
  · obtain ⟨sign, value⟩ := Double.zero_of_beq n.value zero
    rw [if_pos zero]
    refine literal _ (Double.index_finite 0 (by decide)) fun y nothing => ?_
    obtain ⟨sign', value'⟩ := Double.zero_of_beq y nothing
    exact Double.beq_zeros y n.value sign' sign value' value
  · rw [if_neg zero]
    exact literal n.value finite fun _ same => same

variable {α : Type} [Scalar α]

theorem beq_of_value (k : Kind) (x y : α) (units : String) (same : x == y) :
    (⟨k, x, units⟩ : Numeric α) == ⟨k, y, units⟩ := by
  change (decide (k = k) && x == y && decide (units = units)) = true
  rw [same, decide_eq_true rfl, decide_eq_true rfl]
  rfl

structure Printable (n : Numeric Float) : Prop where
  finite : Scalar.isFinite n.value
  known : n.Known

def ReadsBack (n : Numeric Float) : Prop :=
  ∃ m, Numeric.parse n.text = .ok m ∧ Node.ofText n.text = .numeric m ∧ m == n

theorem reads_back (n : Numeric Float) (printable : n.Printable) : n.ReadsBack := by
  obtain ⟨l, chars, value, numeric, same⟩ := written_literal n printable.finite n.kind printable.known
  have read : ofText? n.text = some (⟨n.kind, value, n.units⟩ : Numeric Float) := by
    rw [literal_text_iff]
    exact ⟨l, by rw [← chars, l.trim_literal], numeric⟩
  refine ⟨⟨n.kind, value, n.units⟩, ?_, ?_, ?_⟩
  · rw [parse, read]
  · rw [Node.ofText, read]
  · exact beq_of_value n.kind value n.value n.units same

end Numeric

namespace Node

def PrintableNumber : Node Float → Prop
  | .numeric n => n.Printable
  | _ => True

theorem printable_invariant (ctx : Context Float) (indexed : ctx.index < UInt64.size) (root : Node Float)
    (leaves : ∀ n, Reaches ctx root (.numeric n) → n.Printable) : OutcomeInvariant ctx root PrintableNumber := by
  constructor
  · exact fun _ _ => trivial
  · exact fun n reached => leaves n reached
  · exact fun _ _ _ => trivial
  · exact fun _ _ _ _ => trivial
  · exact fun _ _ => trivial
  · exact fun _ _ _ _ => trivial
  · exact fun axis m op n r left right added =>
      ⟨Numeric.sum_finite ctx axis m op n r added, Numeric.sum_known ctx axis m op n r left.known right.known added⟩
  · exact fun m op n r left right multiplied =>
      ⟨Numeric.product_finite m op n r multiplied, Numeric.product_known m op n r left.known right.known multiplied⟩
  · exact fun _ _ _ _ finite => ⟨finite, Kind.canonical_known .count⟩
  · exact ⟨Double.index_finite ctx.index indexed, Kind.canonical_known .count⟩

theorem printed_numbers_read_back :
    (∀ n : Numeric Float, n.Printable → n.ReadsBack) ∧
    ∀ (ctx : Context Float) (node out : Node Float) (scope : Scope), ctx.index < UInt64.size →
      (∀ n, Reaches ctx node (.numeric n) → n.Printable) → (node.resolveIn ctx scope).1 = .ok (some out) →
      ∀ n, out.Occurs (.numeric n) → n.Printable ∧ n.ReadsBack := by
  refine ⟨Numeric.reads_back, ?_⟩
  intro ctx node out scope indexed leaves given n occurs
  have invariant := printable_invariant ctx indexed node leaves
  have printable : n.Printable := value_invariant ctx node _ invariant scope out given (.numeric n) occurs
  exact ⟨printable, n.reads_back printable⟩

def indent : Node Float :=
  .sum (.numeric ⟨.percent, 50, "%"⟩) .sub (.numeric ⟨.length, -0, "em"⟩)

theorem indent_outcome :
    (indent.resolveIn (.page fun _ => none) ⟨[.w], 0⟩).1 = .ok (some (.numeric ⟨.length, 100, "px"⟩)) := by
  have finite : (⟨.length, 200 * 50 / 100 + -1 * (-0 * 16), "px"⟩ : Numeric Float).finite? =
      some ⟨.length, 100, "px"⟩ := by
    decide +kernel
  rw [resolve_in_outcome, indent, outcome_sum, outcome_numeric, outcome_numeric]
  exact congrArg (Except.ok ∘ ofNumeric?) finite

theorem indent_reads_back :
    Numeric.Printable ⟨.length, -0, "em"⟩ ∧ Numeric.ReadsBack ⟨.length, -0, "em"⟩ ∧
      (∀ n, Reaches (.page fun _ => none) indent (.numeric n) → n.Printable) ∧
        Numeric.ReadsBack ⟨.length, 100, "px"⟩ := by
  have zero : Numeric.Printable ⟨.length, -0, "em"⟩ := ⟨by decide, by decide⟩
  have half : Numeric.Printable ⟨.percent, 50, "%"⟩ := ⟨by decide, by decide⟩
  have reach (m : Node Float) (reached : Reaches (.page fun _ => none) indent m) :
      m ∈ [indent, .numeric ⟨.percent, 50, "%"⟩, .numeric ⟨.length, -0, "em"⟩] := by
    induction reached with
    | root => simp
    | part node part _ member ih =>
        simp only [List.mem_cons, List.not_mem_nil, or_false] at ih
        rcases ih with rfl | rfl | rfl
        · simp only [parts, indent, List.mem_cons, List.not_mem_nil, or_false] at member
          simp [member]
        · cases member
        · cases member
    | value name fallback value _ bound _ => cases bound
  have leaves (n : Numeric Float) (reached : Reaches (.page fun _ => none) indent (.numeric n)) : n.Printable := by
    have either : n = ⟨.percent, 50, "%"⟩ ∨ n = ⟨.length, -0, "em"⟩ := by simpa [indent] using reach _ reached
    rcases either with rfl | rfl
    · exact half
    · exact zero
  refine ⟨zero, printed_numbers_read_back.1 _ zero, leaves, ?_⟩
  exact (printed_numbers_read_back.2 (.page fun _ => none) indent _ _ (by decide) leaves indent_outcome _ .root).2

end Node

end StyleCalc
