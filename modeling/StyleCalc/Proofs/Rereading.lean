import StyleCalc.Node.Equality
import StyleCalc.Node.Text
import StyleCalc.Proofs.Printing

set_option autoImplicit false

namespace StyleCalc

open Text

namespace Double

open Float.Model Float.Model.UnpackedFloat

theorem bits_endless (b : BitVec Format.binary64.numBits)
    (endless : ¬ (UnpackedFloat.unpack .binary64 b).isFinite) : b.toNat / 2 ^ 52 % 2 ^ 11 = 2047 := by
  rw [← exponent_field b]
  by_cases full : unpackExponent b = -1#11
  · rw [full]
    rfl
  · have below : (unpackExponent b).toNat < 2 ^ 11 := (unpackExponent b).isLt
    have fits := unpack_bits_fits b 2047 full (by omega) (by decide)
    generalize UnpackedFloat.unpack .binary64 b = number at endless fits
    cases fits with
    | zero sign => exact absurd rfl endless
    | finite sign mantissa exponent positive bits most => exact absurd rfl endless

theorem endless_text (x : Float) (endless : ¬ Scalar.isFinite x) :
    Scalar.text x = "inf" ∨ Scalar.text x = "-inf" ∨ Scalar.text x = "NaN" := by
  have full : (fields x).2.1 = 2047 := bits_endless x.toModel.toBits.toBitVec endless
  change text x = _ ∨ text x = _ ∨ text x = _
  rw [text]
  dsimp only
  rw [if_pos full]
  by_cases infinite : (fields x).2.2 = 0
  · rw [if_pos infinite]
    cases (fields x).1
    · exact .inl rfl
    · exact .inr (.inl rfl)
  · rw [if_neg infinite]
    exact .inr (.inr rfl)

end Double

namespace Node

variable {α : Type} [Scalar α]

theorem unread_text (s : String) (plain : ∀ c ∈ s.toList, isLiteralChar c)
    (unread : Decimal.read s.toList = none) : (ofText s : Node α) = .raw s := by
  have trimmed : trimChars s.toList = s.toList := trim_literal_chars s.toList plain
  have missing : (Numeric.ofText? s : Option (Numeric α)) = none := by
    rw [Numeric.ofText?, trimmed, unread]
    rfl
  rw [ofText, missing, trim, trimmed, String.ofList_toList]

theorem raw_beq (css : String) : (.raw css : Node α) == .raw css := by
  change Node.beq _ _ = true
  rw [Node.beq]
  exact decide_eq_true rfl

theorem reread_text (s : String) (unread : (Numeric.ofText? s : Option (Numeric α)) = none) :
    (ofText (ofText s : Node α).text : Node α) = ofText s := by
  have again : (Numeric.ofText? (trim s) : Option (Numeric α)) = none := by
    rw [Numeric.ofText?] at unread ⊢
    simpa [trim] using unread
  have kept : (ofText s : Node α) = .raw (trim s) := by rw [ofText, unread]
  rw [kept, Node.text, ofText, again]
  simp [trim]

end Node

namespace Numeric

theorem read_known {α : Type} [Scalar α] (s : String) (n : Numeric α) (read : ofText? s = some n) : n.Known := by
  obtain ⟨l, _, rfl⟩ := (literal_text_iff s n).mp read
  exact l.known

theorem endless_written (n : Numeric Float) (known : n.Known) (endless : ¬ Scalar.isFinite n.value) :
    (Node.ofText n.text : Node Float) = .raw n.text := by
  have nonzero : ¬ n.value == Scalar.ofNat 0 := by
    intro zero
    obtain ⟨sign, value⟩ := Double.zero_of_beq n.value zero
    refine endless ?_
    change n.value.toModel.unpack.isFinite
    rw [value]
    rfl
  have unit : ∀ c ∈ n.units.toList, isLiteralChar c := by
    intro c member
    simp [isLiteralChar, Kind.known_units_chars n.kind n.units known c member]
  have unread (letters : List Char) (written : (Scalar.text n.value).toList = letters)
      (plain : letters.all isLiteralChar) (noNumeral : ∀ rest, Decimal.read (letters ++ rest) = none) :
      (Node.ofText n.text : Node Float) = .raw n.text := by
    have form : n.text.toList = letters ++ n.units.toList := by
      rw [text, if_neg nonzero, String.toList_append, written]
    apply Node.unread_text
    · rw [form]
      exact List.forall_mem_append.mpr ⟨List.all_eq_true.mp plain, unit⟩
    · rw [form]
      exact noNumeral n.units.toList
  rcases Double.endless_text n.value endless with written | written | written
  · exact unread ['i', 'n', 'f'] (by rw [written]; rfl) rfl (fun _ => rfl)
  · exact unread ['-', 'i', 'n', 'f'] (by rw [written]; rfl) rfl (fun _ => rfl)
  · exact unread ['N', 'a', 'N'] (by rw [written]; rfl) rfl (fun _ => rfl)

end Numeric

namespace Node

theorem values_are_reread (t : String) :
    ((ofText (ofText t : Node Float).text : Node Float) == ofText t ↔
      ∀ n : Numeric Float, Numeric.ofText? t = some n → Scalar.isFinite n.value) ∧
    ∀ n : Numeric Float, Numeric.ofText? t = some n → ¬ Scalar.isFinite n.value →
      (ofText (ofText t : Node Float).text : Node Float) = .raw n.text := by
  cases read : (Numeric.ofText? t : Option (Numeric Float)) with
  | none =>
      refine ⟨⟨?_, ?_⟩, ?_⟩
      · intro _ n given
        cases given
      · intro _
        have value : (ofText t : Node Float) = .raw (trim t) := by rw [ofText, read]
        rw [reread_text t read, value]
        exact raw_beq (trim t)
      · intro n given
        cases given
  | some n =>
      have known := Numeric.read_known t n read
      have value : (ofText t : Node Float) = .numeric n := by rw [ofText, read]
      rw [value, Node.text]
      refine ⟨⟨?_, ?_⟩, ?_⟩
      · intro equal m given
        obtain rfl : n = m := Option.some.inj given
        by_cases finite : Scalar.isFinite n.value
        · exact finite
        · rw [n.endless_written known finite] at equal
          cases equal
      · intro finite
        obtain ⟨m, _, reread, same⟩ := n.reads_back ⟨finite n rfl, known⟩
        rw [reread]
        exact same
      · intro m given endless
        obtain rfl : n = m := Option.some.inj given
        exact n.endless_written known endless

theorem overflow_is_reread_as_text :
    Numeric.ofText? "1e400" = some (Numeric.count (1 / 0) : Numeric Float) ∧ ¬ Scalar.isFinite (1 / 0 : Float) ∧
    (ofText (ofText "1e400" : Node Float).text : Node Float) = .raw "inf" ∧
    (ofText (ofText " +1.50E1PX " : Node Float).text : Node Float) == ofText " +1.50E1PX " := by
  have read : Numeric.ofText? "1e400" = some (Numeric.count (1 / 0) : Numeric Float) := by decide +kernel
  have endless : ¬ Scalar.isFinite (1 / 0 : Float) := by decide
  have written : (Numeric.count (1 / 0) : Numeric Float).text = "inf" := by decide +kernel
  have length : Numeric.ofText? " +1.50E1PX " = some (⟨.length, 15, "px"⟩ : Numeric Float) := by decide +kernel
  refine ⟨read, endless, ?_, ?_⟩
  · rw [(values_are_reread "1e400").2 _ read endless, written]
  · refine (values_are_reread " +1.50E1PX ").1.mpr ?_
    intro n given
    rw [length] at given
    cases given
    decide

theorem overflow_is_not_reread :
    ¬ ∀ t : String, (ofText (ofText t : Node Float).text : Node Float) == ofText t := by
  intro stable
  have equal := stable "1e400"
  have different : ((ofText (ofText "1e400" : Node Float).text : Node Float) == ofText "1e400") = false := by
    decide +kernel
  rw [different] at equal
  cases equal

end Node

end StyleCalc
