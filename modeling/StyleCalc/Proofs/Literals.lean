import StyleCalc.Error
import StyleCalc.Proofs.Numerals
import StyleCalc.Text.Fold

set_option autoImplicit false

namespace StyleCalc

namespace Text

def isUnitChar (c : Char) : Bool :=
  c.isAlpha || c = '%'

def isLiteralChar (c : Char) : Bool :=
  isUnitChar c || c.isDigit || c = '.' || isSign c

theorem alpha_range (c : Char) (alpha : c.isAlpha) : 65 ≤ c.toNat ∧ c.toNat ≤ 122 := by
  rw [alpha_iff, capital_iff, small_iff] at alpha
  omega

theorem digit_range (c : Char) (digit : c.isDigit) : 48 ≤ c.toNat ∧ c.toNat ≤ 57 := by
  rw [Char.isDigit, Bool.and_eq_true, decide_eq_true_eq, decide_eq_true_eq] at digit
  exact digit

theorem literal_char_range (c : Char) (literal : isLiteralChar c) : 37 ≤ c.toNat ∧ c.toNat ≤ 122 := by
  simp only [isLiteralChar, isUnitChar, isSign, Bool.or_eq_true, decide_eq_true_eq] at literal
  rcases literal with (((alpha | rfl) | digit) | rfl) | rfl | rfl
  · have range := alpha_range c alpha
    omega
  · decide
  · have range := digit_range c digit
    omega
  · decide
  · decide
  · decide

theorem literal_char_not_blank (c : Char) (literal : isLiteralChar c) : isBlank c = false := by
  have range := literal_char_range c literal
  have apart : ∀ n ∈ blanks, n < 37 ∨ 122 < n := by decide
  rw [isBlank, Bool.eq_false_iff]
  intro blank
  have outside := apart c.toNat (List.contains_iff_mem.mp blank)
  omega

theorem trim_literal_chars (s : List Char) (literal : ∀ c ∈ s, isLiteralChar c) : trimChars s = s :=
  trimChars_eq_self s (fun c first => literal_char_not_blank c (literal c (List.mem_of_mem_head? first)))
    (fun c last => literal_char_not_blank c (literal c (List.mem_of_getLast? last)))

theorem unit_char_plain (c : Char) (unit : isUnitChar c) : c.isDigit = false ∧ c ≠ '.' ∧ isSign c = false := by
  have notDigit : c.isDigit = false := by
    rw [Bool.eq_false_iff]
    intro digit
    have digits := digit_range c digit
    rw [isUnitChar, Bool.or_eq_true, decide_eq_true_eq] at unit
    rcases unit with alpha | rfl
    · have letters := alpha_range c alpha
      omega
    · cases digit
  refine ⟨notDigit, ?_, ?_⟩
  · rintro rfl
    cases unit
  · rw [isSign, Bool.or_eq_false_iff]
    constructor <;> refine decide_eq_false ?_ <;> rintro rfl <;> cases unit

end Text

open Text

namespace Kind

theorem known_units_chars (k : Kind) (units : String) (known : ofUnits? units = some k) :
    ∀ c ∈ units.toList, isUnitChar c := by
  have table : ∀ u ∈ k.units, u.toList.all isUnitChar := by cases k <;> decide
  exact List.all_eq_true.mp (table units (units_of_kind k units known))

theorem lowered_units_chars (k : Kind) (units : List Char)
    (known : ofUnits? (lower (String.ofList units)) = some k) : ∀ c ∈ units, isUnitChar c := by
  intro c member
  have lowered := known_units_chars k _ known c.toLower (by
    rw [lower, String.toList_ofList, String.toList_ofList]
    exact List.mem_map_of_mem member)
  simpa [isUnitChar] using lowered

end Kind

/-- A literal as it is written. Capitals count as small letters in the unit. -/
structure Literal where
  numeral : Numeral
  unit : List Char
  kind : Kind
  known : Kind.ofUnits? (lower (String.ofList unit)) = some kind

namespace Literal

def chars (l : Literal) : List Char :=
  l.numeral.chars ++ l.unit

def numeric {α : Type} [Scalar α] (l : Literal) : Numeric α :=
  ⟨l.kind, Scalar.ofDecimal l.numeral.decimal, lower (String.ofList l.unit)⟩

end Literal

namespace Decimal

theorem ends_cons (c : Char) (rest : List Char) (notDigit : c.isDigit = false) (notPoint : c ≠ '.')
    (noSign : Bars isSign rest) (noDigit : Bars Char.isDigit rest) : Ends (c :: rest) := by
  have unsigned : readSign rest = (false, rest) := read_sign .absent rest noSign
  have bare : rest.takeWhile Char.isDigit = [] := (take_run Char.isDigit [] rest nofun noDigit).1
  refine ⟨by simp [notDigit], by simp [notPoint], ?_⟩
  rw [readExponent, unsigned]
  dsimp only
  rw [bare, if_neg (fun written => written.2 rfl)]

theorem unit_ends (unit rest : List Char) (units : ∀ c ∈ unit, isUnitChar c) (stop : Bars isLiteralChar rest) :
    Ends (unit ++ rest) := by
  have bars (p : Char → Bool) (literal : ∀ c, p c → isLiteralChar c) : Bars p rest := by
    intro c first
    exact Bool.eq_false_iff.mpr fun inside => Bool.eq_false_iff.mp (stop c first) (literal c inside)
  have noSign : Bars isSign rest := bars _ (by simp +contextual [isLiteralChar])
  have noDigit : Bars Char.isDigit rest := bars _ (by simp +contextual [isLiteralChar])
  cases unit with
  | cons c unit =>
      obtain ⟨notDigit, notPoint, _⟩ := unit_char_plain c (units c List.mem_cons_self)
      have plain (d : Char) (member : d ∈ unit) := unit_char_plain d (units d (List.mem_cons_of_mem c member))
      refine ends_cons c (unit ++ rest) notDigit notPoint (bars_append _ _ _ ?_ noSign) (bars_append _ _ _ ?_ noDigit)
      · exact fun d first => (plain d (List.mem_of_mem_head? first)).2.2
      · exact fun d first => (plain d (List.mem_of_mem_head? first)).1
  | nil =>
      refine ⟨noDigit, bars _ (by simp +contextual [isLiteralChar]), ?_⟩
      cases rest with
      | nil => rfl
      | cons c rest =>
          have noMark : ¬ (c = 'e' ∨ c = 'E') := by
            rintro (rfl | rfl) <;> cases stop _ rfl
          rw [List.nil_append, readExponent]
          dsimp only
          rw [if_neg (fun written => noMark written.1)]

end Decimal

namespace Numeral

theorem sign_chars (s : NumeralSign) : ∀ c ∈ s.chars, isLiteralChar c := by
  cases s <;> simp [NumeralSign.chars, isLiteralChar, isSign]

theorem digit_char (c : Char) (digit : c.isDigit) : isLiteralChar c := by
  simp [isLiteralChar, digit]

theorem numeral_chars (n : Numeral) : ∀ c ∈ n.chars, isLiteralChar c := by
  have exponent : ∀ c ∈ exponentChars n.exponent, isLiteralChar c := by
    cases n.exponent with
    | none => exact fun _ member => absurd member List.not_mem_nil
    | some e =>
        rw [exponentChars, Exponent.chars, List.forall_mem_cons, List.forall_mem_append]
        refine ⟨?_, sign_chars e.sign, fun c member => digit_char c (e.decimal c member)⟩
        cases e.capital <;> rfl
  rw [chars, List.forall_mem_append, List.forall_mem_append]
  exact ⟨sign_chars n.sign, Decimal.mantissa_class isLiteralChar rfl digit_char n, exponent⟩

end Numeral

namespace Literal

theorem unit_chars (l : Literal) : ∀ c ∈ l.unit, isUnitChar c :=
  Kind.lowered_units_chars l.kind l.unit l.known

theorem literal_chars (l : Literal) : ∀ c ∈ l.chars, isLiteralChar c := by
  rw [chars, List.forall_mem_append]
  exact ⟨l.numeral.numeral_chars, fun c member => by simp [isLiteralChar, l.unit_chars c member]⟩

theorem trim_literal (l : Literal) : trimChars l.chars = l.chars :=
  trim_literal_chars l.chars l.literal_chars

theorem literal_unique (l m : Literal) (rest rest' : List Char) (stop : Bars isLiteralChar rest)
    (stop' : Bars isLiteralChar rest') (same : l.chars ++ rest = m.chars ++ rest') : l = m ∧ rest = rest' := by
  obtain ⟨whole, rests⟩ := run_unique isLiteralChar l.chars m.chars rest rest' l.literal_chars m.literal_chars
    stop stop' same
  obtain ⟨numerals, units⟩ := Decimal.numeral_unique l.numeral m.numeral l.unit m.unit
    (by simpa using Decimal.unit_ends l.unit [] l.unit_chars (by simp))
    (by simpa using Decimal.unit_ends m.unit [] m.unit_chars (by simp)) whole
  refine ⟨?_, rests⟩
  obtain ⟨numeral, unit, kind, known⟩ := l
  obtain ⟨numeral', unit', kind', known'⟩ := m
  dsimp only at numerals units
  subst numerals
  subst units
  obtain rfl : kind = kind' := Option.some.inj (known.symm.trans known')
  rfl

end Literal

namespace Numeric

variable {α : Type} [Scalar α]

theorem literal_text_iff (s : String) (n : Numeric α) :
    ofText? s = some n ↔ ∃ l : Literal, l.chars = trimChars s.toList ∧ l.numeric = n := by
  rw [ofText?]
  constructor
  · intro given
    cases numeral : Decimal.read (trimChars s.toList) with
    | none =>
        rw [numeral] at given
        cases given
    | some found =>
        obtain ⟨d, unit⟩ := found
        rw [numeral] at given
        obtain ⟨written, split, value⟩ := Decimal.read_numeral_split _ unit d numeral
        cases known : Kind.ofUnits? (lower (String.ofList unit)) with
        | none => simp [known] at given
        | some kind =>
            refine ⟨⟨written, unit, kind, known⟩, split.symm, ?_⟩
            simpa [known, Literal.numeric, value] using given
  · rintro ⟨l, whole, rfl⟩
    have ends := Decimal.unit_ends l.unit [] l.unit_chars (by simp)
    rw [List.append_nil] at ends
    rw [← whole, Literal.chars, Decimal.read_numeral l.numeral l.unit ends]
    simp [l.known, Literal.numeric]

end Numeric

end StyleCalc
