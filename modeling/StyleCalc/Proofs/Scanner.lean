import StyleCalc.Double
import StyleCalc.Proofs.Literals

set_option autoImplicit false

namespace StyleCalc

open Text

namespace Scanner

-- One byte stands for the character of its value. Bytes of longer characters stand for none of ASCII.
def byteChars (s : String) : List Char :=
  s.toUTF8.data.toList.map fun b => Char.ofNat b.toNat

def signLength : List Char → Nat
  | [] => 0
  | c :: _ => if isSign c then 1 else 0

def runLength (p : Char → Bool) (s : List Char) : Nat :=
  (s.takeWhile p).length

def isMantissaChar (c : Char) : Bool :=
  c.isDigit || c = '.'

def exponentLength : List Char → Nat
  | [] => 0
  | mark :: rest =>
      let sign := signLength rest
      let digits := runLength Char.isDigit (rest.drop sign)
      if (mark = 'e' ∨ mark = 'E') ∧ digits ≠ 0 then 1 + sign + digits else 0

def numeralLength? (s : List Char) : Option Nat :=
  let sign := signLength s
  let mantissa := runLength isMantissaChar (s.drop sign)
  if mantissa = 0 then none
  else some (sign + mantissa + exponentLength (s.drop (sign + mantissa)))

def numeralEnd? (s : String) : Option Nat :=
  numeralLength? (byteChars s)

def isAscii (c : Char) : Bool :=
  c.toNat < 128

theorem byte_chars_of_list (s : List Char) :
    byteChars (String.ofList s) = (s.flatMap String.utf8EncodeChar).map fun b => Char.ofNat b.toNat := by
  rw [byteChars, String.toUTF8, String.toByteArray_ofList, List.utf8Encode, List.toList_data_toByteArray]

theorem ascii_bytes (c : Char) (ascii : isAscii c) :
    (String.utf8EncodeChar c).map (fun b => Char.ofNat b.toNat) = [c] := by
  have small : c.val.toNat ≤ 127 := Nat.le_of_lt_succ (of_decide_eq_true ascii)
  have byte : (UInt8.ofNat c.val.toNat).toNat = c.toNat :=
    UInt8.toNat_ofNat_of_lt' (Nat.lt_of_le_of_lt small (by decide))
  rw [String.utf8EncodeChar, if_pos small, List.map_singleton, byte, Char.ofNat_toNat]

theorem leading_byte (n : Nat) (leading : 192 ≤ n) (byte : n < 256) :
    isAscii (Char.ofNat (UInt8.ofNat n).toNat) = false := by
  have value : (UInt8.ofNat n).toNat = n := UInt8.toNat_ofNat_of_lt' byte
  have valid : n.isValidChar := .inl (by omega)
  have number : (Char.ofNat n).toNat = n := by
    rw [Char.ofNat, dif_pos valid]
    rfl
  rw [value, isAscii, number]
  exact decide_eq_false (by omega)

theorem other_bytes (c : Char) (other : isAscii c = false) (rest : List Char) :
    Bars isAscii ((String.utf8EncodeChar c).map (fun b => Char.ofNat b.toNat) ++ rest) := by
  have large : ¬ c.val.toNat ≤ 127 := fun small =>
    of_decide_eq_false other (Nat.lt_succ_of_le small)
  rw [String.utf8EncodeChar, if_neg large]
  split
  · exact (bars_cons _ _ _).mpr (leading_byte _ (by omega) (by omega))
  · split <;> exact (bars_cons _ _ _).mpr (leading_byte _ (by omega) (by omega))

theorem ascii_encoded (s : List Char) (ascii : ∀ c ∈ s, isAscii c) :
    (s.flatMap String.utf8EncodeChar).map (fun b => Char.ofNat b.toNat) = s := by
  induction s with
  | nil => rfl
  | cons c s ih =>
      rw [List.flatMap_cons, List.map_append, ascii_bytes c (ascii c List.mem_cons_self),
        ih fun d member => ascii d (List.mem_cons_of_mem c member), List.singleton_append]

theorem ascii_size (s : List Char) (ascii : ∀ c ∈ s, isAscii c) : (String.ofList s).utf8ByteSize = s.length := by
  have lengths := congrArg List.length (ascii_encoded s ascii)
  rw [List.length_map] at lengths
  rw [← String.size_toByteArray, String.toByteArray_ofList, List.utf8Encode, List.size_toByteArray, lengths]

theorem byte_chars_front (front rest : List Char) (ascii : ∀ c ∈ front, isAscii c) (stop : Bars isAscii rest) :
    ∃ bytes, byteChars (String.ofList (front ++ rest)) = front ++ bytes ∧ Bars isAscii bytes := by
  refine ⟨(rest.flatMap String.utf8EncodeChar).map fun b => Char.ofNat b.toNat, ?_, ?_⟩
  · rw [byte_chars_of_list, List.flatMap_append, List.map_append, ascii_encoded front ascii]
  · cases rest with
    | nil => simp
    | cons c rest =>
        rw [List.flatMap_cons, List.map_append]
        exact other_bytes c (stop c rfl) _

theorem run_length_front (p : Char → Bool) (narrow : ∀ c, p c → isAscii c) (front rest : List Char)
    (stop : Bars isAscii rest) : runLength p (front ++ rest) = runLength p front := by
  have none : rest.takeWhile p = [] := by
    refine (take_run p [] rest nofun fun c first => ?_).1
    exact Bool.eq_false_iff.mpr fun inside => Bool.eq_false_iff.mp (stop c first) (narrow c inside)
  rw [runLength, runLength, List.takeWhile_append, none, List.append_nil]
  split
  · rename_i whole
    exact whole.symm
  · rfl

theorem run_length_le (p : Char → Bool) (s : List Char) : runLength p s ≤ s.length :=
  (List.takeWhile_prefix p).length_le

theorem sign_length_front (front rest : List Char) (stop : Bars isAscii rest) :
    signLength (front ++ rest) = signLength front := by
  cases front with
  | cons c front => rfl
  | nil =>
      cases rest with
      | nil => rfl
      | cons c rest =>
          have beyond := stop c rfl
          have plain : isSign c = false := by
            rw [isSign, Bool.or_eq_false_iff]
            constructor <;> refine decide_eq_false ?_ <;> rintro rfl <;> cases beyond
          exact if_neg (by simp [plain])

theorem sign_length_le (s : List Char) : signLength s ≤ s.length := by
  cases s with
  | nil => exact Nat.le_refl 0
  | cons c s =>
      rw [signLength, List.length_cons]
      split <;> omega

theorem digit_ascii (c : Char) (digit : c.isDigit) : isAscii c := by
  have range := digit_range c digit
  exact decide_eq_true (by omega)

theorem exponent_length_front (front rest : List Char) (stop : Bars isAscii rest) :
    exponentLength (front ++ rest) = exponentLength front ∧ exponentLength front ≤ front.length := by
  cases front with
  | nil =>
      cases rest with
      | nil => exact ⟨rfl, Nat.le_refl 0⟩
      | cons c rest =>
          have beyond := stop c rfl
          refine ⟨if_neg ?_, Nat.le_refl 0⟩
          rintro ⟨rfl | rfl, _⟩ <;> cases beyond
  | cons mark front =>
      have signed := sign_length_le front
      have digits := run_length_le Char.isDigit (front.drop (signLength front))
      rw [List.length_drop] at digits
      rw [List.cons_append, exponentLength, exponentLength, sign_length_front front rest stop,
        List.drop_append_of_le_length signed, run_length_front _ digit_ascii _ rest stop, List.length_cons]
      refine ⟨rfl, ?_⟩
      split <;> omega

theorem numeral_length_front (front rest : List Char) (stop : Bars isAscii rest) :
    numeralLength? (front ++ rest) = numeralLength? front ∧
      ∀ length, numeralLength? front = some length → length ≤ front.length := by
  have narrow (c : Char) (inside : isMantissaChar c) : isAscii c := by
    rw [isMantissaChar, Bool.or_eq_true, decide_eq_true_eq] at inside
    rcases inside with digit | rfl
    · exact digit_ascii c digit
    · rfl
  have signed := sign_length_le front
  have digits := run_length_le isMantissaChar (front.drop (signLength front))
  rw [List.length_drop] at digits
  have exponent := exponent_length_front
    (front.drop (signLength front + runLength isMantissaChar (front.drop (signLength front)))) rest stop
  rw [List.length_drop] at exponent
  rw [numeralLength?, numeralLength?, sign_length_front front rest stop,
    List.drop_append_of_le_length signed, run_length_front _ narrow _ rest stop,
    List.drop_append_of_le_length (by omega), exponent.1]
  refine ⟨rfl, ?_⟩
  intro length scanned
  by_cases nothing : runLength isMantissaChar (front.drop (signLength front)) = 0
  · rw [if_pos nothing] at scanned
    cases scanned
  · rw [if_neg nothing] at scanned
    cases scanned
    omega

theorem numeral_end_boundary (s : List Char) (length : Nat) (scanned : numeralEnd? (String.ofList s) = some length) :
    (String.ofList (s.take length)).utf8ByteSize = length := by
  have front := List.all_eq_true.mp (List.all_takeWhile (p := isAscii) (l := s))
  obtain ⟨bytes, split, others⟩ := byte_chars_front _ _ front (bars_dropWhile isAscii s)
  obtain ⟨onBytes, bound⟩ := numeral_length_front (s.takeWhile isAscii) bytes others
  rw [List.takeWhile_append_dropWhile] at split
  rw [numeralEnd?, split, onBytes] at scanned
  have within := bound length scanned
  have taken : s.take length = (s.takeWhile isAscii).take length := by
    conv => lhs; rw [← List.takeWhile_append_dropWhile (p := isAscii) (l := s), List.take_append_of_le_length within]
  rw [taken, ascii_size _ fun c member => front c (List.mem_of_mem_take member), List.length_take_of_le within]

theorem numeral_end_length (s : List Char) : numeralEnd? (String.ofList s) = numeralLength? s := by
  have front := List.all_eq_true.mp (List.all_takeWhile (p := isAscii) (l := s))
  have stop := bars_dropWhile isAscii s
  obtain ⟨bytes, split, others⟩ := byte_chars_front _ _ front stop
  have onChars := (numeral_length_front (s.takeWhile isAscii) (s.dropWhile isAscii) stop).1
  rw [List.takeWhile_append_dropWhile] at split onChars
  rw [numeralEnd?, split, (numeral_length_front _ bytes others).1, onChars]

theorem sign_length_sign (s : NumeralSign) (rest : List Char) (plain : Bars isSign rest) :
    signLength (s.chars ++ rest) = s.chars.length := by
  cases s with
  | plus => rfl
  | minus => rfl
  | absent =>
      cases rest with
      | nil => rfl
      | cons c rest => exact if_neg (by simp [plain c rfl])

theorem run_length_run (p : Char → Bool) (run rest : List Char) (inside : ∀ c ∈ run, p c) (stop : Bars p rest) :
    runLength p (run ++ rest) = run.length := by
  rw [runLength, (take_run p run rest inside stop).1]

theorem unit_bars (p : Char → Bool) (plain : ∀ c, isUnitChar c → p c = false) (unit : List Char)
    (units : ∀ c ∈ unit, isUnitChar c) : Bars p unit :=
  fun c first => plain c (units c (List.mem_of_mem_head? first))

theorem unit_not_sign (unit : List Char) (units : ∀ c ∈ unit, isUnitChar c) : Bars isSign unit :=
  unit_bars _ (fun c inside => (unit_char_plain c inside).2.2) unit units

theorem unit_not_digit (unit : List Char) (units : ∀ c ∈ unit, isUnitChar c) : Bars Char.isDigit unit :=
  unit_bars _ (fun c inside => (unit_char_plain c inside).1) unit units

theorem exponent_length_unit (unit : List Char) (units : ∀ c ∈ unit, isUnitChar c) : exponentLength unit = 0 := by
  cases unit with
  | nil => rfl
  | cons c unit =>
      have behind (d : Char) (member : d ∈ unit) := units d (List.mem_cons_of_mem c member)
      have unsigned := sign_length_sign .absent unit (unit_not_sign unit behind)
      have bare := run_length_run Char.isDigit [] unit nofun (unit_not_digit unit behind)
      refine if_neg fun written => written.2 ?_
      rw [show signLength unit = 0 from unsigned]
      exact bare

theorem exponent_length_exponent (e : Option Exponent) (unit : List Char) (units : ∀ c ∈ unit, isUnitChar c) :
    exponentLength (exponentChars e ++ unit) = (exponentChars e).length := by
  cases e with
  | none => exact exponent_length_unit unit units
  | some e =>
      have plain := bars_append isSign e.digits unit (Decimal.digits_bar_sign e.digits e.decimal)
        (unit_not_sign unit units)
      have digits := run_length_run Char.isDigit e.digits unit e.decimal (unit_not_digit unit units)
      have given : e.digits.length ≠ 0 := fun empty => e.given (List.eq_nil_of_length_eq_zero empty)
      have mark : (if e.capital then 'E' else 'e') = 'e' ∨ (if e.capital then 'E' else 'e') = 'E' := by
        cases e.capital <;> simp
      rw [exponentChars, Exponent.chars, List.cons_append, List.append_assoc, exponentLength,
        sign_length_sign e.sign _ plain, List.drop_left, digits, if_pos ⟨mark, given⟩, List.length_cons,
        List.length_append]
      omega

theorem numeral_length_literal (l : Literal) : numeralLength? l.chars = some l.numeral.chars.length := by
  have stop : Bars isMantissaChar (exponentChars l.numeral.exponent ++ l.unit) := by
    apply Decimal.exponent_bars _ rfl rfl
    refine unit_bars _ (fun c inside => ?_) l.unit l.unit_chars
    obtain ⟨notDigit, notPoint, _⟩ := unit_char_plain c inside
    rw [isMantissaChar, notDigit, Bool.false_or]
    exact decide_eq_false notPoint
  have inside := Decimal.mantissa_class isMantissaChar rfl (fun c digit => by simp [isMantissaChar, digit]) l.numeral
  have mantissa := run_length_run isMantissaChar l.numeral.mantissa _ inside stop
  have given : l.numeral.mantissa.length ≠ 0 := by
    obtain ⟨c, s, front, _⟩ := Decimal.mantissa_front l.numeral
    simp [front]
  have split : l.chars =
      l.numeral.sign.chars ++ (l.numeral.mantissa ++ (exponentChars l.numeral.exponent ++ l.unit)) := by
    simp only [Literal.chars, Numeral.chars, List.append_assoc]
  rw [split, numeralLength?, sign_length_sign _ _ (Decimal.mantissa_unsigned l.numeral _), List.drop_left,
    mantissa, if_neg given, ← List.drop_drop, List.drop_left, List.drop_left,
    exponent_length_exponent _ _ l.unit_chars, Numeral.chars, List.length_append, List.length_append, Nat.add_assoc]

end Scanner

namespace Numeric

variable {α : Type} [Scalar α]

def ofParts? (numeral units : List Char) : Option (Numeric α) := do
  let d ← Decimal.ofText? numeral
  let kind ← Kind.ofUnits? (lower (String.ofList units))
  return ⟨kind, Scalar.ofDecimal d, lower (String.ofList units)⟩

theorem of_parts_iff (numeral units : List Char) (n : Numeric α) :
    ofParts? numeral units = some n ↔
      ∃ l : Literal, l.numeral.chars = numeral ∧ l.unit = units ∧ l.numeric = n := by
  rw [ofParts?]
  constructor
  · intro given
    cases read : Decimal.ofText? numeral with
    | none =>
        rw [read] at given
        cases given
    | some d =>
        obtain ⟨written, whole, value⟩ := (Decimal.decimal_text_iff numeral d).mp read
        cases known : Kind.ofUnits? (lower (String.ofList units)) with
        | none => simp [read, known] at given
        | some kind =>
            refine ⟨⟨written, units, kind, known⟩, whole, rfl, ?_⟩
            simpa [read, known, Literal.numeric, value] using given
  · rintro ⟨l, rfl, rfl, rfl⟩
    have read := (Decimal.decimal_text_iff l.numeral.chars l.numeral.decimal).mpr ⟨l.numeral, rfl, rfl⟩
    simp [read, l.known, Literal.numeric]

theorem scanned_text (s : String) (length : Nat) (scanned : Scanner.numeralEnd? (trim s) = some length) :
    ∃ front units : String, trim s = front ++ units ∧ front.utf8ByteSize = length ∧
      (ofText? s : Option (Numeric α)) = ofParts? front.toList units.toList := by
  have boundary := Scanner.numeral_end_boundary (trimChars s.toList) length scanned
  rw [trim, Scanner.numeral_end_length] at scanned
  refine ⟨String.ofList ((trimChars s.toList).take length), String.ofList ((trimChars s.toList).drop length),
    ?_, boundary, ?_⟩
  · rw [← String.ofList_append, List.take_append_drop, trim]
  · ext n
    rw [literal_text_iff, of_parts_iff, String.toList_ofList, String.toList_ofList]
    constructor
    · rintro ⟨l, whole, value⟩
      rw [← whole, Scanner.numeral_length_literal] at scanned
      obtain rfl := Option.some.inj scanned
      refine ⟨l, ?_, ?_, value⟩
      · rw [← whole, Literal.chars, List.take_left]
      · rw [← whole, Literal.chars, List.drop_left]
    · rintro ⟨l, numeral, unit, value⟩
      exact ⟨l, by rw [Literal.chars, numeral, unit, List.take_append_drop], value⟩

theorem unscanned_text (s : String) (scanned : Scanner.numeralEnd? (trim s) = none) :
    ¬ ∃ l : Literal, l.chars = trimChars s.toList := by
  rintro ⟨l, whole⟩
  rw [trim, Scanner.numeral_end_length, ← whole, Scanner.numeral_length_literal] at scanned
  cases scanned

theorem parse_ok_iff (s : String) (n : Numeric α) :
    parse s = .ok n ↔ ∃ l : Literal, l.chars = trimChars s.toList ∧ l.numeric = n := by
  rw [← literal_text_iff, parse]
  cases (ofText? s : Option (Numeric α)) <;> simp

theorem parse_error_iff (s : String) (e : ExprError α) :
    parse s = .error e ↔ e = .invalidLiteral s ∧ ¬ ∃ l : Literal, l.chars = trimChars s.toList := by
  rw [parse]
  cases read : (ofText? s : Option (Numeric α)) with
  | some n =>
      obtain ⟨l, whole, _⟩ := (literal_text_iff s n).mp read
      constructor
      · intro refused
        cases refused
      · rintro ⟨_, none⟩
        exact absurd ⟨l, whole⟩ none
  | none =>
      have none : ¬ ∃ l : Literal, l.chars = trimChars s.toList := by
        rintro ⟨l, whole⟩
        have found := (literal_text_iff s (l.numeric : Numeric α)).mpr ⟨l, whole, rfl⟩
        rw [read] at found
        cases found
      constructor
      · rintro ⟨⟩
        exact ⟨rfl, none⟩
      · rintro ⟨rfl, _⟩
        rfl

theorem beyond_ascii_no_literal (s : List Char) (beyond : ∃ c ∈ s, 127 < c.toNat) :
    ¬ ∃ l : Literal, l.chars = s := by
  rintro ⟨l, rfl⟩
  obtain ⟨c, member, high⟩ := beyond
  have range := literal_char_range c (l.literal_chars c member)
  omega

theorem literals_follow_grammar (s : String) :
    (∀ n : Numeric α, parse s = .ok n ↔ ∃ l : Literal, l.chars = trimChars s.toList ∧ l.numeric = n) ∧
    (∀ e : ExprError α, parse s = .error e ↔
      e = .invalidLiteral s ∧ ¬ ∃ l : Literal, l.chars = trimChars s.toList) ∧
    ((∃ c ∈ trimChars s.toList, 127 < c.toNat) → parse (α := α) s = .error (.invalidLiteral s)) ∧
    (∀ l m : Literal, l.chars = m.chars → l = m) ∧
    (∀ l : Literal, Decimal.ofText? l.numeral.chars = some l.numeral.decimal) ∧
    (∀ length, Scanner.numeralEnd? (trim s) = some length →
      ∃ front units : String, trim s = front ++ units ∧ front.utf8ByteSize = length ∧
        (ofText? s : Option (Numeric α)) = ofParts? front.toList units.toList) ∧
    (Scanner.numeralEnd? (trim s) = none → parse (α := α) s = .error (.invalidLiteral s)) := by
  refine ⟨parse_ok_iff s, parse_error_iff s, ?_, ?_, ?_, scanned_text s, ?_⟩
  · intro beyond
    exact (parse_error_iff s _).mpr ⟨rfl, beyond_ascii_no_literal _ beyond⟩
  · intro l m same
    exact (l.literal_unique m [] [] (by simp) (by simp) (by rw [same])).1
  · exact fun l => (Decimal.decimal_text_iff _ _).mpr ⟨l.numeral, rfl, rfl⟩
  · intro scanned
    exact (parse_error_iff s _).mpr ⟨rfl, unscanned_text s scanned⟩

def writtenEm : Literal where
  numeral :=
    { sign := .minus, whole := ['2'], fraction := some ['5'], exponent := none
      wholeDecimal := List.forall_mem_singleton.mpr rfl
      fractionDecimal := fun _ same => Option.some.inj same ▸ List.forall_mem_singleton.mpr rfl
      given := by decide }
  unit := ['E', 'M']
  kind := .length
  known := by decide

theorem written_em_by_grammar :
    parse "\t-2.5EM\u00a0" = .ok (⟨.length, -2.5, "em"⟩ : Numeric Float) ∧
    (∃ c ∈ trimChars "1e3\u017f".toList, 127 < c.toNat) ∧
    parse (α := Float) "1e3\u017f" = .error (.invalidLiteral "1e3\u017f") ∧
    Scanner.numeralEnd? (trim "2e\u017f") = some 1 ∧
    (∃ front units : String, trim "2e\u017f" = front ++ units ∧ front.utf8ByteSize = 1 ∧
      (ofText? "2e\u017f" : Option (Numeric Float)) = ofParts? front.toList units.toList) ∧
    Scanner.numeralEnd? (trim "px") = none ∧
    parse (α := Float) "px" = .error (.invalidLiteral "px") := by
  have whole : writtenEm.chars = trimChars "\t-2.5EM\u00a0".toList := by decide
  have beyond : ∃ c ∈ trimChars "1e3\u017f".toList, 127 < c.toNat := ⟨'\u017f', by decide, by decide⟩
  have cut : Scanner.numeralEnd? (trim "2e\u017f") = some 1 := by decide
  have bare : Scanner.numeralEnd? (trim "px") = none := by decide
  obtain ⟨accepted, _⟩ := literals_follow_grammar (α := Float) "\t-2.5EM\u00a0"
  obtain ⟨_, _, refused, _⟩ := literals_follow_grammar (α := Float) "1e3\u017f"
  obtain ⟨_, _, _, _, _, scanned, _⟩ := literals_follow_grammar (α := Float) "2e\u017f"
  obtain ⟨_, _, _, _, _, _, unscanned⟩ := literals_follow_grammar (α := Float) "px"
  exact ⟨(accepted _).mpr ⟨writtenEm, whole, rfl⟩, beyond, refused beyond, cut, scanned 1 cut, bare, unscanned bare⟩

end Numeric

end StyleCalc
