import Mathlib.Data.List.TakeWhile
import StyleCalc.Proofs.Markers
import StyleCalc.Proofs.Pieces
import StyleCalc.Proofs.Rereading

set_option autoImplicit false

namespace StyleCalc

namespace Text

theorem blank_not_word (c : Char) (blank : isBlank c) : isWord c = false := by
  have apart : ∀ n ∈ blanks, isWord (Char.ofNat n) = false := by decide +kernel
  have plain := apart c.toNat (List.contains_iff_mem.mp blank)
  rwa [Char.ofNat_toNat] at plain

theorem sign_not_word (c : Char) (sign : isSign c) : isWord c = false := by
  rw [isSign, Bool.or_eq_true, decide_eq_true_eq, decide_eq_true_eq] at sign
  rcases sign with rfl | rfl <;> decide +kernel

theorem not_word_not_digit (c : Char) (noWord : isWord c = false) : isDigit c = false :=
  (Bool.or_eq_false_iff.mp noWord).1

theorem not_word_fold (c : Char) (noWord : isWord c = false) : (fold c).isAlpha = false := by
  rw [Bool.eq_false_iff]
  intro alpha
  rw [fold_alpha_word c alpha] at noWord
  cases noWord

theorem digit_fold (c : Char) (digit : c.isDigit) : (fold c).isAlpha = false := by
  have range := digit_range c digit
  have noLetter : c.isAlpha = false := by
    rw [Bool.eq_false_iff]
    intro alpha
    have letters := alpha_range c alpha
    omega
  have same : fold c = c := by
    refine (fold_symbol c c noLetter ?_ ?_).mpr rfl <;> rintro rfl <;> cases digit
  rw [same, noLetter]

theorem trim_split (s : List Char) :
    ∃ front back, s = front ++ (trimChars s ++ back) ∧ (∀ c ∈ front, isBlank c) ∧ ∀ c ∈ back, isBlank c := by
  have first := List.takeWhile_append_dropWhile (p := isBlank) (l := s)
  have last := List.takeWhile_append_dropWhile (p := isBlank) (l := (s.dropWhile isBlank).reverse)
  refine ⟨s.takeWhile isBlank, ((s.dropWhile isBlank).reverse.takeWhile isBlank).reverse, ?_, ?_, ?_⟩
  · rw [trimChars, ← List.reverse_append, last, List.reverse_reverse, first]
  · exact fun c member => List.mem_takeWhile_imp member
  · exact fun c member => List.mem_takeWhile_imp (List.mem_reverse.mp member)

def beforeUnit? (t : String) : Option Char :=
  ((trimChars t.toList).reverse.dropWhile Char.isAlpha).head?

theorem before_unit (t : String) (s unit : List Char) (c : Char) (whole : trimChars t.toList = s ++ c :: unit)
    (letters : ∀ l ∈ unit, l.isAlpha) (noLetter : c.isAlpha = false) : beforeUnit? t = some c := by
  rw [beforeUnit?, whole, List.reverse_append, List.reverse_cons, List.append_assoc,
    List.dropWhile_append_of_pos fun l member => letters l (List.mem_reverse.mp member), List.singleton_append,
    List.dropWhile_cons_of_neg (Bool.eq_false_iff.mp noLetter), List.head?_cons]

end Text

namespace Scan

open Text

theorem starts_call_opening (s : List Char) (starts : startsCall s) : '(' ∈ s := by
  obtain ⟨name, _, found⟩ := List.any_eq_true.mp starts
  obtain ⟨rest, dropped⟩ := Option.isSome_iff_exists.mp found
  obtain ⟨front, rfl, folded⟩ := (dropWord_eq_some _ _ _).mp dropped
  have opening : '(' ∈ front.map fold := by simp [folded]
  obtain ⟨c, member, same⟩ := List.mem_map.mp opening
  obtain rfl := (fold_symbol c '(' rfl (by decide) (by decide)).mp same
  exact List.mem_append_left rest member

theorem has_call_opening (before : Option Char) (s : List Char) (found : hasCall before s) : '(' ∈ s := by
  induction s generalizing before with
  | nil => cases found
  | cons c s ih =>
      rw [hasCall, Bool.or_eq_true, Bool.and_eq_true] at found
      rcases found with ⟨starts, _⟩ | behind
      · exact starts_call_opening (c :: s) starts
      · exact List.mem_cons_of_mem c (ih (some c) behind)

theorem starts_unit_letter (s : List Char) (starts : startsUnit s) : ∃ c ∈ s, (fold c).isAlpha := by
  have letters : ∀ unit ∈ relativeUnits, ∃ l ∈ unit.toList, l.isAlpha := by simp [relativeUnits]
  obtain ⟨unit, member, found⟩ := List.any_eq_true.mp starts
  cases dropped : dropWord? unit.toList s with
  | none =>
      rw [dropped] at found
      cases found
  | some rest =>
      obtain ⟨front, rfl, folded⟩ := (dropWord_eq_some _ _ _).mp dropped
      obtain ⟨l, inside, alpha⟩ := letters unit member
      rw [← folded] at inside
      obtain ⟨c, among, rfl⟩ := List.mem_map.mp inside
      exact ⟨c, List.mem_append_left rest among, alpha⟩

theorem has_unit_parts (s : List Char) (found : hasUnit s) : (∃ c ∈ s, isDigit c) ∧ ∃ c ∈ s, (fold c).isAlpha := by
  induction s with
  | nil => cases found
  | cons c s ih =>
      rw [hasUnit, Bool.or_eq_true, Bool.and_eq_true] at found
      rcases found with ⟨starts, digit⟩ | behind
      · obtain ⟨d, member, alpha⟩ := starts_unit_letter s starts
        exact ⟨⟨c, List.mem_cons_self, digit⟩, d, List.mem_cons_of_mem c member, alpha⟩
      · obtain ⟨⟨d, member, digit⟩, l, among, alpha⟩ := ih behind
        exact ⟨⟨d, List.mem_cons_of_mem c member, digit⟩, l, List.mem_cons_of_mem c among, alpha⟩

theorem no_unit_without_letter (s : List Char) (noLetter : ∀ c ∈ s, (fold c).isAlpha = false) : hasUnit s = false := by
  refine Bool.eq_false_iff.mpr fun found => ?_
  obtain ⟨_, c, member, alpha⟩ := has_unit_parts s found
  rw [noLetter c member] at alpha
  cases alpha

theorem no_unit_without_digit (s : List Char) (noDigit : ∀ c ∈ s, isDigit c = false) : hasUnit s = false := by
  refine Bool.eq_false_iff.mpr fun found => ?_
  obtain ⟨⟨c, member, digit⟩, _⟩ := has_unit_parts s found
  rw [noDigit c member] at digit
  cases digit

theorem pointed_text_plain (front back : List Char) (noOpening : '(' ∉ front ++ '.' :: back)
    (noLetter : ∀ c ∈ front, (fold c).isAlpha = false) (noDigit : ∀ c ∈ back, isDigit c = false) :
    hasCall none (front ++ '.' :: back) = false ∧ hasUnit (front ++ '.' :: back) = false := by
  have point : isWord '.' = false := by decide +kernel
  constructor
  · exact Bool.eq_false_iff.mpr fun found => noOpening (has_call_opening none _ found)
  · rw [has_unit_between _ _ '.' point, no_unit_without_letter front noLetter, no_unit_without_digit back noDigit]
    rfl

end Scan

namespace Numeric

open Text Scan

variable {α : Type} [Scalar α]

theorem changed_units_relative (ctx : Context α) (n m : Numeric α) (converted : n.normalize ctx = .ok m)
    (changed : m.units ≠ n.units) : n.units ∈ relativeUnits := by
  have table : ∀ u ∈ n.kind.convertible, u ≠ n.kind.canonicalUnits → u ∈ relativeUnits := by
    cases n.kind <;> decide
  by_cases settled : n.kind = .count ∨ n.kind = .percent ∨ n.units = n.kind.canonicalUnits
  · rw [normalize, if_pos settled] at converted
    exact absurd (congrArg units (Except.ok.inj converted)).symm changed
  · rw [normalize, if_neg settled] at converted
    cases value : n.converted? ctx with
    | none =>
        rw [value] at converted
        cases converted
    | some x => exact table n.units (converted_convertible ctx n x value) fun same => settled (.inr (.inr same))

theorem unit_letters (l : Literal) (relative : (l.numeric : Numeric α).units ∈ relativeUnits) :
    ∀ c ∈ l.unit, c.isAlpha := by
  have table : ∀ u ∈ relativeUnits, ∀ c ∈ u.toList, c.isAlpha := by simp [relativeUnits]
  intro c member
  have lowered := table _ relative c.toLower (by
    change c.toLower ∈ (lower (String.ofList l.unit)).toList
    rw [lower, String.toList_ofList, String.toList_ofList]
    exact List.mem_map_of_mem member)
  simpa using lowered

theorem digit_scanned (t : String) (l : Literal) (s : List Char) (c : Char)
    (whole : trimChars t.toList = s ++ c :: l.unit) (digit : c.isDigit)
    (relative : (l.numeric : Numeric α).units ∈ relativeUnits) : needsResolution t true := by
  obtain ⟨front, back, split, _, blank⟩ := trim_split t.toList
  have stop : Bars isWord (back.map Char.toLower) := by
    intro d first
    rw [List.head?_map, Option.map_eq_some_iff] at first
    obtain ⟨b, head, rfl⟩ := first
    simpa using blank_not_word b (blank b (List.mem_of_mem_head? head))
  have units : l.unit.map Char.toLower = (l.numeric : Numeric α).units.toList := by
    change _ = (lower (String.ofList l.unit)).toList
    rw [lower, String.toList_ofList, String.toList_ofList]
  have starts : startsUnit (l.unit ++ back) := by
    rw [← starts_unit_lower, List.map_append, units]
    exact starts_unit _ relative _ stop
  have found := has_unit_behind (front ++ s) (l.unit ++ back) c (isDigit_of_ascii c digit) starts
  have same : t.toList = (front ++ s) ++ c :: (l.unit ++ back) := by
    rw [split, whole]
    simp only [List.append_assoc, List.cons_append]
  rw [needsResolution, same, found, Bool.and_true, Bool.or_true]

theorem point_not_scanned (t : String) (sign : NumeralSign) (digits unit : List Char)
    (whole : trimChars t.toList = sign.chars ++ digits ++ '.' :: unit) (decimal : ∀ c ∈ digits, c.isDigit)
    (letters : ∀ c ∈ unit, c.isAlpha) : needsResolution t true = false := by
  obtain ⟨front, back, split, blankFront, blankBack⟩ := trim_split t.toList
  have same : t.toList = (front ++ (sign.chars ++ digits)) ++ '.' :: (unit ++ back) := by
    rw [split, whole]
    simp only [List.append_assoc, List.cons_append]
  have signs : ∀ c ∈ sign.chars, isSign c := by cases sign <;> simp [NumeralSign.chars, isSign]
  have apart (p : Char → Bool) (other : p '(' = false) (s : List Char) (inside : ∀ c ∈ s, p c) : '(' ∉ s := by
    intro member
    rw [inside _ member] at other
    cases other
  have noOpening : '(' ∉ (front ++ (sign.chars ++ digits)) ++ '.' :: (unit ++ back) := by
    simp only [List.mem_append, List.mem_cons, not_or]
    exact ⟨⟨apart isBlank rfl front blankFront, apart isSign rfl _ signs, apart Char.isDigit rfl digits decimal⟩,
      by decide, apart Char.isAlpha rfl unit letters, apart isBlank rfl back blankBack⟩
  have noLetter : ∀ c ∈ front ++ (sign.chars ++ digits), (fold c).isAlpha = false := by
    simp only [List.forall_mem_append]
    exact ⟨fun c member => not_word_fold c (blank_not_word c (blankFront c member)),
      fun c member => not_word_fold c (sign_not_word c (signs c member)),
      fun c member => digit_fold c (decimal c member)⟩
  have noDigit : ∀ c ∈ unit ++ back, isDigit c = false := by
    simp only [List.forall_mem_append]
    exact ⟨fun c member => alpha_not_digit c (letters c member),
      fun c member => not_word_not_digit c (blank_not_word c (blankBack c member))⟩
  obtain ⟨call, unit⟩ := pointed_text_plain _ _ noOpening noLetter noDigit
  rw [needsResolution, same, call, unit]
  rfl

theorem converted_literals_scanned (t : String) (n m : Numeric α) (ctx : Context α)
    (read : ofText? t = some n) (converted : n.normalize ctx = .ok m) (changed : m.units ≠ n.units) :
    needsResolution t true ↔ beforeUnit? t ≠ some '.' := by
  obtain ⟨l, whole, rfl⟩ := (literal_text_iff t n).mp read
  have relative := changed_units_relative ctx _ m converted changed
  have letters := unit_letters l relative
  rw [Literal.chars] at whole
  by_cases pointed : l.numeral.exponent = none ∧ l.numeral.fraction = some []
  · obtain ⟨noExponent, empty⟩ := pointed
    have split : trimChars t.toList = l.numeral.sign.chars ++ l.numeral.whole ++ '.' :: l.unit := by
      rw [← whole, Numeral.chars, Numeral.mantissa, noExponent, empty]
      simp [fractionChars, exponentChars]
    rw [point_not_scanned t l.numeral.sign l.numeral.whole l.unit split l.numeral.wholeDecimal letters,
      before_unit t _ l.unit '.' split letters rfl]
    simp
  · obtain ⟨s, c, last, digit⟩ := l.numeral.last_digit fun noExponent empty => pointed ⟨noExponent, empty⟩
    have split : trimChars t.toList = s ++ c :: l.unit := by
      rw [← whole, last, List.append_assoc, List.singleton_append]
    have noLetter : c.isAlpha = false :=
      Bool.eq_false_iff.mpr fun alpha => by
        have letters := alpha_range c alpha
        have digits := digit_range c digit
        omega
    rw [before_unit t s l.unit c split letters noLetter]
    refine iff_of_true (digit_scanned t l s c split digit relative) ?_
    rintro ⟨⟩
    cases digit

theorem pointed_em_escapes_scan :
    ofText? " +5.0EM\n" = some (⟨.length, 5, "em"⟩ : Numeric Float) ∧
    ofText? "5.em" = some (⟨.length, 5, "em"⟩ : Numeric Float) ∧
    (⟨.length, 5, "em"⟩ : Numeric Float).normalize (.page fun _ => none) = .ok ⟨.length, 5 * 16, "px"⟩ ∧
    "px" ≠ "em" ∧ needsResolution " +5.0EM\n" true ∧ ¬ needsResolution "5.em" true := by
  have full : ofText? " +5.0EM\n" = some (⟨.length, 5, "em"⟩ : Numeric Float) := by decide +kernel
  have pointed : ofText? "5.em" = some (⟨.length, 5, "em"⟩ : Numeric Float) := by decide +kernel
  have converted : (⟨.length, 5, "em"⟩ : Numeric Float).normalize (.page fun _ => none) =
      .ok ⟨.length, 5 * 16, "px"⟩ := rfl
  refine ⟨full, pointed, converted, by decide, ?_, ?_⟩
  · exact (converted_literals_scanned _ _ _ _ full converted (by decide)).mpr (by decide +kernel)
  · exact fun found => (converted_literals_scanned _ _ _ _ pointed converted (by decide)).mp found
      (by decide +kernel)

theorem pointed_em_is_missed :
    ¬ ∀ (t : String) (n m : Numeric Float) (ctx : Context Float), ofText? t = some n → n.normalize ctx = .ok m →
      m.units ≠ n.units → needsResolution t true := by
  intro complete
  have pointed : ofText? "5.em" = some (⟨.length, 5, "em"⟩ : Numeric Float) := by decide +kernel
  have found := complete "5.em" _ ⟨.length, 5 * 16, "px"⟩ (.page fun _ => none) pointed rfl (by decide)
  have missed : needsResolution "5.em" true = false := by decide +kernel
  rw [missed] at found
  cases found

end Numeric

end StyleCalc
