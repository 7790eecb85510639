import StyleCalc.Scan
import StyleCalc.Text.Blank

set_option autoImplicit false

namespace StyleCalc

namespace Text

theorem alpha_word (c : Char) (alpha : c.isAlpha) : isWord c = true := by
  rw [isWord, Bool.or_eq_true]
  right
  rw [alpha_iff, capital_iff, small_iff] at alpha
  rcases alpha with capital | small
  · exact inRanges_of_mem wordRanges c (0x41, 0x5A) (.head _) capital.1 capital.2
  · exact inRanges_of_mem wordRanges c (0x61, 0x7A) (.tail _ (.tail _ (.head _))) small.1 small.2

theorem alpha_not_digit (c : Char) (alpha : c.isAlpha) : isDigit c = false := by
  have apart : ∀ r ∈ digitRanges, r.2 < 65 ∨ 122 < r.1 := by decide
  rw [alpha_iff, capital_iff, small_iff] at alpha
  rw [isDigit, inRanges, List.any_eq_false]
  intro r member
  have outside := apart r member
  simp only [Bool.and_eq_true, decide_eq_true_eq]
  omega

-- The long s and the Kelvin sign fold to letters, and they are part of words too.
theorem fold_alpha_word (c : Char) (alpha : (fold c).isAlpha) : isWord c = true := by
  rcases (fold_eq_iff c (fold c)).mp rfl with ⟨rfl, _⟩ | ⟨rfl, _⟩ | ⟨_, _, lowered⟩
  · decide +kernel
  · decide +kernel
  · exact alpha_word c (by simpa [← lowered] using alpha)

theorem to_lower_cases (c : Char) : c.isAlpha ∨ c.toLower = c := by
  by_cases alpha : c.isAlpha
  · exact .inl alpha
  · exact .inr ((to_lower_eq_iff c c (Bool.eq_false_iff.mpr alpha)).mpr rfl)

@[simp]
theorem word_to_lower (c : Char) : isWord c.toLower = isWord c := by
  rcases to_lower_cases c with alpha | same
  · rw [alpha_word c alpha, alpha_word c.toLower (by simpa using alpha)]
  · rw [same]

@[simp]
theorem digit_to_lower (c : Char) : isDigit c.toLower = isDigit c := by
  rcases to_lower_cases c with alpha | same
  · rw [alpha_not_digit c alpha, alpha_not_digit c.toLower (by simpa using alpha)]
  · rw [same]

@[simp]
theorem fold_to_lower (c : Char) : fold c.toLower = fold c := by
  have folded := (fold_eq_iff c (fold c)).mp rfl
  simpa [fold_eq_iff] using folded

theorem drop_word_lower (word s : List Char) :
    dropWord? word (s.map Char.toLower) = (dropWord? word s).map (List.map Char.toLower) := by
  induction word generalizing s with
  | nil => rfl
  | cons l word ih =>
      cases s with
      | nil => rfl
      | cons c s =>
          rw [List.map_cons, dropWord?, dropWord?, fold_to_lower]
          by_cases same : fold c = l
          · rw [if_pos same, if_pos same, ih]
          · rw [if_neg same, if_neg same, Option.map_none]

theorem drop_word_before (word a b : List Char) (c : Char) (other : fold c ∉ word) :
    dropWord? word (a ++ c :: b) = (dropWord? word a).map (· ++ c :: b) := by
  induction word generalizing a with
  | nil => rfl
  | cons l word ih =>
      rw [List.mem_cons, not_or] at other
      cases a with
      | nil => exact if_neg other.1
      | cons d a =>
          rw [List.cons_append, dropWord?, dropWord?]
          by_cases same : fold d = l
          · rw [if_pos same, if_pos same, ih a other.2]
          · rw [if_neg same, if_neg same, Option.map_none]

end Text

namespace Scan

open Text

theorem starts_call_lower (s : List Char) : startsCall (s.map Char.toLower) = startsCall s := by
  simp only [startsCall, drop_word_lower, Option.isSome_map]

theorem starts_unit_lower (s : List Char) : startsUnit (s.map Char.toLower) = startsUnit s := by
  rw [startsUnit, startsUnit]
  refine congrArg relativeUnits.any (funext fun unit => ?_)
  rw [drop_word_lower]
  cases dropWord? unit.toList s with
  | none => rfl
  | some rest => cases rest <;> simp

theorem has_call_lower (before : Option Char) (s : List Char) :
    hasCall (before.map Char.toLower) (s.map Char.toLower) = hasCall before s := by
  induction s generalizing before with
  | nil => rfl
  | cons c s ih =>
      have starts := starts_call_lower (c :: s)
      have bounds : (before.map Char.toLower).any isWord = before.any isWord := by
        cases before <;> simp
      rw [List.map_cons] at starts
      rw [List.map_cons, hasCall, hasCall, starts, bounds, ← ih (some c), Option.map_some]

theorem has_unit_lower (s : List Char) : hasUnit (s.map Char.toLower) = hasUnit s := by
  induction s with
  | nil => rfl
  | cons c s ih => rw [List.map_cons, hasUnit, hasUnit, starts_unit_lower, digit_to_lower, ih]

theorem needs_resolution_lower (s : String) (convert : Bool) :
    needsResolution (lower s) convert = needsResolution s convert := by
  have calls := has_call_lower none s.toList
  rw [Option.map_none] at calls
  rw [needsResolution, lower, String.toList_ofList, calls, has_unit_lower, needsResolution]

section Separators

variable (a b : List Char) (c : Char) (noWord : isWord c = false)

include noWord

theorem separator_not_letter (word : List Char) (letters : ∀ l ∈ word, l.isAlpha) : fold c ∉ word := by
  intro member
  rw [fold_alpha_word c (letters _ member)] at noWord
  cases noWord

theorem starts_unit_before : startsUnit (a ++ c :: b) = startsUnit a := by
  have letters : ∀ unit ∈ relativeUnits, ∀ l ∈ unit.toList, l.isAlpha := by simp [relativeUnits]
  rw [startsUnit, startsUnit, Bool.eq_iff_iff, List.any_eq_true, List.any_eq_true]
  refine exists_congr fun unit => and_congr_right fun member => ?_
  rw [drop_word_before _ a b c (separator_not_letter c noWord unit.toList (letters unit member))]
  cases dropWord? unit.toList a with
  | none => rfl
  | some rest => cases rest <;> simp [noWord]

theorem has_unit_between : hasUnit (a ++ c :: b) = (hasUnit a || hasUnit b) := by
  induction a with
  | nil =>
      have noDigit : isDigit c = false := by
        rw [isWord, Bool.or_eq_false_iff] at noWord
        exact noWord.1
      change hasUnit (c :: b) = hasUnit b
      rw [hasUnit, noDigit, Bool.and_false, Bool.false_or]
  | cons d a ih => rw [List.cons_append, hasUnit, hasUnit, starts_unit_before a b c noWord, ih, Bool.or_assoc]

variable (noOpening : c ≠ '(')

include noOpening

theorem starts_call_before : startsCall (a ++ c :: b) = startsCall a := by
  have letters : ∀ name ∈ dynamicFunctions, ∀ l ∈ name.toList, l.isAlpha := by simp [dynamicFunctions]
  rw [startsCall, startsCall, Bool.eq_iff_iff, List.any_eq_true, List.any_eq_true]
  refine exists_congr fun name => and_congr_right fun member => ?_
  have other : fold c ∉ name.toList ++ ['('] := by
    rw [List.mem_append, List.mem_singleton, fold_symbol c '(' rfl (by decide) (by decide), not_or]
    exact ⟨separator_not_letter c noWord name.toList (letters name member), noOpening⟩
  rw [drop_word_before _ a b c other, Option.isSome_map]

theorem has_call_between (before : Option Char) :
    hasCall before (a ++ c :: b) = (hasCall before a || hasCall none b) := by
  induction a generalizing before with
  | nil =>
      have noCall : startsCall (c :: b) = false := starts_call_before [] b c noWord noOpening
      have freed : hasCall (some c) b = hasCall none b := by
        cases b with
        | nil => rfl
        | cons d b => rw [hasCall, hasCall, Option.any_some, noWord, Option.any_none]
      change hasCall before (c :: b) = hasCall none b
      rw [hasCall, noCall, Bool.false_and, Bool.false_or, freed]
  | cons d a ih =>
      have starts := starts_call_before (d :: a) b c noWord noOpening
      rw [List.cons_append] at starts
      rw [List.cons_append, hasCall, hasCall, starts, ih, Bool.or_assoc]

end Separators

theorem needs_resolution_between (a b : String) (c : Char) (convert : Bool) (noWord : isWord c = false)
    (noOpening : c ≠ '(') :
    needsResolution (a ++ c.toString ++ b) convert = (needsResolution a convert || needsResolution b convert) := by
  have whole : (a ++ c.toString ++ b).toList = a.toList ++ c :: b.toList := by
    rw [String.toList_append, String.toList_append, Char.toString_eq_singleton, String.toList_singleton,
      List.append_assoc, List.singleton_append]
  rw [needsResolution, whole, has_call_between _ _ c noWord noOpening, has_unit_between _ _ c noWord]
  cases convert with
  | false => simp [needsResolution]
  | true =>
      simp only [needsResolution, Bool.true_and]
      ac_rfl

theorem needs_resolution_pieces (c : Char) (convert : Bool) (noWord : isWord c = false) (noOpening : c ≠ '(')
    (pieces : List String) :
    needsResolution (c.toString.intercalate pieces) convert =
      pieces.any fun piece => needsResolution piece convert := by
  induction pieces with
  | nil => cases convert <;> rfl
  | cons piece pieces ih =>
      cases pieces with
      | nil => simp
      | cons next rest =>
          rw [String.intercalate_cons_cons, needs_resolution_between _ _ c convert noWord noOpening, ih,
            List.any_cons (l := next :: rest)]

theorem scan_is_compositional (separator : Char) (noWord : isWord separator = false)
    (noOpening : separator ≠ '(') (convert : Bool) :
    (∀ a b, needsResolution (a ++ separator.toString ++ b) convert ↔
      needsResolution a convert ∨ needsResolution b convert) ∧
    (∀ pieces, needsResolution (separator.toString.intercalate pieces) convert ↔
      ∃ piece ∈ pieces, needsResolution piece convert) ∧
    ∀ s t, lower s = lower t → needsResolution s convert = needsResolution t convert := by
  refine ⟨fun a b => ?_, fun pieces => ?_, fun s t same => ?_⟩
  · rw [needs_resolution_between a b separator convert noWord noOpening, Bool.or_eq_true]
  · rw [needs_resolution_pieces separator convert noWord noOpening pieces, List.any_eq_true]
  · rw [← needs_resolution_lower s, same, needs_resolution_lower t]

theorem shorthand_scanned :
    isWord ' ' = false ∧ ' ' ≠ '(' ∧ needsResolution "10 em solid 2EM" true ∧
    ¬ needsResolution "10 em solid" true ∧ needsResolution "10 em solid 2em" true := by
  have noWord : isWord ' ' = false := by decide +kernel
  obtain ⟨between, pieces, capitals⟩ := scan_is_compositional ' ' noWord (by decide) true
  have last : needsResolution "2EM" true := by decide +kernel
  have whole : needsResolution "10 em solid 2EM" true := (between "10 em solid" "2EM").mpr (.inr last)
  refine ⟨noWord, by decide, whole, ?_, ?_⟩
  · intro found
    have each : ∀ piece ∈ ["10", "em", "solid"], ¬ needsResolution piece true := by decide +kernel
    obtain ⟨piece, member, needs⟩ := (pieces ["10", "em", "solid"]).mp found
    exact each piece member needs
  · rw [capitals "10 em solid 2em" "10 em solid 2EM" (by decide +kernel)]
    exact whole

end Scan

end StyleCalc
