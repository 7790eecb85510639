import StyleCalc.Decimal.Basic

set_option autoImplicit false

namespace StyleCalc

inductive NumeralSign where
  | absent
  | plus
  | minus
deriving DecidableEq

structure Exponent where
  capital : Bool
  sign : NumeralSign
  digits : List Char
  decimal : ∀ c ∈ digits, c.isDigit
  given : digits ≠ []

structure Numeral where
  sign : NumeralSign
  whole : List Char
  fraction : Option (List Char)
  exponent : Option Exponent
  wholeDecimal : ∀ c ∈ whole, c.isDigit
  fractionDecimal : ∀ ds ∈ fraction, ∀ c ∈ ds, c.isDigit
  given : whole ≠ [] ∨ ∃ ds ∈ fraction, ds ≠ []

def NumeralSign.chars : NumeralSign → List Char
  | absent => []
  | plus => ['+']
  | minus => ['-']

def NumeralSign.negative : NumeralSign → Bool
  | minus => true
  | _ => false

namespace Exponent

def chars (e : Exponent) : List Char :=
  (if e.capital then 'E' else 'e') :: (e.sign.chars ++ e.digits)

def value (e : Exponent) : Int :=
  if e.sign.negative then -(Decimal.ofDigits e.digits : Int) else Decimal.ofDigits e.digits

end Exponent

def fractionChars : Option (List Char) → List Char
  | none => []
  | some ds => '.' :: ds

def exponentChars : Option Exponent → List Char
  | none => []
  | some e => e.chars

def exponentValue : Option Exponent → Int
  | none => 0
  | some e => e.value

namespace Numeral

def mantissa (n : Numeral) : List Char :=
  n.whole ++ fractionChars n.fraction

def chars (n : Numeral) : List Char :=
  n.sign.chars ++ (n.mantissa ++ exponentChars n.exponent)

def decimal (n : Numeral) : Decimal :=
  ⟨n.sign.negative, Decimal.ofDigits (n.whole ++ n.fraction.getD []),
    exponentValue n.exponent - (n.fraction.getD []).length⟩

end Numeral

namespace Text

def Bars (p : Char → Bool) (s : List Char) : Prop :=
  ∀ c, s.head? = some c → p c = false

@[simp]
theorem bars_nil (p : Char → Bool) : Bars p [] := nofun

@[simp]
theorem bars_cons (p : Char → Bool) (c : Char) (s : List Char) : Bars p (c :: s) ↔ p c = false := by
  simp [Bars]

theorem bars_append (p : Char → Bool) (s rest : List Char) (front : Bars p s) (behind : Bars p rest) :
    Bars p (s ++ rest) := by
  cases s with
  | nil => exact behind
  | cons c s => simpa using front

theorem bars_dropWhile (p : Char → Bool) (s : List Char) : Bars p (s.dropWhile p) := by
  intro c first
  have stopped := List.head?_dropWhile_not p s
  rwa [first] at stopped

theorem take_run (p : Char → Bool) (run rest : List Char) (inside : ∀ c ∈ run, p c) (stop : Bars p rest) :
    (run ++ rest).takeWhile p = run ∧ (run ++ rest).dropWhile p = rest := by
  have stopped : rest.takeWhile p = [] ∧ rest.dropWhile p = rest := by
    cases rest with
    | nil => exact ⟨rfl, rfl⟩
    | cons c rest =>
        have other := stop c rfl
        exact ⟨List.takeWhile_cons_of_neg (by simp [other]), List.dropWhile_cons_of_neg (by simp [other])⟩
  rw [List.takeWhile_append_of_pos inside, List.dropWhile_append_of_pos inside, stopped.1, stopped.2,
    List.append_nil]
  exact ⟨rfl, rfl⟩

theorem run_unique (p : Char → Bool) (run run' rest rest' : List Char) (inside : ∀ c ∈ run, p c)
    (inside' : ∀ c ∈ run', p c) (stop : Bars p rest) (stop' : Bars p rest')
    (same : run ++ rest = run' ++ rest') : run = run' ∧ rest = rest' := by
  obtain ⟨taken, dropped⟩ := take_run p run rest inside stop
  obtain ⟨taken', dropped'⟩ := take_run p run' rest' inside' stop'
  rw [same] at taken dropped
  exact ⟨taken.symm.trans taken', dropped.symm.trans dropped'⟩

def isSign (c : Char) : Bool :=
  c = '+' || c = '-'

end Text

open Text

namespace Decimal

structure Ends (rest : List Char) : Prop where
  noDigit : Bars Char.isDigit rest
  noPoint : Bars (· = '.') rest
  noExponent : readExponent rest = (0, rest)

theorem ends_nil : Ends [] :=
  ⟨by simp, by simp, rfl⟩

theorem digit_not_sign (c : Char) (digit : c.isDigit) : isSign c = false := by
  rw [isSign, Bool.or_eq_false_iff]
  constructor <;> refine decide_eq_false ?_ <;> rintro rfl <;> cases digit

theorem digits_bar_sign (ds : List Char) (digits : ∀ c ∈ ds, c.isDigit) : Bars isSign ds := by
  intro c first
  exact digit_not_sign c (digits c (List.mem_of_mem_head? first))

theorem read_sign (s : NumeralSign) (rest : List Char) (plain : Bars isSign rest) :
    readSign (s.chars ++ rest) = (s.negative, rest) := by
  cases s with
  | plus => rfl
  | minus => rfl
  | absent =>
      change readSign rest = (false, rest)
      unfold readSign
      split
      · cases plain '+' rfl
      · cases plain '-' rfl
      · rfl

theorem read_sign_split (s : List Char) :
    ∃ sign : NumeralSign, s = sign.chars ++ (readSign s).2 ∧ sign.negative = (readSign s).1 := by
  unfold readSign
  split
  · exact ⟨.plus, rfl, rfl⟩
  · exact ⟨.minus, rfl, rfl⟩
  · exact ⟨.absent, rfl, rfl⟩

theorem read_exponent (e : Exponent) (rest : List Char) (stop : Bars Char.isDigit rest) :
    readExponent (e.chars ++ rest) = (e.value, rest) := by
  have signed : readSign (e.sign.chars ++ e.digits ++ rest) = (e.sign.negative, e.digits ++ rest) := by
    rw [List.append_assoc]
    apply read_sign
    cases digits : e.digits with
    | nil => exact absurd digits e.given
    | cons c ds => simp [digit_not_sign c (e.decimal c (by simp [digits]))]
  obtain ⟨taken, dropped⟩ := take_run Char.isDigit e.digits rest e.decimal stop
  have mark : (if e.capital then 'E' else 'e') = 'e' ∨ (if e.capital then 'E' else 'e') = 'E' := by
    cases e.capital <;> simp
  rw [Exponent.chars, List.cons_append, readExponent, signed]
  dsimp only
  rw [taken, dropped, if_pos ⟨mark, e.given⟩]
  rfl

theorem read_exponents (e : Option Exponent) (rest : List Char) (ends : Ends rest) :
    readExponent (exponentChars e ++ rest) = (exponentValue e, rest) := by
  cases e with
  | none => exact ends.noExponent
  | some e => exact read_exponent e rest ends.noDigit

theorem read_exponent_split (s : List Char) :
    ∃ e : Option Exponent, s = exponentChars e ++ (readExponent s).2 ∧ exponentValue e = (readExponent s).1 := by
  cases s with
  | nil => exact ⟨none, rfl, rfl⟩
  | cons mark rest =>
      obtain ⟨sign, split, negative⟩ := read_sign_split rest
      rw [readExponent]
      generalize readSign rest = signed at split negative
      obtain ⟨below, tail⟩ := signed
      dsimp only at split negative ⊢
      by_cases written : (mark = 'e' ∨ mark = 'E') ∧ tail.takeWhile Char.isDigit ≠ []
      · obtain ⟨letter, given⟩ := written
        rw [if_pos ⟨letter, given⟩]
        refine ⟨some ⟨mark = 'E', sign, tail.takeWhile Char.isDigit, List.all_eq_true.mp List.all_takeWhile, given⟩,
          ?_, ?_⟩
        · have capital : (if decide (mark = 'E') = true then 'E' else 'e') = mark := by
            rcases letter with rfl | rfl <;> rfl
          simp only [exponentChars, Exponent.chars, capital, List.cons_append, List.append_assoc,
            List.takeWhile_append_dropWhile]
          rw [split]
        · simp only [exponentValue, Exponent.value, negative]
      · rw [if_neg written]
        exact ⟨none, rfl, rfl⟩

theorem exponent_bars (p : Char → Bool) (small : p 'e' = false) (capital : p 'E' = false)
    (e : Option Exponent) (rest : List Char) (stop : Bars p rest) : Bars p (exponentChars e ++ rest) := by
  cases e with
  | none => exact stop
  | some e =>
      refine (bars_cons _ _ _).mpr ?_
      cases e.capital
      · exact small
      · exact capital

theorem read_fraction (fraction : Option (List Char)) (rest : List Char)
    (digits : ∀ ds ∈ fraction, ∀ c ∈ ds, c.isDigit) (stop : Bars Char.isDigit rest) (noPoint : Bars (· = '.') rest) :
    readFraction (fractionChars fraction ++ rest) = (fraction.getD [], rest) := by
  cases fraction with
  | none =>
      change readFraction rest = ([], rest)
      unfold readFraction
      split
      · cases noPoint '.' rfl
      · rfl
  | some ds =>
      obtain ⟨taken, dropped⟩ := take_run Char.isDigit ds rest (digits ds rfl) stop
      exact Prod.ext taken dropped

theorem read_fraction_split (s : List Char) :
    ∃ fraction : Option (List Char), s = fractionChars fraction ++ (readFraction s).2 ∧
      fraction.getD [] = (readFraction s).1 ∧ ∀ ds ∈ fraction, ∀ c ∈ ds, c.isDigit := by
  unfold readFraction
  split
  · rename_i rest
    refine ⟨some (rest.takeWhile Char.isDigit), ?_, rfl, ?_⟩
    · simp only [fractionChars, List.cons_append, List.takeWhile_append_dropWhile]
    · rintro _ ⟨⟩
      exact List.all_eq_true.mp List.all_takeWhile
  · exact ⟨none, rfl, rfl, nofun⟩

theorem fraction_bars (p : Char → Bool) (noPoint : p '.' = false) (fraction : Option (List Char))
    (rest : List Char) (stop : Bars p rest) : Bars p (fractionChars fraction ++ rest) := by
  cases fraction with
  | none => exact stop
  | some ds => simpa [fractionChars] using noPoint

theorem mantissa_front (n : Numeral) : ∃ c s, n.mantissa = c :: s ∧ (c.isDigit ∨ c = '.') := by
  rw [Numeral.mantissa]
  cases digits : n.whole with
  | cons c ds => exact ⟨c, _, rfl, .inl (n.wholeDecimal c (by simp [digits]))⟩
  | nil =>
      obtain ⟨ds, among, _⟩ := n.given.resolve_left (not_not_intro digits)
      rw [Option.mem_def.mp among]
      exact ⟨'.', ds, rfl, .inr rfl⟩

theorem mantissa_class (p : Char → Bool) (point : p '.') (digits : ∀ c, c.isDigit → p c) (n : Numeral) :
    ∀ c ∈ n.mantissa, p c := by
  rw [Numeral.mantissa, List.forall_mem_append]
  refine ⟨fun c member => digits c (n.wholeDecimal c member), ?_⟩
  cases places : n.fraction with
  | none => exact fun _ member => absurd member List.not_mem_nil
  | some ds =>
      rw [fractionChars, List.forall_mem_cons]
      exact ⟨point, fun c member => digits c (n.fractionDecimal ds places c member)⟩

theorem mantissa_unsigned (n : Numeral) (rest : List Char) : Bars isSign (n.mantissa ++ rest) := by
  obtain ⟨c, s, front, digit | rfl⟩ := mantissa_front n
  · rw [front]
    simpa using digit_not_sign c digit
  · rw [front]
    simp [isSign]

theorem behind_whole (n : Numeral) (rest : List Char) (ends : Ends rest) :
    Bars Char.isDigit (fractionChars n.fraction ++ (exponentChars n.exponent ++ rest)) :=
  fraction_bars _ rfl n.fraction _ (exponent_bars _ rfl rfl n.exponent rest ends.noDigit)

theorem read_numeral (n : Numeral) (rest : List Char) (ends : Ends rest) :
    read (n.chars ++ rest) = some (n.decimal, rest) := by
  obtain ⟨whole, behind⟩ := take_run Char.isDigit n.whole _ n.wholeDecimal (behind_whole n rest ends)
  have fraction := read_fraction n.fraction (exponentChars n.exponent ++ rest) n.fractionDecimal
    (exponent_bars _ rfl rfl n.exponent rest ends.noDigit) (exponent_bars _ rfl rfl n.exponent rest ends.noPoint)
  have given : ¬ (n.whole = [] ∧ n.fraction.getD [] = []) := by
    rintro ⟨noWhole, noFraction⟩
    obtain ⟨ds, among, written⟩ := n.given.resolve_left (not_not_intro noWhole)
    rw [Option.mem_def.mp among] at noFraction
    exact written noFraction
  have split : n.chars ++ rest = n.sign.chars ++ (n.mantissa ++ (exponentChars n.exponent ++ rest)) := by
    simp only [Numeral.chars, List.append_assoc]
  rw [split, read, read_sign n.sign _ (mantissa_unsigned n _), Numeral.mantissa, List.append_assoc]
  dsimp only
  rw [whole, behind, fraction]
  dsimp only
  rw [if_neg given, read_exponents n.exponent rest ends]
  rfl

theorem read_numeral_split (s rest : List Char) (d : Decimal) (given : read s = some (d, rest)) :
    ∃ n : Numeral, s = n.chars ++ rest ∧ n.decimal = d := by
  obtain ⟨sign, signed, negative⟩ := read_sign_split s
  rw [read] at given
  generalize readSign s = unsigned at signed negative given
  obtain ⟨below, tail⟩ := unsigned
  dsimp only at signed negative given
  obtain ⟨fraction, behind, digits, fractionDecimal⟩ := read_fraction_split (tail.dropWhile Char.isDigit)
  generalize readFraction (tail.dropWhile Char.isDigit) = cut at behind digits given
  obtain ⟨places, tail'⟩ := cut
  dsimp only at behind digits given
  obtain ⟨exponent, last, value⟩ := read_exponent_split tail'
  generalize readExponent tail' = ended at last value given
  obtain ⟨power, left⟩ := ended
  dsimp only at last value given
  by_cases nothing : tail.takeWhile Char.isDigit = [] ∧ places = []
  · rw [if_pos nothing] at given
    cases given
  · rw [if_neg nothing] at given
    have mantissa : tail.takeWhile Char.isDigit ≠ [] ∨ ∃ ds ∈ fraction, ds ≠ [] := by
      by_cases noWhole : tail.takeWhile Char.isDigit = []
      · right
        cases fraction with
        | none => exact absurd ⟨noWhole, digits.symm⟩ nothing
        | some ds => exact ⟨ds, rfl, fun empty => nothing ⟨noWhole, digits.symm.trans empty⟩⟩
      · exact .inl noWhole
    refine ⟨⟨sign, tail.takeWhile Char.isDigit, fraction, exponent, List.all_eq_true.mp List.all_takeWhile,
      fractionDecimal, mantissa⟩, ?_, ?_⟩
    · cases given
      simp only [Numeral.chars, Numeral.mantissa, List.append_assoc]
      rw [← last, ← behind, List.takeWhile_append_dropWhile, ← signed]
    · cases given
      simp only [Numeral.decimal, negative, digits, value]

theorem decimal_text_iff (s : List Char) (d : Decimal) :
    ofText? s = some d ↔ ∃ n : Numeral, n.chars = s ∧ n.decimal = d := by
  rw [ofText?]
  constructor
  · intro given
    split at given
    · rename_i found whole
      cases given
      obtain ⟨n, split, value⟩ := read_numeral_split s [] d whole
      exact ⟨n, by rw [split, List.append_nil], value⟩
    · cases given
  · rintro ⟨n, rfl, rfl⟩
    have whole := read_numeral n [] ends_nil
    rw [List.append_nil] at whole
    rw [whole]

theorem sign_unique (s s' : NumeralSign) (rest rest' : List Char) (plain : Bars isSign rest)
    (plain' : Bars isSign rest') (same : s.chars ++ rest = s'.chars ++ rest') : s = s' ∧ rest = rest' := by
  have tails : (readSign (s.chars ++ rest)).2 = (readSign (s'.chars ++ rest')).2 := by rw [same]
  rw [read_sign s rest plain, read_sign s' rest' plain'] at tails
  dsimp only at tails
  subst tails
  have signs := List.append_cancel_right same
  cases s <;> cases s' <;> first | exact ⟨rfl, rfl⟩ | cases signs

theorem fraction_unique (f f' : Option (List Char)) (rest rest' : List Char)
    (digits : ∀ ds ∈ f, ∀ c ∈ ds, c.isDigit) (digits' : ∀ ds ∈ f', ∀ c ∈ ds, c.isDigit)
    (stop : Bars Char.isDigit rest) (stop' : Bars Char.isDigit rest') (noPoint : Bars (· = '.') rest)
    (noPoint' : Bars (· = '.') rest') (same : fractionChars f ++ rest = fractionChars f' ++ rest') :
    f = f' ∧ rest = rest' := by
  have tails : readFraction (fractionChars f ++ rest) = readFraction (fractionChars f' ++ rest') := by rw [same]
  rw [read_fraction f rest digits stop noPoint, read_fraction f' rest' digits' stop' noPoint', Prod.mk.injEq]
    at tails
  obtain ⟨places, rfl⟩ := tails
  have points := List.append_cancel_right same
  refine ⟨?_, rfl⟩
  cases f with
  | none =>
      cases f' with
      | none => rfl
      | some ds' => cases points
  | some ds =>
      cases f' with
      | none => cases points
      | some ds' => exact congrArg some places

theorem exponent_chars_unique (e e' : Exponent) (same : e.chars = e'.chars) : e = e' := by
  have marks : (if e.capital then 'E' else 'e') = (if e'.capital then 'E' else 'e') := (List.cons.inj same).1
  have capitals : e.capital = e'.capital := by
    revert marks
    cases e.capital <;> cases e'.capital <;> decide
  obtain ⟨signs, digits⟩ := sign_unique e.sign e'.sign e.digits e'.digits (digits_bar_sign e.digits e.decimal)
    (digits_bar_sign e'.digits e'.decimal) (List.cons.inj same).2
  cases e
  cases e'
  cases capitals
  cases signs
  cases digits
  rfl

theorem exponent_unique (e e' : Option Exponent) (rest rest' : List Char) (ends : Ends rest) (ends' : Ends rest')
    (same : exponentChars e ++ rest = exponentChars e' ++ rest') : e = e' ∧ rest = rest' := by
  have tails : readExponent (exponentChars e ++ rest) = readExponent (exponentChars e' ++ rest') := by rw [same]
  rw [read_exponents e rest ends, read_exponents e' rest' ends', Prod.mk.injEq] at tails
  obtain ⟨_, rfl⟩ := tails
  have marks := List.append_cancel_right same
  refine ⟨?_, rfl⟩
  cases e with
  | none =>
      cases e' with
      | none => rfl
      | some e' => cases marks
  | some e =>
      cases e' with
      | none => cases marks
      | some e' => exact congrArg some (exponent_chars_unique e e' marks)

theorem numeral_unique (n n' : Numeral) (rest rest' : List Char) (ends : Ends rest) (ends' : Ends rest')
    (same : n.chars ++ rest = n'.chars ++ rest') : n = n' ∧ rest = rest' := by
  simp only [Numeral.chars, List.append_assoc] at same
  obtain ⟨signs, mantissas⟩ := sign_unique n.sign n'.sign _ _ (mantissa_unsigned n _) (mantissa_unsigned n' _) same
  simp only [Numeral.mantissa, List.append_assoc] at mantissas
  obtain ⟨wholes, fractions⟩ := run_unique Char.isDigit n.whole n'.whole _ _ n.wholeDecimal n'.wholeDecimal
    (behind_whole n rest ends) (behind_whole n' rest' ends') mantissas
  obtain ⟨places, exponents⟩ := fraction_unique n.fraction n'.fraction _ _ n.fractionDecimal n'.fractionDecimal
    (exponent_bars _ rfl rfl n.exponent rest ends.noDigit) (exponent_bars _ rfl rfl n'.exponent rest' ends'.noDigit)
    (exponent_bars _ rfl rfl n.exponent rest ends.noPoint) (exponent_bars _ rfl rfl n'.exponent rest' ends'.noPoint)
    fractions
  obtain ⟨powers, rests⟩ := exponent_unique n.exponent n'.exponent rest rest' ends ends' exponents
  refine ⟨?_, rests⟩
  cases n
  cases n'
  cases signs
  cases wholes
  cases places
  cases powers
  rfl

end Decimal

end StyleCalc
