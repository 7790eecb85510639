import StyleCalc.Proofs.Numerals

set_option autoImplicit false

namespace StyleCalc

structure Numeral.Plain (n : Numeral) : Prop where
  noExponent : n.exponent = none
  places : n.fraction ≠ some []

theorem Numeral.last_digit (n : Numeral) (closed : n.exponent = none → n.fraction ≠ some []) :
    ∃ s c, n.chars = s ++ [c] ∧ c.isDigit := by
  obtain ⟨sign, whole, fraction, exponent, wholeDecimal, fractionDecimal, given⟩ := n
  dsimp only at closed
  have last (front ds : List Char) (filled : ds ≠ []) (digits : ∀ c ∈ ds, c.isDigit) :
      ∃ s c, front ++ ds = s ++ [c] ∧ c.isDigit :=
    ⟨front ++ ds.dropLast, ds.getLast filled, by rw [List.append_assoc, List.dropLast_concat_getLast filled],
      digits _ (List.getLast_mem filled)⟩
  cases exponent with
  | some e =>
      obtain ⟨s, c, split, digit⟩ := last
        (sign.chars ++ (whole ++ fractionChars fraction) ++ (if e.capital then 'E' else 'e') :: e.sign.chars)
        e.digits e.given e.decimal
      exact ⟨s, c, by rw [← split]; simp [chars, mantissa, exponentChars, Exponent.chars], digit⟩
  | none =>
      cases fraction with
      | none =>
          have digits : whole ≠ [] := by simpa using given
          obtain ⟨s, c, split, digit⟩ := last sign.chars whole digits wholeDecimal
          exact ⟨s, c, by rw [← split]; simp [chars, mantissa, fractionChars, exponentChars], digit⟩
      | some ds =>
          have digits : ds ≠ [] := by simpa using closed rfl
          obtain ⟨s, c, split, digit⟩ := last (sign.chars ++ whole ++ ['.']) ds digits (fractionDecimal ds rfl)
          exact ⟨s, c, by rw [← split]; simp [chars, mantissa, fractionChars, exponentChars], digit⟩

theorem Numeral.plain_last (n : Numeral) (plain : n.Plain) : ∃ s c, n.chars = s ++ [c] ∧ c.isDigit :=
  n.last_digit fun _ => plain.places

namespace Decimal

theorem to_digits_decimal (k : Nat) : ∀ c ∈ Nat.toDigits 10 k, c.isDigit :=
  fun _ => Nat.isDigit_of_mem_toDigits (by decide) (by decide)

theorem zeros_decimal (places : Nat) : ∀ c ∈ List.replicate places '0', c.isDigit := by
  intro c member
  rw [List.eq_of_mem_replicate member]
  rfl

@[simp]
theorem of_digits_zeros (ds : List Char) (places : Nat) :
    ofDigits (ds ++ List.replicate places '0') = ofDigits ds * Nat.pow 10 places := by
  change Nat.ofDigitChars 10 (ds ++ List.replicate places '0') 0 = Nat.ofDigitChars 10 ds 0 * Nat.pow 10 places
  rw [Nat.ofDigitChars_append, Nat.ofDigitChars_replicate_zero, Nat.mul_comm]
  rfl

theorem of_zeros_digits (ds : List Char) (places : Nat) :
    ofDigits (List.replicate places '0' ++ ds) = ofDigits ds := by
  change Nat.ofDigitChars 10 (List.replicate places '0' ++ ds) 0 = Nat.ofDigitChars 10 ds 0
  rw [Nat.ofDigitChars_append, Nat.ofDigitChars_replicate_zero, Nat.mul_zero]

@[simp]
theorem of_to_digits (k : Nat) : ofDigits (Nat.toDigits 10 k) = k :=
  Nat.ofDigitChars_toDigits (by decide) (by decide)

def padded (k places : Nat) : List Char :=
  List.replicate (places + 1 - (Nat.toDigits 10 k).length) '0' ++ Nat.toDigits 10 k

theorem padded_decimal (k places : Nat) : ∀ c ∈ padded k places, c.isDigit :=
  List.forall_mem_append.mpr ⟨zeros_decimal _, to_digits_decimal k⟩

@[simp]
theorem of_padded (k places : Nat) : ofDigits (padded k places) = k := by
  rw [padded, of_zeros_digits, of_to_digits]

theorem padded_places (k places : Nat) :
    ((padded k places).drop ((padded k places).length - places)).length = places := by
  have long : places + 1 ≤ (padded k places).length := by
    rw [padded, List.length_append, List.length_replicate]
    omega
  rw [List.length_drop]
  omega

theorem whole_numeral (sign : NumeralSign) (k zeros : Nat) :
    ∃ n : Numeral, n.chars = sign.chars ++ (Nat.toDigits 10 k ++ List.replicate zeros '0') ∧ n.Plain ∧
      n.decimal = ⟨sign.negative, k * Nat.pow 10 zeros, 0⟩ := by
  have digits : ∀ c ∈ Nat.toDigits 10 k ++ List.replicate zeros '0', c.isDigit :=
    List.forall_mem_append.mpr ⟨to_digits_decimal k, zeros_decimal zeros⟩
  have given : Nat.toDigits 10 k ++ List.replicate zeros '0' ≠ [] := by simp [Nat.toDigits_ne_nil]
  refine ⟨⟨sign, Nat.toDigits 10 k ++ List.replicate zeros '0', none, none, digits, nofun, .inl given⟩, ?_,
    ⟨rfl, nofun⟩, ?_⟩
  · simp [Numeral.chars, Numeral.mantissa, fractionChars, exponentChars]
  · simp [Numeral.decimal, exponentValue]

theorem point_numeral (sign : NumeralSign) (k places : Nat) (nonzero : places ≠ 0) :
    ∃ n : Numeral, n.chars = sign.chars ++ ((padded k places).take ((padded k places).length - places) ++
        '.' :: (padded k places).drop ((padded k places).length - places)) ∧ n.Plain ∧
      n.decimal = ⟨sign.negative, k, -(places : Int)⟩ := by
  have digits := padded_decimal k places
  have value := of_padded k places
  have behind := padded_places k places
  generalize padded k places = ds at digits value behind
  have given : ds.drop (ds.length - places) ≠ [] := by
    intro none
    rw [none] at behind
    exact nonzero behind.symm
  refine ⟨⟨sign, ds.take (ds.length - places), some (ds.drop (ds.length - places)), none,
    fun c member => digits c (List.mem_of_mem_take member), ?_, .inr ⟨_, rfl, given⟩⟩, ?_, ⟨rfl, ?_⟩, ?_⟩
  · rintro _ ⟨⟩ c member
    exact digits c (List.mem_of_mem_drop member)
  · simp [Numeral.chars, Numeral.mantissa, fractionChars, exponentChars]
  · exact fun none => given (Option.some.inj none)
  · rw [Numeral.decimal, Option.getD_some, List.take_append_drop, value, behind, exponentValue, Int.zero_sub]

theorem positional_numeral (sign : NumeralSign) (k : Nat) (e : Int) :
    ∃ n : Numeral, n.chars = sign.chars ++ positional k e ∧ n.Plain ∧
      n.decimal = ⟨sign.negative, k * Nat.pow 10 e.toNat, min e 0⟩ := by
  rw [positional]
  by_cases whole : 0 ≤ e
  · have least : min e 0 = 0 := by omega
    rw [if_pos whole, least]
    exact whole_numeral sign k e.toNat
  · have none : e.toNat = 0 := by omega
    have least : min e 0 = -((-e).toNat : Int) := by omega
    have unit : k * Nat.pow 10 0 = k := Nat.mul_one k
    rw [if_neg whole, none, least, unit]
    exact point_numeral sign k (-e).toNat (by omega)

end Decimal

end StyleCalc
