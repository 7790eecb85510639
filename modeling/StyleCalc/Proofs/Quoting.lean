import StyleCalc.Proofs.Literals
import StyleCalc.Text.Front
import StyleCalc.Url.Percent

set_option autoImplicit false

namespace StyleCalc

namespace Css

def isLineEnd (c : Char) : Bool :=
  c = '\n' || c = '\r' || c = '\x0c'

def plainString? : List Char → Option (List Char × List Char)
  | [] => none
  | c :: rest =>
      if c = '"' then some ([], rest)
      else if c = '\\' ∨ isLineEnd c then none
      else (plainString? rest).map fun (s, tail) => (c :: s, tail)

-- The address in a text that is one url value, with a string that has no escapes.
def plainUrl? (css : List Char) : Option (List Char) := do
  let (s, tail) ← plainString? (← Text.dropFront? "url(\"".toList css)
  if tail = [')'] then some s else none

def StandsInQuotes (s : List Char) : Prop :=
  ∀ c ∈ s, c ≠ '"' ∧ c ≠ '\\' ∧ isLineEnd c = false

theorem plain_string_some (css s tail : List Char) (read : plainString? css = some (s, tail)) :
    css = s ++ '"' :: tail ∧ StandsInQuotes s := by
  induction css generalizing s with
  | nil => cases read
  | cons c css ih =>
      rw [plainString?] at read
      by_cases quote : c = '"'
      · rw [if_pos quote] at read
        obtain ⟨rfl, rfl⟩ := Prod.mk.inj (Option.some.inj read)
        exact ⟨by rw [quote, List.nil_append], nofun⟩
      · by_cases refused : c = '\\' ∨ isLineEnd c
        · rw [if_neg quote, if_pos refused] at read
          cases read
        · rw [if_neg quote, if_neg refused, Option.map_eq_some_iff] at read
          obtain ⟨⟨inner, rest⟩, found, same⟩ := read
          obtain ⟨rfl, rfl⟩ := Prod.mk.inj same
          obtain ⟨rfl, stands⟩ := ih inner found
          rw [not_or, Bool.not_eq_true] at refused
          exact ⟨rfl, List.forall_mem_cons.mpr ⟨⟨quote, refused⟩, stands⟩⟩

theorem plain_string_of_stands (s tail : List Char) (stands : StandsInQuotes s) :
    plainString? (s ++ '"' :: tail) = some (s, tail) := by
  induction s with
  | nil => rfl
  | cons c s ih =>
      obtain ⟨⟨noQuote, noEscape, noBreak⟩, rest⟩ := List.forall_mem_cons.mp stands
      have kept : ¬ (c = '\\' ∨ isLineEnd c) := by
        rw [not_or, Bool.not_eq_true]
        exact ⟨noEscape, noBreak⟩
      rw [List.cons_append, plainString?, if_neg noQuote, if_neg kept, ih rest, Option.map_some]

theorem plain_url_iff (s : List Char) :
    plainUrl? ("url(\"".toList ++ (s ++ ['"', ')'])) = some s ↔ StandsInQuotes s := by
  rw [plainUrl?, Text.dropFront_append]
  change (plainString? (s ++ ['"', ')'])).bind (fun found => if found.2 = [')'] then some found.1 else none) =
    some s ↔ _
  constructor
  · intro read
    obtain ⟨⟨inner, tail⟩, found, ended⟩ := Option.bind_eq_some_iff.mp read
    obtain ⟨_, stands⟩ := plain_string_some _ inner tail found
    by_cases closed : tail = [')']
    · rw [if_pos closed] at ended
      obtain rfl : inner = s := Option.some.inj ended
      exact stands
    · rw [if_neg closed] at ended
      cases ended
  · intro stands
    rw [plain_string_of_stands s [')'] stands]
    rfl

end Css

/-- Printable ASCII, with a double quote or a backslash in it only if it is allowed. -/
def Confined (quote backslash : Prop) (s : List Char) : Prop :=
  ∀ c ∈ s, (0x20 ≤ c.toNat ∧ c.toNat ≤ 0x7E) ∧ (c = '"' → quote) ∧ (c = '\\' → backslash)

variable {quote backslash : Prop}

@[simp]
theorem confined_nil : Confined quote backslash [] := nofun

@[simp]
theorem confined_cons (c : Char) (s : List Char) :
    Confined quote backslash (c :: s) ↔
      ((0x20 ≤ c.toNat ∧ c.toNat ≤ 0x7E) ∧ (c = '"' → quote) ∧ (c = '\\' → backslash)) ∧
        Confined quote backslash s :=
  List.forall_mem_cons

@[simp]
theorem confined_append (s t : List Char) :
    Confined quote backslash (s ++ t) ↔ Confined quote backslash s ∧ Confined quote backslash t :=
  List.forall_mem_append

theorem Confined.weaken {quote' backslash' : Prop} (s : List Char) (confined : Confined quote backslash s)
    (quotes : quote → quote') (backslashes : backslash → backslash') : Confined quote' backslash' s := by
  intro c member
  obtain ⟨range, isQuote, isBackslash⟩ := confined c member
  exact ⟨range, fun same => quotes (isQuote same), fun same => backslashes (isBackslash same)⟩

theorem confined_stands (s : List Char) (confined : Confined False False s) : Css.StandsInQuotes s := by
  intro c member
  obtain ⟨range, noQuote, noBackslash⟩ := confined c member
  refine ⟨noQuote, noBackslash, ?_⟩
  have apart : ∀ d : Char, Css.isLineEnd d → d.toNat < 0x20 := by
    intro d lineEnd
    simp only [Css.isLineEnd, Bool.or_eq_true, decide_eq_true_eq] at lineEnd
    rcases lineEnd with (rfl | rfl) | rfl <;> decide
  refine Bool.eq_false_iff.mpr fun lineEnd => ?_
  have low := apart c lineEnd
  omega

theorem confined_of_class (p : Char → Bool) (s : List Char) (inside : ∀ c ∈ s, p c)
    (range : ∀ c, p c → 0x20 ≤ c.toNat ∧ c.toNat ≤ 0x7E) (noQuote : p '"' = false)
    (noBackslash : p '\\' = false) : Confined False False s := by
  intro c member
  refine ⟨range c (inside c member), ?_, ?_⟩
  · rintro rfl
    rw [inside _ member] at noQuote
    cases noQuote
  · rintro rfl
    rw [inside _ member] at noBackslash
    cases noBackslash

theorem alphanum_confined (s : List Char) (alphanum : ∀ c ∈ s, c.isAlphanum) : Confined False False s := by
  refine confined_of_class Char.isAlphanum s alphanum (fun c either => ?_) rfl rfl
  rw [Char.isAlphanum, Bool.or_eq_true] at either
  rcases either with alpha | digit
  · have range := Text.alpha_range c alpha
    omega
  · have range := Text.digit_range c digit
    omega

theorem digits_confined (s : List Char) (digits : ∀ c ∈ s, c.isDigit) : Confined False False s :=
  alphanum_confined s fun c member => by rw [Char.isAlphanum, digits c member, Bool.or_true]

namespace Url

theorem hex_digits_confined (upper : Bool) (n : Nat) : Confined False False (hexDigits upper n) := by
  have table : ∀ d < 16, ∀ upper : Bool,
      (if upper then (Nat.digitChar d).toUpper else Nat.digitChar d).isAlphanum := by decide
  have single (d : Nat) (low : d < 16) :
      Confined False False [if upper then (Nat.digitChar d).toUpper else Nat.digitChar d] :=
    alphanum_confined _ (List.forall_mem_singleton.mpr (table d low upper))
  induction n using Nat.strongRecOn with
  | _ n ih =>
      rw [hexDigits, Nat.toDigits_eq_if (by decide)]
      by_cases low : n < 16
      · rw [if_pos low]
        exact single n low
      · rw [if_neg low, List.map_append, confined_append]
        exact ⟨ih (n / 16) (by omega), single (n % 16) (by omega)⟩

theorem encode_byte_confined (b : UInt8) : Confined False False (encodeByte b) := by
  have digits := hex_digits_confined true b.toNat
  rw [encodeByte]
  split <;> simp [digits]

theorem encode_confined (escaped : Char → Bool) (s : List Char) (control : ∀ c, isControl c → escaped c)
    (quotes : '"' ∈ s → escaped '"' = false → quote)
    (backslashes : '\\' ∈ s → escaped '\\' = false → backslash) :
    Confined quote backslash (encode escaped s).toList := by
  rw [encode, String.toList_ofList]
  intro c member
  obtain ⟨d, given, member⟩ := List.mem_flatMap.mp member
  by_cases escapes : escaped d
  · rw [if_pos escapes] at member
    obtain ⟨b, _, member⟩ := List.mem_flatMap.mp member
    exact (encode_byte_confined b).weaken _ False.elim False.elim c member
  · rw [if_neg escapes, List.mem_singleton] at member
    subst member
    rw [Bool.not_eq_true] at escapes
    have visible : ¬ isControl c := by
      intro hidden
      rw [control c hidden] at escapes
      cases escapes
    refine ⟨?_, ?_, ?_⟩
    · simp only [isControl, Bool.or_eq_true, decide_eq_true_eq, not_or] at visible
      omega
    · rintro rfl
      exact quotes given escapes
    · rintro rfl
      exact backslashes given escapes

end Url

end StyleCalc
