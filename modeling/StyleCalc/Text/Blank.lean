set_option autoImplicit false

namespace StyleCalc.Text

def blanks : List Nat :=
  [0x09, 0x0A, 0x0B, 0x0C, 0x0D, 0x20, 0x85, 0xA0, 0x1680, 0x2000, 0x2001, 0x2002, 0x2003, 0x2004,
    0x2005, 0x2006, 0x2007, 0x2008, 0x2009, 0x200A, 0x2028, 0x2029, 0x202F, 0x205F, 0x3000]

def isBlank (c : Char) : Bool :=
  blanks.contains c.toNat

def trimChars (s : List Char) : List Char :=
  ((s.dropWhile isBlank).reverse.dropWhile isBlank).reverse

def trim (s : String) : String :=
  String.ofList (trimChars s.toList)

def lower (s : String) : String :=
  String.ofList (s.toList.map Char.toLower)

theorem head_dropWhile (s : List Char) (c : Char) (first : (s.dropWhile isBlank).head? = some c) :
    isBlank c = false := by
  induction s with
  | nil => simp at first
  | cons d s ih =>
      by_cases blank : isBlank d = true
      · rw [List.dropWhile_cons_of_pos blank] at first
        exact ih first
      · rw [List.dropWhile_cons_of_neg blank] at first
        simp only [List.head?_cons, Option.some.injEq] at first
        rw [← first]
        exact Bool.eq_false_iff.mpr blank

theorem dropWhile_eq_self (s : List Char) (sharp : ∀ c, s.head? = some c → isBlank c = false) :
    s.dropWhile isBlank = s := by
  cases s with
  | nil => rfl
  | cons c s => exact List.dropWhile_cons_of_neg (by simp [sharp c rfl])

theorem trimChars_eq_self (s : List Char) (first : ∀ c, s.head? = some c → isBlank c = false)
    (last : ∀ c, s.getLast? = some c → isBlank c = false) : trimChars s = s := by
  rw [trimChars, dropWhile_eq_self s first,
    dropWhile_eq_self s.reverse (fun c head => last c (by rwa [List.head?_reverse] at head)),
    List.reverse_reverse]

theorem last_trimChars (s : List Char) (c : Char) (last : (trimChars s).getLast? = some c) :
    isBlank c = false := by
  rw [trimChars, List.getLast?_reverse] at last
  exact head_dropWhile _ c last

theorem head_trimChars (s : List Char) (c : Char) (first : (trimChars s).head? = some c) :
    isBlank c = false := by
  rw [trimChars, List.head?_reverse] at first
  refine head_dropWhile s c ?_
  obtain ⟨dropped, split⟩ := List.dropWhile_suffix isBlank (l := (s.dropWhile isBlank).reverse)
  have whole : s.dropWhile isBlank =
      ((s.dropWhile isBlank).reverse.dropWhile isBlank).reverse ++ dropped.reverse := by
    rw [← List.reverse_append, split, List.reverse_reverse]
  rw [whole, List.head?_append, List.head?_reverse, first, Option.some_or]

@[simp]
theorem trimChars_trimChars (s : List Char) : trimChars (trimChars s) = trimChars s :=
  trimChars_eq_self _ (head_trimChars s) (last_trimChars s)

end StyleCalc.Text
