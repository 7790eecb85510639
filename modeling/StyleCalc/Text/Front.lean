set_option autoImplicit false

namespace StyleCalc.Text

def dropFront? : List Char → List Char → Option (List Char)
  | [], rest => some rest
  | _ :: _, [] => none
  | w :: word, c :: rest => if c = w then dropFront? word rest else none

@[simp]
theorem dropFront_append (word rest : List Char) : dropFront? word (word ++ rest) = some rest := by
  induction word with
  | nil => rfl
  | cons w word ih => simpa only [List.cons_append, dropFront?, if_pos] using ih

end StyleCalc.Text
