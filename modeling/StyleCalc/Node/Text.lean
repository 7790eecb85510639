import StyleCalc.Node.Basic

set_option autoImplicit false

namespace StyleCalc.Node

variable {α : Type}

def isSum : Node α → Bool
  | .sum _ _ _ => true
  | _ => false

def isProduct : Node α → Bool
  | .product _ _ _ => true
  | _ => false

def grouped (asked : Bool) (s : String) : String :=
  if asked then "(" ++ s ++ ")" else s

def groupsAddend (op : SumOp) (right : Node α) : Bool :=
  op = .sub && right.isSum

def groupsFactor (op : ProductOp) (right : Node α) : Bool :=
  right.isSum || (op = .div && right.isProduct)

def quotedAddress (address : String) : String :=
  if address = "" then "" else "url(\"" ++ address ++ "\")"

variable [Scalar α]

mutual
def text : Node α → String
  | .raw css => css
  | .concat ns => joinedText " " ns
  | .url address => quotedAddress address
  | .numeric n => n.text
  | .call name args _ => name ++ "(" ++ joinedText "," args ++ ")"
  | .var name none => "var(" ++ name ++ ")"
  | .var name (some d) => "var(" ++ name ++ ", " ++ d.text ++ ")"
  | .calculation n => "calc(" ++ n.text ++ ")"
  | .sum a op b =>
      a.text ++ " " ++ String.singleton op.symbol ++ " " ++ grouped (groupsAddend op b) b.text
  | .product a op b =>
      grouped a.isSum a.text ++ " " ++ String.singleton op.symbol ++ " "
        ++ grouped (groupsFactor op b) b.text
  | .num n => "num(" ++ n.text ++ ")"
  | .index => "index()"

def joinedText (separator : String) : List (Node α) → String
  | [] => ""
  | [n] => n.text
  | n :: m :: ns => n.text ++ separator ++ joinedText separator (m :: ns)
end

@[simp]
theorem joinedText_singleton (separator : String) (n : Node α) :
    joinedText separator [n] = n.text := by
  rw [joinedText]

theorem joinedText_cons (separator : String) (n : Node α) (ns : List (Node α)) (rest : ns ≠ []) :
    joinedText separator (n :: ns) = n.text ++ separator ++ joinedText separator ns := by
  cases ns with
  | nil => exact absurd rfl rest
  | cons m ns => rw [joinedText]

theorem joinedText_append (separator : String) (ms ns : List (Node α)) (left : ms ≠ [])
    (right : ns ≠ []) :
    joinedText separator (ms ++ ns) =
      joinedText separator ms ++ separator ++ joinedText separator ns := by
  induction ms with
  | nil => exact absurd rfl left
  | cons m ms ih =>
      by_cases last : ms = []
      · rw [last, List.singleton_append, joinedText_cons separator m ns right,
          joinedText_singleton]
      · rw [List.cons_append, joinedText_cons separator m (ms ++ ns) (by simp [last]), ih last,
          joinedText_cons separator m ms last]
        simp only [String.append_assoc]

theorem text_eq_items (n : Node α) : n.text = joinedText " " n.items := by
  cases n <;> simp [items, text]

end StyleCalc.Node
