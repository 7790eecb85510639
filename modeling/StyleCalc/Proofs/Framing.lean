import StyleCalc.Node.Text
import StyleCalc.Proofs.Numerals
import StyleCalc.Proofs.Reach
import StyleCalc.Text.Word

set_option autoImplicit false

namespace StyleCalc

namespace Text

-- No word of the one text runs on across its ends in the other.
def Framed (s t : List Char) : Prop :=
  ∃ front rest, t = front ++ (s ++ rest) ∧ Bars isWord front.reverse ∧ Bars isWord rest

@[simp]
theorem framed_refl (s : List Char) : Framed s s :=
  ⟨[], [], by simp⟩

theorem framed_trans (s t u : List Char) (inner : Framed s t) (outer : Framed t u) : Framed s u := by
  obtain ⟨front, rest, rfl, plain, stop⟩ := inner
  obtain ⟨front', rest', rfl, plain', stop'⟩ := outer
  refine ⟨front' ++ front, rest ++ rest', by simp only [List.append_assoc], ?_, bars_append _ _ _ stop stop'⟩
  rw [List.reverse_append]
  exact bars_append _ _ _ plain plain'

def isFrame (c : Char) : Bool :=
  c = ' ' || c = ',' || c = '(' || c = ')'

theorem frame_plain (c : Char) (frame : isFrame c) : isWord c = false := by
  simp only [isFrame, Bool.or_eq_true, decide_eq_true_eq] at frame
  rcases frame with ((rfl | rfl) | rfl) | rfl <;> decide +kernel

theorem framed_before (c : Char) (s rest : List Char) (frame : isFrame c) : Framed s (s ++ c :: rest) :=
  ⟨[], c :: rest, by simp [frame_plain c frame]⟩

theorem framed_behind (c : Char) (front s : List Char) (frame : isFrame c) : Framed s (front ++ c :: s) :=
  ⟨front ++ [c], [], by simp [frame_plain c frame]⟩

theorem framed_between (c d : Char) (front s rest : List Char) (frame : isFrame c) (frame' : isFrame d) :
    Framed s (front ++ c :: (s ++ d :: rest)) :=
  framed_trans _ _ _ (framed_before d s rest frame') (framed_behind c front _ frame)

end Text

namespace Node

open Text

variable {α : Type} [Scalar α]

theorem grouped_framed (asked : Bool) (s : String) : Framed s.toList (grouped asked s).toList := by
  cases asked with
  | false => exact framed_refl s.toList
  | true =>
      have split : (grouped true s).toList = [] ++ '(' :: (s.toList ++ ')' :: []) := by simp [grouped]
      rw [split]
      exact framed_between '(' ')' [] _ [] rfl rfl

theorem joined_framed (c : Char) (frame : isFrame c) (ns : List (Node α)) (n : Node α) (member : n ∈ ns) :
    Framed n.text.toList (joinedText (String.singleton c) ns).toList := by
  induction ns with
  | nil => cases member
  | cons m ns ih =>
      by_cases last : ns = []
      · have same : n = m := by simpa [last] using member
        rw [last, joinedText_singleton, same]
        exact framed_refl _
      · have split : (joinedText (String.singleton c) (m :: ns)).toList =
            m.text.toList ++ c :: (joinedText (String.singleton c) ns).toList := by
          rw [joinedText_cons _ m ns last]
          simp
        rw [split]
        rcases List.mem_cons.mp member with rfl | behind
        · exact framed_before c _ _ frame
        · exact framed_trans _ _ _ (ih behind) (framed_behind c _ _ frame)

theorem sum_chars (left right : Node α) (op : SumOp) : (sum left op right).text.toList =
    left.text.toList ++ ' ' :: op.symbol :: ' ' :: (grouped (groupsAddend op right) right.text).toList := by
  rw [text]
  simp

theorem product_chars (left right : Node α) (op : ProductOp) : (product left op right).text.toList =
    (grouped left.isSum left.text).toList ++ ' ' :: op.symbol :: ' ' ::
      (grouped (groupsFactor op right) right.text).toList := by
  rw [text]
  simp

theorem part_framed (node part : Node α) (member : part ∈ node.parts) :
    Framed part.text.toList node.text.toList := by
  cases node with
  | raw css => cases member
  | url address => cases member
  | numeric n => cases member
  | index => cases member
  | concat ns =>
      rw [text]
      exact joined_framed ' ' rfl ns part member
  | call name args axes =>
      have split : (call name args axes).text.toList =
          name.toList ++ '(' :: ((joinedText (String.singleton ',') args).toList ++ ')' :: []) := by
        rw [text]
        simp
      rw [split]
      exact framed_trans _ _ _ (joined_framed ',' rfl args part member) (framed_between '(' ')' _ _ [] rfl rfl)
  | var name fallback =>
      obtain rfl : fallback = some part := by simpa [parts] using member
      have split : (var name (some part)).text.toList =
          ("var(" ++ name ++ ",").toList ++ ' ' :: (part.text.toList ++ ')' :: []) := by
        rw [text]
        simp
      rw [split]
      exact framed_between ' ' ')' _ _ [] rfl rfl
  | calculation inner =>
      obtain rfl : part = inner := by simpa [parts] using member
      have split : (calculation part).text.toList = "calc".toList ++ '(' :: (part.text.toList ++ ')' :: []) := by
        rw [text]
        simp
      rw [split]
      exact framed_between '(' ')' _ _ [] rfl rfl
  | num inner =>
      obtain rfl : part = inner := by simpa [parts] using member
      have split : (num part).text.toList = "num".toList ++ '(' :: (part.text.toList ++ ')' :: []) := by
        rw [text]
        simp
      rw [split]
      exact framed_between '(' ')' _ _ [] rfl rfl
  | sum left op right =>
      have either : part = left ∨ part = right := by simpa [parts] using member
      rw [sum_chars]
      rcases either with rfl | rfl
      · exact framed_before ' ' _ _ rfl
      · exact framed_trans _ _ _ (grouped_framed _ _) (framed_trans _ _ _ (framed_behind ' ' [op.symbol] _ rfl)
          (framed_behind ' ' _ _ rfl))
  | product left op right =>
      have either : part = left ∨ part = right := by simpa [parts] using member
      rw [product_chars]
      rcases either with rfl | rfl
      · exact framed_trans _ _ _ (grouped_framed _ _) (framed_before ' ' _ _ rfl)
      · exact framed_trans _ _ _ (grouped_framed _ _) (framed_trans _ _ _ (framed_behind ' ' [op.symbol] _ rfl)
          (framed_behind ' ' _ _ rfl))

theorem occurs_framed (root node : Node α) (occurs : root.Occurs node) :
    Framed node.text.toList root.text.toList := by
  induction occurs with
  | root => exact framed_refl _
  | part node part _ member ih => exact framed_trans _ _ _ (part_framed node part member) ih

end Node

end StyleCalc
