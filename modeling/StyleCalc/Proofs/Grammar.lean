import StyleCalc.Node.Text
import StyleCalc.Proofs.Literals

set_option autoImplicit false

namespace StyleCalc

inductive Rank where
  | sum
  | product
deriving DecidableEq

inductive Operator where
  | sum (op : SumOp)
  | product (op : ProductOp)

inductive Wrapper where
  | group
  | calculation
  | num

namespace Operator

def symbol : Operator → Char
  | sum op => op.symbol
  | product op => op.symbol

def rank : Operator → Rank
  | sum _ => .sum
  | product _ => .product

def apply {α : Type} : Operator → Node α → Node α → Node α
  | sum op, left, right => .sum left op right
  | product op, left, right => .product left op right

end Operator

namespace Wrapper

def opening : Wrapper → List Char
  | group => "(".toList
  | calculation => "calc(".toList
  | num => "num(".toList

def wrap {α : Type} : Wrapper → Node α → Node α
  | group, inner => inner
  | calculation, inner => .calculation inner
  | num, inner => .num inner

end Wrapper

/-- The parts of the grammar. A `tail` continues a chain that has come to the given expression. -/
inductive Phrase (α : Type) where
  | atom
  | chain (rank : Rank)
  | tail (rank : Rank) (front : Node α)

def Rank.operand {α : Type} : Rank → Phrase α
  | sum => .chain .product
  | product => .atom

-- The operators that would go on with a chain. Those of its operands would go on as well.
def Rank.joins : Rank → List Char
  | product => ['*', '/']
  | sum => ['*', '/', '+', '-']

variable {α : Type}

def Phrase.joins : Phrase α → List Char
  | atom => []
  | chain rank => rank.joins
  | tail rank _ => rank.joins

structure Stops (joins rest : List Char) : Prop where
  plain : Text.Bars Text.isLiteralChar rest
  ends : ∀ c behind, rest = ' ' :: c :: behind → c ∉ joins

/-- A text and the expression it is read as. An atom is an expression in parentheses, `calc()`, `num()`,
`index()` or a literal. -/
inductive Reads [Scalar α] : Phrase α → List Char → Node α → Prop where
  | wrapped (w : Wrapper) (s : List Char) (n : Node α) (inner : Reads (.chain .sum) s n) :
      Reads .atom (w.opening ++ (s ++ [')'])) (w.wrap n)
  | index : Reads .atom "index()".toList .index
  | literal (l : Literal) : Reads .atom l.chars (.numeric l.numeric)
  | chain (rank : Rank) (s rest : List Char) (n out : Node α) (first : Reads rank.operand s n)
      (others : Reads (.tail rank n) rest out) : Reads (.chain rank) (s ++ rest) out
  | last (rank : Rank) (n : Node α) : Reads (.tail rank n) [] n
  | next (rank : Rank) (op : Operator) (ranked : op.rank = rank) (s rest : List Char) (n m out : Node α)
      (operand : Reads rank.operand s m) (others : Reads (.tail rank (op.apply n m)) rest out) :
      Reads (.tail rank n) (' ' :: op.symbol :: ' ' :: (s ++ rest)) out

open Text Phrase

@[simp]
theorem stops_nil (joins : List Char) : Stops joins [] :=
  ⟨by simp, nofun⟩

theorem stops_close (joins rest : List Char) : Stops joins (')' :: rest) :=
  ⟨(bars_cons _ _ _).mpr rfl, nofun⟩

theorem symbol_joins (op : Operator) :
    op.symbol ∈ op.rank.joins ∧ op.symbol ∉ (op.rank.operand : Phrase α).joins := by
  cases op with
  | sum op => cases op <;> exact ⟨by decide, of_decide_eq_true rfl⟩
  | product op => cases op <;> exact ⟨by decide, of_decide_eq_true rfl⟩

theorem operand_joins (rank : Rank) (c : Char) (joins : c ∈ (rank.operand : Phrase α).joins) : c ∈ rank.joins := by
  cases rank with
  | sum => exact List.mem_append_left ['+', '-'] joins
  | product => cases joins

variable [Scalar α]

theorem stops_operand (rank : Rank) (n out : Node α) (s rest : List Char) (others : Reads (.tail rank n) s out)
    (stop : Stops rank.joins rest) : Stops (rank.operand : Phrase α).joins (s ++ rest) := by
  cases others with
  | last =>
      exact ⟨stop.plain, fun c behind same joins => stop.ends c behind same (operand_joins rank c joins)⟩
  | next _ op ranked s rest' _ m _ _ _ =>
      subst ranked
      refine ⟨(bars_cons _ _ _).mpr rfl, fun c behind same joins => ?_⟩
      obtain rfl : op.symbol = c := (List.cons.inj (List.cons.inj same).2).1
      exact (symbol_joins op).2 joins

theorem symbol_inj (op op' : Operator) (same : op.symbol = op'.symbol) : op = op' := by
  cases op with
  | sum op => cases op <;> cases op' with
    | sum op' => cases op' <;> first | rfl | cases same
    | product op' => cases op' <;> cases same
  | product op => cases op <;> cases op' with
    | sum op' => cases op' <;> cases same
    | product op' => cases op' <;> first | rfl | cases same

def openers : List Char :=
  ['(', 'c', 'n', 'i']

theorem literal_front (l : Literal) : ∃ c s, l.chars = c :: s ∧ c ∉ openers := by
  have noDigit : openers.all (fun c => !c.isDigit) := by decide
  obtain ⟨c, mantissa, first, start⟩ := Decimal.mantissa_front l.numeral
  rw [Literal.chars, Numeral.chars, first]
  cases l.numeral.sign with
  | plus => exact ⟨'+', _, rfl, by decide⟩
  | minus => exact ⟨'-', _, rfl, by decide⟩
  | absent =>
      refine ⟨c, _, rfl, fun among => ?_⟩
      rcases start with digit | rfl
      · simpa [digit] using List.all_eq_true.mp noDigit c among
      · exact absurd among (by decide)

theorem literal_not_opener (l : Literal) (c : Char) (among : c ∈ openers) (s rest : List Char) :
    l.chars ++ s ≠ c :: rest := by
  obtain ⟨d, front, first, other⟩ := literal_front l
  rw [first]
  intro same
  exact other ((List.cons.inj same).1 ▸ among)

theorem opening_front (w : Wrapper) : ∃ c s, w.opening = c :: s ∧ c ∈ openers ∧ c ≠ 'i' := by
  cases w <;> exact ⟨_, _, rfl, by decide, by decide⟩

theorem opening_unique (w w' : Wrapper) (s s' : List Char) (same : w.opening ++ s = w'.opening ++ s') :
    w = w' ∧ s = s' := by
  cases w <;> cases w' <;> first | exact ⟨rfl, List.append_cancel_left same⟩ | cases (List.cons.inj same).1

theorem reads_unique (phrase : Phrase α) (s s' : List Char) (n n' : Node α) (first : Reads phrase s n)
    (second : Reads phrase s' n') (rest rest' : List Char) (same : s ++ rest = s' ++ rest')
    (stop : Stops phrase.joins rest) (stop' : Stops phrase.joins rest') : s = s' ∧ n = n' := by
  induction first generalizing s' n' rest rest' with
  | wrapped w s n inner ih =>
      obtain ⟨c, opening, front, among, notIndex⟩ := opening_front w
      cases second with
      | wrapped w' s' n' inner' =>
          simp only [List.append_assoc] at same
          obtain ⟨rfl, inside⟩ := opening_unique w w' _ _ same
          obtain ⟨rfl, rfl⟩ := ih s' n' inner' _ _ inside (stops_close _ rest) (stops_close _ rest')
          exact ⟨rfl, rfl⟩
      | index =>
          rw [front] at same
          exact absurd (List.cons.inj same).1 notIndex
      | literal l =>
          rw [front] at same
          exact absurd same.symm (literal_not_opener l c among _ _)
  | index =>
      cases second with
      | wrapped w s' n' inner =>
          obtain ⟨c, opening, front, _, notIndex⟩ := opening_front w
          rw [front] at same
          exact absurd (List.cons.inj same).1.symm notIndex
      | index => exact ⟨rfl, rfl⟩
      | literal l => exact absurd same.symm (literal_not_opener l 'i' (by decide) _ _)
  | literal l =>
      cases second with
      | wrapped w s' n' inner =>
          obtain ⟨c, opening, front, among, _⟩ := opening_front w
          rw [front] at same
          exact absurd same (literal_not_opener l c among _ _)
      | index => exact absurd same (literal_not_opener l 'i' (by decide) _ _)
      | literal l' =>
          obtain ⟨rfl, _⟩ := l.literal_unique l' rest rest' stop.plain stop'.plain same
          exact ⟨rfl, rfl⟩
  | chain rank s others n out first tail ihFirst ihTail =>
      cases second with
      | chain _ s' others' n' out' first' tail' =>
          rw [List.append_assoc, List.append_assoc] at same
          obtain ⟨rfl, rfl⟩ := ihFirst s' n' first' _ _ same (stops_operand rank n out _ _ tail stop)
            (stops_operand rank n' _ _ _ tail' stop')
          obtain ⟨rfl, rfl⟩ := ihTail others' _ tail' rest rest' (List.append_cancel_left same) stop stop'
          exact ⟨rfl, rfl⟩
  | last rank n =>
      cases second with
      | last => exact ⟨rfl, rfl⟩
      | next _ op ranked s others _ m out operand tail =>
          subst ranked
          exact absurd (symbol_joins (α := α) op).1 (stop.ends _ _ same)
  | next rank op ranked s others n m out operand tail ihOperand ihTail =>
      cases second with
      | last =>
          subst ranked
          exact absurd (symbol_joins (α := α) op).1 (stop'.ends _ _ same.symm)
      | next _ op' ranked' s' others' _ m' out' operand' tail' =>
          simp only [List.cons_append, List.append_assoc, List.cons.injEq, true_and] at same
          obtain ⟨symbols, operands⟩ := same
          obtain rfl := symbol_inj op op' symbols
          obtain ⟨rfl, rfl⟩ := ihOperand s' m' operand' _ _ operands (stops_operand rank _ _ _ _ tail stop)
            (stops_operand rank _ _ _ _ tail' stop')
          obtain ⟨rfl, rfl⟩ := ihTail others' _ tail' rest rest' (List.append_cancel_left operands) stop stop'
          exact ⟨rfl, rfl⟩

theorem tail_append (rank : Rank) (s s' : List Char) (n m out : Node α) (first : Reads (.tail rank n) s m)
    (second : Reads (.tail rank m) s' out) : Reads (.tail rank n) (s ++ s') out := by
  generalize front : Phrase.tail rank n = phrase at first
  induction first generalizing n with
  | wrapped w s n inner _ => cases front
  | index => cases front
  | literal l => cases front
  | chain rank s others n out _ _ _ _ => cases front
  | last rank n =>
      cases front
      exact second
  | next _ op ranked s others n m out operand _ _ ih =>
      cases front
      rw [List.cons_append, List.cons_append, List.cons_append, List.append_assoc]
      exact .next _ op ranked s _ n m _ operand (ih _ second rfl)

theorem chain_append (rank : Rank) (s s' : List Char) (n out : Node α) (first : Reads (.chain rank) s n)
    (others : Reads (.tail rank n) s' out) : Reads (.chain rank) (s ++ s') out := by
  cases first with
  | chain _ s rest m _ operand tail =>
      rw [List.append_assoc]
      exact .chain rank s _ m out operand (tail_append rank rest s' m n out tail others)

theorem chain_single (rank : Rank) (s : List Char) (n : Node α) (operand : Reads rank.operand s n) :
    Reads (.chain rank) s n := by
  have single := Reads.chain rank s [] n n operand (.last rank n)
  rwa [List.append_nil] at single

theorem chain_next (op : Operator) (s s' : List Char) (n m : Node α) (chain : Reads (.chain op.rank) s n)
    (operand : Reads op.rank.operand s' m) :
    Reads (.chain op.rank) (s ++ ' ' :: op.symbol :: ' ' :: s') (op.apply n m) := by
  have tail := Reads.next op.rank op rfl s' [] n m _ operand (.last op.rank _)
  rw [List.append_nil] at tail
  exact chain_append op.rank s _ n _ chain tail

end StyleCalc
