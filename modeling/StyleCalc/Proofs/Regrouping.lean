import StyleCalc.Proofs.Framing
import StyleCalc.Proofs.Grammar
import StyleCalc.Proofs.Kinding
import StyleCalc.Proofs.Printing

set_option autoImplicit false

namespace StyleCalc

-- The operator that parentheses on its right may be dropped behind.
def Rank.leading : Rank → Operator
  | sum => .sum .add
  | product => .product .mul

def SumOp.compute : SumOp → ℚ → ℚ → ℚ
  | add, x, y => x + y
  | sub, x, y => x - y

def ProductOp.compute? : ProductOp → ℚ → ℚ → Option ℚ
  | mul, x, y => some (x * y)
  | div, x, y => if y = 0 then none else some (x / y)

theorem SumOp.compute_regroups (op : SumOp) (x y z : ℚ) :
    add.compute x (op.compute y z) = op.compute (add.compute x y) z := by
  cases op with
  | add => exact (add_assoc x y z).symm
  | sub => exact (add_sub_assoc x y z).symm

theorem ProductOp.compute_regroups (op : ProductOp) (x y z : ℚ) :
    (op.compute? y z >>= fun v => mul.compute? x v) = (mul.compute? x y >>= fun v => op.compute? v z) := by
  cases op with
  | mul => exact congrArg some (mul_assoc x y z).symm
  | div =>
      change (compute? div y z >>= fun v => some (x * v)) = compute? div (x * y) z
      by_cases zero : z = 0
      · rw [compute?, compute?, if_pos zero, if_pos zero]
        rfl
      · rw [compute?, compute?, if_neg zero, if_neg zero]
        exact congrArg some (mul_div_assoc x y z).symm

namespace Node

variable {α : Type}

def atoms : Node α → ℕ
  | .sum left _ right => left.atoms + right.atoms
  | .product left _ right => left.atoms + right.atoms
  | .calculation inner => inner.atoms
  | _ => 1

/-- The exact value, given one for each atom. The atoms are numbered from `start` on. A quotient by zero has
no value. -/
def exactValue (assign : ℕ → ℚ) : Node α → ℕ → Option ℚ
  | .sum left op right, start => do
      let x ← left.exactValue assign start
      let y ← right.exactValue assign (start + left.atoms)
      return op.compute x y
  | .product left op right, start => do
      let x ← left.exactValue assign start
      let y ← right.exactValue assign (start + left.atoms)
      op.compute? x y
  | .calculation inner, start => inner.exactValue assign start
  | _, start => some (assign start)

variable [Scalar α]

/-- The first expression becomes the second when sums and products are grouped from the left. A number is the
same if its value and its units are; its kind is the one of its units. -/
inductive Regroups : Node α → Node α → Prop where
  | refl (n : Node α) : Regroups n n
  | trans (n m out : Node α) (first : Regroups n m) (second : Regroups m out) : Regroups n out
  | numeric (n m : Numeric α) (k : Kind) (known : Kind.ofUnits? n.units = some k) (same : m == { n with kind := k }) :
      Regroups (.numeric n) (.numeric m)
  | calculation (n m : Node α) (inner : Regroups n m) : Regroups (.calculation n) (.calculation m)
  | num (n m : Node α) (inner : Regroups n m) : Regroups (.num n) (.num m)
  | sum (a a' b b' : Node α) (op : SumOp) (left : Regroups a a') (right : Regroups b b') :
      Regroups (.sum a op b) (.sum a' op b')
  | product (a a' b b' : Node α) (op : ProductOp) (left : Regroups a a') (right : Regroups b b') :
      Regroups (.product a op b) (.product a' op b')
  | addend (a b c : Node α) (op : SumOp) : Regroups (.sum a .add (.sum b op c)) (.sum (.sum a .add b) op c)
  | factor (a b c : Node α) (op : ProductOp) :
      Regroups (.product a .mul (.product b op c)) (.product (.product a .mul b) op c)

theorem regroups_atoms (n m : Node α) (regroups : Regroups n m) : n.atoms = m.atoms := by
  induction regroups with
  | refl n => rfl
  | trans n m out _ _ first second => exact first.trans second
  | numeric n m k known same => rfl
  | calculation n m _ ih => exact ih
  | num n m _ _ => rfl
  | sum a a' b b' op _ _ left right => rw [atoms, atoms, left, right]
  | product a a' b b' op _ _ left right => rw [atoms, atoms, left, right]
  | addend a b c op => exact (Nat.add_assoc _ _ _).symm
  | factor a b c op => exact (Nat.add_assoc _ _ _).symm

theorem regroups_value (n m : Node α) (regroups : Regroups n m) (assign : ℕ → ℚ) (start : ℕ) :
    n.exactValue assign start = m.exactValue assign start := by
  induction regroups generalizing start with
  | refl n => rfl
  | trans n m out _ _ first second => exact (first start).trans (second start)
  | numeric n m k known same => rfl
  | calculation n m _ ih => exact ih start
  | num n m _ _ => rfl
  | sum a a' b b' op left _ leftValue rightValue =>
      rw [exactValue, exactValue, leftValue, rightValue, regroups_atoms a a' left]
  | product a a' b b' op left _ leftValue rightValue =>
      rw [exactValue, exactValue, leftValue, rightValue, regroups_atoms a a' left]
  | addend a b c op =>
      simp only [exactValue, atoms, Nat.add_assoc]
      cases a.exactValue assign start with
      | none => rfl
      | some x =>
          cases b.exactValue assign (start + a.atoms) with
          | none => rfl
          | some y =>
              cases c.exactValue assign (start + (a.atoms + b.atoms)) with
              | none => rfl
              | some z => exact congrArg some (SumOp.compute_regroups op x y z)
  | factor a b c op =>
      simp only [exactValue, atoms, Nat.add_assoc]
      cases a.exactValue assign start with
      | none => rfl
      | some x =>
          cases b.exactValue assign (start + a.atoms) with
          | none => rfl
          | some y =>
              cases c.exactValue assign (start + (a.atoms + b.atoms)) with
              | none => rfl
              | some z => exact ProductOp.compute_regroups op x y z

theorem regroups_apply (op : Operator) (a a' b b' : Node α) (left : Regroups a a') (right : Regroups b b') :
    Regroups (op.apply a b) (op.apply a' b') := by
  cases op with
  | sum op => exact .sum a a' b b' op left right
  | product op => exact .product a a' b b' op left right

theorem regroups_leading (op : Operator) (a b c : Node α) :
    Regroups (op.rank.leading.apply a (op.apply b c)) (op.apply (op.rank.leading.apply a b) c) := by
  cases op with
  | sum op => exact .addend a b c op
  | product op => exact .factor a b c op

theorem tail_regroups (rank : Rank) (base front front' n : Node α) (s : List Char)
    (tail : Reads (.tail rank front) s n) (moved : Regroups (rank.leading.apply base front) front') :
    ∃ out, Reads (.tail rank front') s out ∧ Regroups (rank.leading.apply base n) out := by
  generalize from' : Phrase.tail rank front = phrase at tail
  induction tail generalizing front front' with
  | wrapped w s n inner _ => cases from'
  | index => cases from'
  | literal l => cases from'
  | chain rank s others n out _ _ _ _ => cases from'
  | last _ n =>
      cases from'
      exact ⟨front', .last rank front', moved⟩
  | next _ op ranked s others n m out operand _ _ ih =>
      cases from'
      subst ranked
      have further : Regroups (op.rank.leading.apply base (op.apply n m)) (op.apply front' m) :=
        .trans _ _ _ (regroups_leading op base n m) (regroups_apply op _ _ _ _ moved (.refl m))
      obtain ⟨result, read, regroups⟩ := ih _ _ further rfl
      exact ⟨result, .next _ op rfl s others front' m result operand read, regroups⟩

theorem chain_join (rank : Rank) (s s' : List Char) (n m : Node α) (left : Reads (.chain rank) s n)
    (right : Reads (.chain rank) s' m) :
    ∃ out, Reads (.chain rank) (s ++ ' ' :: rank.leading.symbol :: ' ' :: s') out ∧
      Regroups (rank.leading.apply n m) out := by
  have ranked : rank.leading.rank = rank := by cases rank <;> rfl
  cases right with
  | chain _ first rest front _ operand tail =>
      have joined :
          Reads (.chain rank) (s ++ ' ' :: rank.leading.symbol :: ' ' :: first) (rank.leading.apply n front) := by
        have next := chain_next rank.leading s first n front
        rw [ranked] at next
        exact next left operand
      obtain ⟨out, others, regroups⟩ := tail_regroups rank n front _ m rest tail (.refl _)
      refine ⟨out, ?_, regroups⟩
      have whole := chain_append rank _ rest _ out joined others
      rwa [List.append_assoc] at whole

def phrase : Node α → Phrase α
  | .sum _ _ _ => .chain .sum
  | .product _ _ _ => .chain .product
  | _ => .atom

theorem atom_text (n : Node α) (s : List Char) (out : Node α) (noSum : n.isSum = false)
    (noProduct : n.isProduct = false) (read : Reads n.phrase s out) : Reads .atom s out := by
  cases n with
  | sum left op right => cases noSum
  | product left op right => cases noProduct
  | _ => exact read

theorem product_text (n : Node α) (s : List Char) (out : Node α) (noSum : n.isSum = false)
    (read : Reads n.phrase s out) : Reads (.chain .product) s out := by
  by_cases product : n.isProduct
  · cases n with
    | product left op right => exact read
    | _ => cases product
  · exact chain_single .product s out (atom_text n s out noSum (Bool.eq_false_iff.mpr product) read)

theorem sum_text (n : Node α) (s : List Char) (out : Node α) (read : Reads n.phrase s out) :
    Reads (.chain .sum) s out := by
  by_cases sum : n.isSum
  · cases n with
    | sum left op right => exact read
    | _ => cases sum
  · exact chain_single .sum s out (product_text n s out (Bool.eq_false_iff.mpr sum) read)

theorem group_text (s : String) (out : Node α) (read : Reads (.chain .sum) s.toList out) :
    Reads .atom (grouped true s).toList out := by
  have group := Reads.wrapped .group s.toList out read
  have same : (grouped true s).toList = Wrapper.group.opening ++ (s.toList ++ [')']) := by
    simp [grouped, Wrapper.opening]
  rw [same]
  exact group

theorem factor_text (n out : Node α) (read : Reads n.phrase n.text.toList out) :
    Reads (.chain .product) (grouped n.isSum n.text).toList out := by
  cases sum : n.isSum with
  | true => exact chain_single .product _ out (group_text n.text out (sum_text n _ out read))
  | false => exact product_text n _ out sum read

theorem divisor_text (n out : Node α) (read : Reads n.phrase n.text.toList out) :
    Reads .atom (grouped (n.isSum || n.isProduct) n.text).toList out := by
  cases compound : n.isSum || n.isProduct with
  | true => exact group_text n.text out (sum_text n _ out read)
  | false =>
      rw [Bool.or_eq_false_iff] at compound
      exact atom_text n _ out compound.1 compound.2 read

theorem wrapped_text (w : Wrapper) (s : String) (out : Node α) (read : Reads (.chain .sum) s.toList out) :
    Reads .atom (String.ofList w.opening ++ s ++ ")").toList (w.wrap out) := by
  have same : (String.ofList w.opening ++ s ++ ")").toList = w.opening ++ (s.toList ++ [')']) := by simp
  rw [same]
  exact .wrapped w s.toList out read

def Legible (node : Node Float) : Prop :=
  ∀ n, node.Occurs (.numeric n) → Scalar.isFinite n.value ∧ (Kind.ofUnits? n.units).isSome

theorem legible_part (node part : Node Float) (member : part ∈ node.parts) (legible : node.Legible) : part.Legible :=
  fun n occurs => legible n (occurs_in_part node part _ member occurs)

theorem legible_of_parts (node : Node Float)
    (here : ∀ n, node = .numeric n → Scalar.isFinite n.value ∧ (Kind.ofUnits? n.units).isSome)
    (each : ∀ part ∈ node.parts, part.Legible) : node.Legible := by
  intro n occurs
  rcases occurs_cases node _ occurs with same | ⟨part, member, within⟩
  · exact here n same.symm
  · exact each part member n within

theorem text_regroups (node : Node Float) (arithmetic : node.Arithmetic) (legible : node.Legible) :
    ∃ out, Reads node.phrase node.text.toList out ∧ Regroups node out := by
  induction arithmetic with
  | numeric n =>
      obtain ⟨finite, units⟩ := legible n .root
      obtain ⟨k, known⟩ := Option.isSome_iff_exists.mp units
      obtain ⟨l, chars, value, numeric, same⟩ := n.written_literal finite k known
      refine ⟨.numeric l.numeric, ?_, .numeric n _ k known ?_⟩
      · rw [text, ← chars]
        exact .literal l
      · rw [numeric]
        exact Numeric.beq_of_value k value n.value n.units same
  | index => exact ⟨.index, .index, .refl _⟩
  | num inner _ ih =>
      obtain ⟨out, read, regroups⟩ := ih (legible_part _ inner List.mem_cons_self legible)
      refine ⟨.num out, ?_, .num inner out regroups⟩
      rw [text]
      exact wrapped_text .num inner.text out (sum_text inner _ out read)
  | calculation inner _ ih =>
      obtain ⟨out, read, regroups⟩ := ih (legible_part _ inner List.mem_cons_self legible)
      refine ⟨.calculation out, ?_, .calculation inner out regroups⟩
      rw [text]
      exact wrapped_text .calculation inner.text out (sum_text inner _ out read)
  | sum left right op _ _ ihLeft ihRight =>
      obtain ⟨leftOut, leftRead, leftRegroups⟩ := ihLeft (legible_part _ left List.mem_cons_self legible)
      obtain ⟨rightOut, rightRead, rightRegroups⟩ :=
        ihRight (legible_part _ right (List.mem_cons_of_mem left List.mem_cons_self) legible)
      have operands := Regroups.sum left leftOut right rightOut op leftRegroups rightRegroups
      have front := sum_text left _ leftOut leftRead
      cases op with
      | add =>
          obtain ⟨out, read, regroups⟩ := chain_join .sum _ _ _ _ front (sum_text right _ rightOut rightRead)
          refine ⟨out, ?_, .trans _ _ _ operands regroups⟩
          rw [sum_chars]
          exact read
      | sub =>
          refine ⟨.sum leftOut .sub rightOut, ?_, operands⟩
          rw [sum_chars]
          exact chain_next (.sum .sub) _ _ _ _ front (factor_text right rightOut rightRead)
  | product left right op _ _ ihLeft ihRight =>
      obtain ⟨leftOut, leftRead, leftRegroups⟩ := ihLeft (legible_part _ left List.mem_cons_self legible)
      obtain ⟨rightOut, rightRead, rightRegroups⟩ :=
        ihRight (legible_part _ right (List.mem_cons_of_mem left List.mem_cons_self) legible)
      have operands := Regroups.product left leftOut right rightOut op leftRegroups rightRegroups
      have front := factor_text left leftOut leftRead
      cases op with
      | mul =>
          obtain ⟨out, read, regroups⟩ := chain_join .product _ _ _ _ front (factor_text right rightOut rightRead)
          refine ⟨out, ?_, .trans _ _ _ operands regroups⟩
          have asked : groupsFactor .mul right = right.isSum := Bool.or_false _
          rw [product_chars, asked]
          exact read
      | div =>
          refine ⟨.product leftOut .div rightOut, ?_, operands⟩
          rw [product_chars]
          exact chain_next (.product .div) _ _ _ _ front (divisor_text right rightOut rightRead)

theorem text_keeps_meaning (node : Node Float) (arithmetic : node.Arithmetic) (legible : node.Legible) :
    ∃ out, (∀ other, Reads (.chain .sum) node.text.toList other ↔ other = out) ∧ Regroups node out ∧
      ∀ assign : ℕ → ℚ, node.exactValue assign 0 = out.exactValue assign 0 := by
  obtain ⟨out, read, regroups⟩ := text_regroups node arithmetic legible
  have reading := sum_text node _ out read
  refine ⟨out, fun other => ⟨fun given => ?_, ?_⟩, regroups, fun assign => regroups_value node out regroups assign 0⟩
  · exact (reads_unique _ _ _ _ _ given reading [] [] rfl (by simp) (by simp)).2
  · rintro rfl
    exact reading

def portion : Node Float :=
  .product (.numeric ⟨.length, -2.5, "em"⟩) .mul (.product .index .div (.num (.numeric ⟨.time, 2, "s"⟩)))

def gutter : Node Float :=
  .calculation (.sum (.numeric ⟨.length, 3, "px"⟩) .add (.sum .index .sub portion))

theorem legible_leaf (n : Numeric Float) (finite : Scalar.isFinite n.value) (known : (Kind.ofUnits? n.units).isSome) :
    Legible (.numeric n) :=
  legible_of_parts _ (fun m same => by cases same; exact ⟨finite, known⟩) nofun

theorem gutter_legible : gutter.Legible := by
  have index : Legible .index := legible_of_parts _ nofun nofun
  have pair (left right : Node Float) (first : left.Legible) (second : right.Legible) :
      ∀ part ∈ [left, right], part.Legible := by
    intro part member
    rcases List.mem_pair.mp member with rfl | rfl
    · exact first
    · exact second
  have time : Legible (.num (.numeric ⟨.time, 2, "s"⟩)) :=
    legible_of_parts _ nofun (List.forall_mem_singleton.mpr (legible_leaf _ (by decide) (by decide)))
  have quotient : Legible (.product .index .div (.num (.numeric ⟨.time, 2, "s"⟩))) :=
    legible_of_parts _ nofun (pair _ _ index time)
  have factors : portion.Legible :=
    legible_of_parts _ nofun (pair _ _ (legible_leaf _ (by decide) (by decide)) quotient)
  have difference : Legible (.sum .index .sub portion) := legible_of_parts _ nofun (pair _ _ index factors)
  have total : Legible (.sum (.numeric ⟨.length, 3, "px"⟩) .add (.sum .index .sub portion)) :=
    legible_of_parts _ nofun (pair _ _ (legible_leaf _ (by decide) (by decide)) difference)
  exact legible_of_parts _ nofun (List.forall_mem_singleton.mpr total)

theorem gutter_keeps_meaning :
    gutter.Arithmetic ∧ gutter.Legible ∧
    ∃ out, Reads (.chain .sum) gutter.text.toList out ∧ Regroups gutter out ∧
      out.exactValue (fun i => i) 0 = some (-1 / 2) := by
  have arithmetic : gutter.Arithmetic :=
    .calculation _ (.sum _ _ _ (.numeric _) (.sum _ _ _ .index
      (.product _ _ _ (.numeric _) (.product _ _ _ .index (.num _ (.numeric _))))))
  obtain ⟨out, read, regroups, value⟩ := text_keeps_meaning gutter arithmetic gutter_legible
  refine ⟨arithmetic, gutter_legible, out, (read out).mpr rfl, regroups, ?_⟩
  rw [← value]
  norm_num [gutter, portion, exactValue, atoms, SumOp.compute, ProductOp.compute?]

end Node

end StyleCalc
