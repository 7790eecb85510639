import StyleCalc.Proofs.Outcome
import StyleCalc.Proofs.Reach

set_option autoImplicit false

namespace StyleCalc.Node

variable {α : Type} [Scalar α]

-- Fallbacks and variable values are not mentioned: what they resolve to is covered by their own leaves.
structure OutcomeInvariant (ctx : Context α) (root : Node α) (holds : Node α → Prop) : Prop where
  raw : ∀ css, Reaches ctx root (.raw css) → holds (.raw css)
  numeric : ∀ n, Reaches ctx root (.numeric n) → holds (.numeric n)
  finalUrl : ∀ address, Reaches ctx root (.url address) → isFinalAddress address → holds (.url address)
  hostUrl : ∀ address final, Reaches ctx root (.url address) → ctx.resolveUrl address = .ok final →
    holds (.raw ("url(\"" ++ final ++ "\")"))
  concat : ∀ ns, (∀ n ∈ ns, holds n) → holds (.concat ns)
  call : ∀ name args axes, (∀ n ∈ args, holds n) → holds (.call name args axes)
  sum : ∀ axis m op n r, holds (.numeric m) → holds (.numeric n) → m.sum ctx axis op n = .ok (some r) →
    holds (.numeric r)
  product : ∀ m op n r, holds (.numeric m) → holds (.numeric n) → m.product op n = .ok (some r) →
    holds (.numeric r)
  num : ∀ n r, holds (.numeric n) → n.normalize ctx = .ok r → Scalar.isFinite r.value →
    holds (.numeric (Numeric.count r.value))
  index : holds (.numeric (Numeric.count (Scalar.ofNat ctx.index)))

theorem outcome_invariant (ctx : Context α) (root : Node α) (holds : Node α → Prop)
    (invariant : OutcomeInvariant ctx root holds) (depth : Nat) (node : Node α)
    (reached : Reaches ctx root node) (axis : Option Axis) (out : Node α)
    (given : node.outcome ctx axis depth = .ok (some out)) : holds out := by
  induction depth, node using depth_induction generalizing axis out with
  | step depth node deeper parts =>
      have within (part : Node α) (member : part ∈ node.parts) (axis : Option Axis) (out : Node α)
          (given : part.outcome ctx axis depth = .ok (some out)) : holds out :=
        parts part member (.part node part reached member) axis out given
      cases node with
      | raw css =>
          rw [outcome_raw] at given
          cases given
          exact invariant.raw css reached
      | numeric n =>
          rw [outcome_numeric] at given
          cases given
          exact invariant.numeric n reached
      | concat ns =>
          rw [outcome_concat, except_map_ok_iff] at given
          obtain ⟨found, collected, built⟩ := given
          obtain ⟨ms, rfl, rfl⟩ := Option.map_eq_some_iff.mp built
          apply invariant.concat
          intro m member
          obtain ⟨n, among, value⟩ := List.mem_map.mp (collected_member _ ms m collected member)
          exact within n among axis m value
      | call name args axes =>
          rw [outcome_call, except_map_ok_iff] at given
          obtain ⟨found, collected, built⟩ := given
          obtain ⟨ms, rfl, rfl⟩ := Option.map_eq_some_iff.mp built
          apply invariant.call
          intro m member
          obtain ⟨i, bound, value⟩ := List.mem_mapIdx.mp (collected_member _ ms m collected member)
          exact within args[i] (List.getElem_mem bound) _ m value
      | url address =>
          by_cases final : isFinalAddress address
          · rw [outcome_constant ctx axis depth _ (by simpa only [isConstant] using final)] at given
            cases given
            exact invariant.finalUrl address reached final
          · rw [outcome_url ctx axis depth address final, except_map_ok_iff] at given
            obtain ⟨resolved, answered, built⟩ := given
            cases built
            exact invariant.hostUrl address resolved reached answered
      | var name fallback =>
          rw [outcome_var] at given
          by_cases tooDeep : maxDepth ≤ depth
          · rw [if_pos tooDeep] at given
            cases given
          · rw [if_neg tooDeep, valueOf] at given
            cases bound : ctx.lookup name with
            | some value =>
                rw [bound] at given
                exact deeper (Nat.lt_of_not_le tooDeep) value (.value name fallback value reached bound)
                  axis out given
            | none =>
                cases fallback with
                | none =>
                    rw [bound] at given
                    cases given
                | some value =>
                    rw [bound] at given
                    exact deeper (Nat.lt_of_not_le tooDeep) value
                      (.part _ value reached (by simp [Node.parts])) axis out given
      | calculation inner =>
          rw [outcome_calculation] at given
          exact within inner (by simp [Node.parts]) axis out given
      | sum left op right =>
          rw [outcome_sum] at given
          obtain ⟨m, n, r, first, second, added, rfl⟩ := binary_some _ _ _ _ out given
          exact invariant.sum axis m op n r (within left (by simp [Node.parts]) axis _ first)
            (within right (by simp [Node.parts]) axis _ second) added
      | product left op right =>
          rw [outcome_product] at given
          obtain ⟨m, n, r, first, second, multiplied, rfl⟩ := binary_some _ _ _ _ out given
          exact invariant.product m op n r (within left (by simp [Node.parts]) axis _ first)
            (within right (by simp [Node.parts]) axis _ second) multiplied
      | num inner =>
          rw [outcome_num, except_bind_ok_iff] at given
          obtain ⟨a, value, given⟩ := given
          obtain ⟨n, r, rfl, normalized, finite, rfl⟩ := plain_some ctx a out given
          exact invariant.num n r (within inner (by simp [Node.parts]) axis _ value) normalized finite
      | index =>
          rw [outcome_index] at given
          cases given
          exact invariant.index

theorem everywhere_invariant (ctx : Context α) (root : Node α) (holds : Node α → Prop)
    (invariant : OutcomeInvariant ctx root holds) :
    OutcomeInvariant ctx root fun out => ∀ inner, out.Occurs inner → holds inner := by
  have spread (out : Node α) (here : (∀ part ∈ out.parts, holds part) → holds out)
      (parts : ∀ part ∈ out.parts, ∀ inner, part.Occurs inner → holds inner) (inner : Node α)
      (occurs : out.Occurs inner) : holds inner := by
    rcases occurs_cases out inner occurs with rfl | ⟨part, member, within⟩
    · exact here fun part member => parts part member part .root
    · exact parts part member inner within
  constructor
  · exact fun css reached => spread _ (fun _ => invariant.raw css reached) (by simp [parts])
  · exact fun n reached => spread _ (fun _ => invariant.numeric n reached) (by simp [parts])
  · exact fun address reached final =>
      spread _ (fun _ => invariant.finalUrl address reached final) (by simp [parts])
  · exact fun address final reached answered =>
      spread _ (fun _ => invariant.hostUrl address final reached answered) (by simp [parts])
  · exact fun ns each => spread (.concat ns) (invariant.concat ns) each
  · exact fun name args axes each => spread (.call name args axes) (invariant.call name args axes) each
  · intro axis m op n r left right added
    exact spread _ (fun _ => invariant.sum axis m op n r (left _ .root) (right _ .root) added) (by simp [parts])
  · intro m op n r left right multiplied
    exact spread _ (fun _ => invariant.product m op n r (left _ .root) (right _ .root) multiplied)
      (by simp [parts])
  · intro n r operand normalized finite
    exact spread _ (fun _ => invariant.num n r (operand _ .root) normalized finite) (by simp [parts])
  · exact spread _ (fun _ => invariant.index) (by simp [parts])

theorem value_invariant (ctx : Context α) (root : Node α) (holds : Node α → Prop)
    (invariant : OutcomeInvariant ctx root holds) (scope : Scope) (out : Node α)
    (given : (root.resolveIn ctx scope).1 = .ok (some out)) (inner : Node α) (occurs : out.Occurs inner) :
    holds inner := by
  rw [resolve_in_outcome] at given
  exact outcome_invariant ctx root _ (everywhere_invariant ctx root holds invariant) scope.depth root .root
    scope.axis out given inner occurs

end StyleCalc.Node
