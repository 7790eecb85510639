import StyleCalc.Proofs.OutcomeInvariant

set_option autoImplicit false

namespace StyleCalc.Node

variable {α : Type} [Scalar α]

theorem constant_invariant (ctx : Context α) (root : Node α) :
    OutcomeInvariant ctx root (fun out => out.isConstant) where
  raw _ _ := rfl
  numeric _ _ := rfl
  finalUrl _ _ final := by simpa only [isConstant] using final
  hostUrl _ _ _ _ := rfl
  concat ns each := by simpa only [isConstant] using (all_constant_iff ns).mpr each
  call _ args _ each := by simpa only [isConstant] using (all_constant_iff args).mpr each
  sum _ _ _ _ _ _ _ _ := rfl
  product _ _ _ _ _ _ _ := rfl
  num _ _ _ _ _ := rfl
  index := rfl

theorem resolve_in_constant (ctx : Context α) (node out : Node α) (scope : Scope)
    (given : (node.resolveIn ctx scope).1 = .ok (some out)) : out.isConstant := by
  rw [resolve_in_outcome] at given
  exact outcome_invariant ctx node _ (constant_invariant ctx node) _ node .root _ out given

theorem resolve_in_of_constant (ctx : Context α) (node : Node α) (scope : Scope)
    (constant : node.isConstant) : node.resolveIn ctx scope = (.ok (some node), scope) := by
  rw [resolve_in_outcome, outcome_constant ctx _ _ node constant]

theorem resolution_reaches_normal_form (ctx : Context α) (node : Node α) :
    (∀ scope out, (node.resolveIn ctx scope).1 = .ok (some out) →
      out.isConstant ∧ ∀ (other : Context α) (elsewhere : Scope),
        out.resolveIn other elsewhere = (.ok (some out), elsewhere)) ∧
    (node.resolve ctx = .ok (some node) ↔ node.isConstant) := by
  refine ⟨?_, ?_, ?_⟩
  · intro scope out given
    have constant := resolve_in_constant ctx node out scope given
    exact ⟨constant, fun other elsewhere => resolve_in_of_constant other out elsewhere constant⟩
  · exact resolve_in_constant ctx node node Scope.start
  · intro constant
    rw [resolve, resolve_in_of_constant ctx node Scope.start constant]

theorem translate_reaches_normal_form :
    ((concat [url "a.png", call "translate" [var "--dist" none, index] (some [.w, .h])]).resolveIn
        (Context.page fun _ => some (.calculation (.numeric ⟨.length, 1, "em"⟩))) ⟨[.h], 7⟩).1 =
      .ok (some (concat [raw "url(\"https://page/a.png\")", call "translate"
        [numeric ⟨.length, 1, "em"⟩, numeric (Numeric.count (Scalar.ofNat 3))] (some [.w, .h])])) ∧
    (concat [raw "url(\"https://page/a.png\")", call "translate"
      [numeric ⟨.length, 1, "em"⟩, numeric (Numeric.count (Scalar.ofNat 3 : Float))] (some [.w, .h])]).isConstant := by
  have resolved : ((concat [url "a.png", call "translate" [var "--dist" none, index] (some [.w, .h])]).resolveIn
      (Context.page fun _ => some (.calculation (.numeric ⟨.length, 1, "em"⟩))) ⟨[.h], 7⟩).1 =
      .ok (some (concat [raw "url(\"https://page/a.png\")", call "translate"
        [numeric ⟨.length, 1, "em"⟩, numeric (Numeric.count (Scalar.ofNat 3))] (some [.w, .h])])) := rfl
  exact ⟨resolved, ((resolution_reaches_normal_form _ _).1 _ _ resolved).1⟩

end StyleCalc.Node
