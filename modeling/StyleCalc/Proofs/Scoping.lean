import StyleCalc.Proofs.Outcome

set_option autoImplicit false

namespace StyleCalc.Node

variable {α : Type} [Scalar α]

theorem resolution_restores_scope (ctx : Context α) (node : Node α) (scope : Scope) :
    (node.resolveIn ctx scope).2 = scope :=
  (resolve_in_lexical ctx node).balanced scope

theorem call_arguments (ctx : Context α) (axis : Option Axis) (depth : Nat) (name : String)
    (args : List (Node α)) (axes : Option (List Axis)) (out : Node α)
    (given : (call name args axes).outcome ctx axis depth = .ok (some out)) :
    ∃ resolved, out = .call name resolved axes ∧ resolved.length = args.length ∧
      ∀ (i : Nat) (arg : Node α), args[i]? = some arg →
        ∃ value, resolved[i]? = some value ∧
          arg.outcome ctx ((axes.getD [])[i]?.or axis) depth = .ok (some value) := by
  rw [outcome_call, except_map_ok_iff] at given
  obtain ⟨found, collected, built⟩ := given
  obtain ⟨resolved, rfl, rfl⟩ := Option.map_eq_some_iff.mp built
  have row := (collect_some_iff _ resolved).mp collected
  have lengths : args.length = resolved.length := by
    simpa using congrArg List.length row
  refine ⟨resolved, rfl, lengths.symm, ?_⟩
  intro i arg here
  have bound : i < resolved.length := lengths ▸ (List.getElem?_eq_some_iff.mp here).1
  refine ⟨resolved[i], List.getElem?_eq_getElem bound, ?_⟩
  have entry := congrArg (fun row => row[i]?) row
  simpa [here, List.getElem?_eq_getElem bound] using entry

theorem axes_are_lexical (ctx : Context α) :
    (∀ (node : Node α) (s t : Scope), s.axis = t.axis → s.depth = t.depth →
      (node.resolveIn ctx s).1 = (node.resolveIn ctx t).1) ∧
    ∀ (name : String) (args : List (Node α)) (axes : Option (List Axis)) (scope : Scope) (out : Node α),
      ((call name args axes).resolveIn ctx scope).1 = .ok (some out) →
        ∃ resolved, out = .call name resolved axes ∧ resolved.length = args.length ∧
          ∀ (i : Nat) (arg : Node α), args[i]? = some arg →
            ∃ value, resolved[i]? = some value ∧
              (arg.resolveIn ctx ⟨((axes.getD [])[i]?.or scope.axis).toList, scope.depth⟩).1 =
                .ok (some value) := by
  refine ⟨fun node => (resolve_in_lexical ctx node).determined, ?_⟩
  intro name args axes scope out given
  rw [resolve_in_outcome] at given
  exact call_arguments ctx scope.axis scope.depth name args axes out given

theorem translate_axes_are_lexical :
    ((var "--dist" none).resolveIn (Context.page fun _ => some index) ⟨[.w, .h, .z], 3⟩).1 =
      ((var "--dist" none).resolveIn (Context.page fun _ => some index) ⟨[.w], 3⟩).1 ∧
    ∃ resolved, call "translate" [numeric (Numeric.count (Scalar.ofNat 3)), raw "none"] (some [.h]) =
        .call "translate" resolved (some [.h]) ∧
      resolved.length = 2 ∧
      ∃ value, resolved[0]? = some value ∧
        ((var "--dist" none).resolveIn (Context.page fun _ => some index) ⟨[.h], 3⟩).1 = .ok (some value) := by
  refine ⟨(axes_are_lexical _).1 _ _ _ rfl rfl, ?_⟩
  obtain ⟨resolved, same, length, each⟩ := (axes_are_lexical (Context.page fun _ => some index)).2
    "translate" [var "--dist" none, raw "none"] (some [.h]) ⟨[.w, .z], 3⟩ _ (by rfl)
  exact ⟨resolved, same, length, each 0 _ rfl⟩

end StyleCalc.Node
