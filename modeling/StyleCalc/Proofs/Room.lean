import Mathlib.Data.List.Forall2
import StyleCalc.Proofs.Assembly

set_option autoImplicit false

namespace StyleCalc

variable {α β γ : Type}

/-- What may become of a result where there is more room: one that met the depth limit may become
anything, every other stays as it is. -/
inductive Relaxes : Except (ExprError α) β → Except (ExprError α) β → Prop where
  | same (r : Except (ExprError α) β) : Relaxes r r
  | limited (name : String) (s : Except (ExprError α) β) : Relaxes (.error (.maxDepthExceeded name)) s

theorem relaxes_trans (r s t : Except (ExprError α) β) (first : Relaxes r s) (second : Relaxes s t) :
    Relaxes r t := by
  cases first with
  | same => exact second
  | limited name => exact .limited name t

theorem relaxes_settled (r s : Except (ExprError α) β) (relaxes : Relaxes r s)
    (settled : ∀ name, r ≠ .error (.maxDepthExceeded name)) : s = r := by
  cases relaxes with
  | same => rfl
  | limited name => exact absurd rfl (settled name)

theorem relaxes_bind (r s : Except (ExprError α) β) (f g : β → Except (ExprError α) γ)
    (first : Relaxes r s) (rest : ∀ b, Relaxes (f b) (g b)) : Relaxes (r >>= f) (s >>= g) := by
  cases first with
  | same =>
      cases r with
      | error e => exact .same _
      | ok b => exact rest b
  | limited name => exact .limited name _

theorem relaxes_map (r s : Except (ExprError α) β) (f : β → γ) (relaxes : Relaxes r s) :
    Relaxes (r.map f) (s.map f) := by
  cases relaxes with
  | same => exact .same _
  | limited name => exact .limited name _

-- A row stops at the first result that is no value. If that one met the limit then so does the row,
-- and nothing is said of the results behind it.
theorem relaxes_collect (rs ss : List (Except (ExprError α) (Option β))) (row : List.Forall₂ Relaxes rs ss) :
    Relaxes (collect rs) (collect ss) := by
  induction row with
  | nil => exact .same _
  | @cons r s rest others first _ ih =>
      cases first with
      | limited name => exact .limited name _
      | same =>
          match r with
          | .error e => exact .same _
          | .ok none => exact .same _
          | .ok (some b) => exact relaxes_map _ _ _ ih

theorem relaxes_place (rs ss : List (Except (ExprError α) β)) (row : List.Forall₂ Relaxes rs ss) (i : Nat)
    (absent : Except (ExprError α) β) : Relaxes (rs.getD i absent) (ss.getD i absent) := by
  induction row generalizing i with
  | nil => exact .same _
  | cons first _ ih =>
      cases i with
      | zero => exact first
      | succ i => exact ih i

namespace Node

theorem relaxes_binary (symbol : Char)
    (apply : Numeric α → Numeric α → Except (ExprError α) (Option (Numeric α)))
    (left right left' right' : Except (ExprError α) (Option (Node α))) (first : Relaxes left left')
    (second : Relaxes right right') :
    Relaxes (binary symbol apply left right) (binary symbol apply left' right') :=
  relaxes_bind _ _ _ _ first fun _ => relaxes_bind _ _ _ _ second fun _ => .same _

variable [Scalar α]

theorem assemble_relaxes (ctx : Context α) (node : Node α) (scope : Scope)
    (rs ss : List (Except (ExprError α) (Option (Node α)))) (row : List.Forall₂ Relaxes rs ss) :
    Relaxes (assemble ctx node scope rs) (assemble ctx node scope ss) := by
  have place (i : Nat) : Relaxes (rs.getD i (.ok none)) (ss.getD i (.ok none)) := relaxes_place rs ss row i _
  cases node with
  | raw css => exact .same _
  | numeric n => exact .same _
  | url address => exact .same _
  | index => exact .same _
  | concat ns => exact relaxes_map _ _ _ (relaxes_collect rs ss row)
  | call name args axes => exact relaxes_map _ _ _ (relaxes_collect rs ss row)
  | var name fallback =>
      by_cases atLimit : maxDepth ≤ scope.depth
      · simp only [assemble, if_pos atLimit]
        exact .same _
      · simp only [assemble, if_neg atLimit]
        exact place 0
  | calculation inner => exact place 0
  | num inner => exact relaxes_bind _ _ _ _ (place 0) fun _ => .same _
  | sum left op right => exact relaxes_binary _ _ _ _ _ _ (place 0) (place 1)
  | product left op right => exact relaxes_binary _ _ _ _ _ _ (place 0) (place 1)

theorem answer_relaxes (ctx : Context α) (node other : Node α) (scope elsewhere : Scope)
    (assembles : assemble ctx other elsewhere = assemble ctx node scope)
    (row : List.Forall₂ (fun need need' => Relaxes (answer ctx need) (answer ctx need'))
      (needs ctx node scope) (needs ctx other elsewhere)) :
    Relaxes (answer ctx (node, scope)) (answer ctx (other, elsewhere)) := by
  rw [answer_assembled, answer_assembled, assembles]
  apply assemble_relaxes
  rwa [List.forall₂_map_left_iff, List.forall₂_map_right_iff]

theorem deeper_step (ctx : Context α) (node : Node α) (scope : Scope) :
    (∃ name, answer ctx (node, scope.deeper) = .error (.maxDepthExceeded name)) ∨
      needs ctx node scope.deeper = (needs ctx node scope).map (fun need => (need.1, need.2.deeper)) ∧
        assemble ctx node scope = assemble ctx node scope.deeper := by
  cases node with
  | var name fallback =>
      by_cases atLimit : maxDepth ≤ scope.deeper.depth
      · exact .inl ⟨name, answer_too_deep ctx name fallback scope.deeper atLimit⟩
      · right
        have room : ¬ maxDepth ≤ scope.depth := by
          simp only [Scope.deeper] at atLimit
          omega
        refine ⟨?_, ?_⟩
        · simp only [needs, if_neg atLimit, if_neg room, List.map_map]
          rfl
        · funext row
          simp only [assemble, if_neg atLimit, if_neg room]
  | call name args axes =>
      refine .inr ⟨?_, rfl⟩
      rw [needs, needs, List.mapIdx_eq_iff]
      intro i
      rw [List.getElem?_map, List.getElem?_mapIdx, Option.map_map]
      congr 1
      funext n
      cases (axes.getD [])[i]? <;> rfl
  | concat ns => exact .inr ⟨by simp only [needs, List.map_map]; rfl, rfl⟩
  | raw css => exact .inr ⟨rfl, rfl⟩
  | numeric n => exact .inr ⟨rfl, rfl⟩
  | url address => exact .inr ⟨rfl, rfl⟩
  | calculation inner => exact .inr ⟨rfl, rfl⟩
  | sum left op right => exact .inr ⟨rfl, rfl⟩
  | product left op right => exact .inr ⟨rfl, rfl⟩
  | num inner => exact .inr ⟨rfl, rfl⟩
  | index => exact .inr ⟨rfl, rfl⟩

theorem deeper_relaxes (ctx : Context α) (node : Node α) (scope : Scope) :
    Relaxes (answer ctx (node, scope.deeper)) (answer ctx (node, scope)) := by
  induction node, scope using needs_induction ctx with
  | step node scope ih =>
      rcases deeper_step ctx node scope with ⟨name, met⟩ | ⟨row, assembles⟩
      · rw [met]
        exact .limited name _
      · apply answer_relaxes ctx node node scope.deeper scope assembles
        rw [row, List.forall₂_map_left_iff, List.forall₂_same]
        exact fun need needed => ih need.1 need.2 needed

theorem shallower_relaxes (ctx : Context α) (node : Node α) (scope : Scope) (depth : Nat)
    (shallower : depth ≤ scope.depth) :
    Relaxes (answer ctx (node, scope)) (answer ctx (node, { scope with depth })) := by
  obtain ⟨axes, limit⟩ := scope
  change depth ≤ limit at shallower
  induction shallower with
  | refl => exact .same _
  | step _ ih => exact relaxes_trans _ _ _ (deeper_relaxes ctx node ⟨axes, _⟩) ih

end Node

end StyleCalc
