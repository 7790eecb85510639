import StyleCalc.Proofs.Descent

set_option autoImplicit false

namespace StyleCalc.Node

variable {α : Type}

def descend? (ctx : Context α) : List Nat → Node α → Scope → Option (Node α × Scope)
  | [], node, scope => some (node, scope)
  | i :: path, node, scope =>
      match (needs ctx node scope)[i]? with
      | none => none
      | some (inner, within) => descend? ctx path inner within

-- What an earlier need must come to for the next one to decide. Both operands of a sum or a product
-- are resolved before either is looked at; everything else stops at the first missing value.
def Passes : Node α → Except (ExprError α) (Option (Node α)) → Prop
  | .sum _ _ _, result => ∀ e, result ≠ .error e
  | .product _ _ _, result => ∀ e, result ≠ .error e
  | _, result => ∃ value, result = .ok (some value)

theorem row_values {β : Type} (rs : List (Except (ExprError α) (Option β))) (build : List β → Node α)
    (out : Node α) (given : (collect rs).map (·.map build) = .ok (some out)) :
    ∀ r ∈ rs, ∃ value, r = .ok (some value) := by
  obtain ⟨found, collected, built⟩ := (except_map_ok_iff _ _ _).mp given
  obtain ⟨values, rfl, _⟩ := Option.map_eq_some_iff.mp built
  rw [(collect_some_iff rs values).mp collected]
  intro r member
  obtain ⟨value, _, rfl⟩ := List.mem_map.mp member
  exact ⟨value, rfl⟩

theorem row_first_error {β : Type} (rs : List (Except (ExprError α) (Option β))) (build : List β → Node α)
    (i : Nat) (e : ExprError α) (here : rs[i]? = some (.error e))
    (before : ∀ r ∈ rs.take i, ∃ value, r = .ok (some value)) :
    (collect rs).map (·.map build) = .error e := by
  rw [collect_first_error rs i e here before]
  rfl

theorem binary_values (symbol : Char)
    (apply : Numeric α → Numeric α → Except (ExprError α) (Option (Numeric α)))
    (left right : Except (ExprError α) (Option (Node α))) (out : Node α)
    (given : binary symbol apply left right = .ok (some out)) :
    ∀ r ∈ [left, right], ∃ value, r = .ok (some value) := by
  obtain ⟨m, n, _, rfl, rfl, _⟩ := binary_some symbol apply left right out given
  exact List.forall_mem_cons.mpr ⟨⟨_, rfl⟩, List.forall_mem_singleton.mpr ⟨_, rfl⟩⟩

theorem binary_first_error (symbol : Char)
    (apply : Numeric α → Numeric α → Except (ExprError α) (Option (Numeric α)))
    (left right : Except (ExprError α) (Option (Node α))) (i : Nat) (e : ExprError α)
    (here : [left, right][i]? = some (.error e))
    (before : ∀ r ∈ [left, right].take i, ∀ e, r ≠ .error e) : binary symbol apply left right = .error e := by
  match i with
  | 0 =>
      obtain rfl : left = .error e := by simpa using here
      rfl
  | 1 =>
      obtain rfl : right = .error e := by simpa using here
      cases left with
      | ok a => rfl
      | error e' => exact absurd rfl (before (.error e') (by simp) e')
  | i + 2 => simp at here

variable [Scalar α]

def Unhindered (ctx : Context α) : List Nat → Node α → Scope → Prop
  | [], _, _ => True
  | i :: path, node, scope =>
      (∀ earlier ∈ (needs ctx node scope).take i, node.Passes (earlier.1.resolveIn ctx earlier.2).1) ∧
        match (needs ctx node scope)[i]? with
        | none => True
        | some (inner, within) => Unhindered ctx path inner within

theorem value_needs (ctx : Context α) (node out : Node α) (scope : Scope)
    (given : answer ctx (node, scope) = .ok (some out)) (need : Node α × Scope)
    (needed : need ∈ needs ctx node scope) : ∃ value, answer ctx need = .ok (some value) := by
  cases node with
  | concat ns =>
      rw [answer_concat] at given
      exact row_values _ _ out given _ (List.mem_map_of_mem needed)
  | call name args axes =>
      rw [answer_call] at given
      exact row_values _ _ out given _ (List.mem_map_of_mem needed)
  | var name fallback =>
      obtain ⟨room, value, bound, rfl⟩ := (needs_var_iff ctx name fallback scope need).mp needed
      exact ⟨out, answer_lookup ctx name fallback value scope room bound ▸ given⟩
  | calculation inner =>
      rw [answer_calculation] at given
      obtain rfl : need = (inner, scope) := by simpa [needs] using needed
      exact ⟨out, given⟩
  | num inner =>
      rw [answer_num, except_bind_ok_iff] at given
      obtain ⟨a, value, given⟩ := given
      obtain ⟨n, _, rfl, _⟩ := plain_some ctx a out given
      obtain rfl : need = (inner, scope) := by simpa [needs] using needed
      exact ⟨_, value⟩
  | sum left op right =>
      rw [answer_sum] at given
      exact binary_values _ _ _ _ out given _ (List.mem_map_of_mem needed)
  | product left op right =>
      rw [answer_product] at given
      exact binary_values _ _ _ _ out given _ (List.mem_map_of_mem needed)
  | raw css => simp [needs] at needed
  | url address => simp [needs] at needed
  | numeric n => simp [needs] at needed
  | index => simp [needs] at needed

theorem error_passes (ctx : Context α) (node : Node α) (scope : Scope) (i : Nat) (need : Node α × Scope)
    (e : ExprError α) (place : (needs ctx node scope)[i]? = some need) (fails : answer ctx need = .error e)
    (passed : ∀ earlier ∈ (needs ctx node scope).take i, node.Passes (answer ctx earlier)) :
    answer ctx (node, scope) = .error e := by
  have here : ((needs ctx node scope).map (answer ctx))[i]? = some (.error e) := by
    rw [List.getElem?_map, place, Option.map_some, fails]
  have before : ∀ r ∈ ((needs ctx node scope).map (answer ctx)).take i, node.Passes r := by
    intro r member
    rw [← List.map_take] at member
    obtain ⟨earlier, among, rfl⟩ := List.mem_map.mp member
    exact passed earlier among
  cases node with
  | concat ns =>
      rw [answer_concat]
      exact row_first_error _ _ i e here before
  | call name args axes =>
      rw [answer_call]
      exact row_first_error _ _ i e here before
  | var name fallback =>
      obtain ⟨room, value, bound, rfl⟩ :=
        (needs_var_iff ctx name fallback scope need).mp (List.mem_of_getElem? place)
      rw [answer_lookup ctx name fallback value scope room bound, fails]
  | calculation inner =>
      obtain rfl : need = (inner, scope) := by simpa [needs] using List.mem_of_getElem? place
      rw [answer_calculation, fails]
  | num inner =>
      obtain rfl : need = (inner, scope) := by simpa [needs] using List.mem_of_getElem? place
      rw [answer_num, fails]
      rfl
  | sum left op right =>
      rw [answer_sum]
      exact binary_first_error _ _ _ _ i e here before
  | product left op right =>
      rw [answer_product]
      exact binary_first_error _ _ _ _ i e here before
  | raw css => simp [needs] at place
  | url address => simp [needs] at place
  | numeric n => simp [needs] at place
  | index => simp [needs] at place

theorem failures_propagate (ctx : Context α) (path : List Nat) (node inner : Node α) (scope within : Scope)
    (leads : descend? ctx path node scope = some (inner, within)) :
    ((∀ value, (inner.resolveIn ctx within).1 ≠ .ok (some value)) →
      ∀ out, (node.resolveIn ctx scope).1 ≠ .ok (some out)) ∧
    ∀ e, (inner.resolveIn ctx within).1 = .error e → Unhindered ctx path node scope →
      (node.resolveIn ctx scope).1 = .error e := by
  induction path generalizing node scope with
  | nil =>
      cases leads
      exact ⟨id, fun _ fails _ => fails⟩
  | cons i path ih =>
      rw [descend?] at leads
      cases place : (needs ctx node scope)[i]? with
      | none => simp [place] at leads
      | some need =>
          rw [place] at leads
          obtain ⟨valueless, erroneous⟩ := ih need.1 need.2 leads
          refine ⟨?_, ?_⟩
          · intro missing out given
            obtain ⟨value, found⟩ := value_needs ctx node out scope given need (List.mem_of_getElem? place)
            exact valueless missing value found
          · intro e fails unhindered
            rw [Unhindered, place] at unhindered
            exact error_passes ctx node scope i need e place (erroneous e fails unhindered.2) unhindered.1

def mismatch : Node Float :=
  .sum (.numeric ⟨.length, 1, "px"⟩) .add (.numeric ⟨.time, 1, "s"⟩)

def mismatchPage : Context Float :=
  Context.page fun name =>
    if name = "--gone" then none else some (.calculation (.sum (.var "--gone" none) .sub mismatch))

theorem mismatch_reaches_root :
    (∀ out, ((concat [raw "none", call "translate" [index, var "--size" none] (some [.w, .h])]).resolveIn
      mismatchPage ⟨[.z], 3⟩).1 ≠ .ok (some out)) ∧
    ((concat [raw "none", call "translate" [index, var "--size" none] (some [.w, .h])]).resolveIn
      mismatchPage ⟨[.z], 3⟩).1 = .error (.incompatibleOperands .length .add .time) := by
  have fails : (mismatch.resolveIn mismatchPage ⟨[.h, .z], 4⟩).1 =
      .error (.incompatibleOperands .length .add .time) := rfl
  have gone : ((var "--gone" none).resolveIn mismatchPage ⟨[.h, .z], 4⟩).1 = .ok none := rfl
  obtain ⟨valueless, erroneous⟩ := failures_propagate mismatchPage [1, 1, 0, 0, 1]
    (concat [raw "none", call "translate" [index, var "--size" none] (some [.w, .h])]) mismatch
    ⟨[.z], 3⟩ ⟨[.h, .z], 4⟩ rfl
  refine ⟨valueless ?_, erroneous _ fails ?_⟩
  · intro value given
    cases fails.symm.trans given
  · refine ⟨?_, ?_, ?_, ?_, ?_, trivial⟩
    · exact List.forall_mem_singleton.mpr ⟨_, rfl⟩
    · exact List.forall_mem_singleton.mpr ⟨_, rfl⟩
    · exact List.forall_mem_nil _
    · exact List.forall_mem_nil _
    · refine List.forall_mem_singleton.mpr fun e given => ?_
      cases gone.symm.trans given

end StyleCalc.Node
