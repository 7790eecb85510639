import StyleCalc.Proofs.Room

set_option autoImplicit false

namespace StyleCalc

theorem related_mapIdx {β γ δ ε : Type} (related : β → γ → Prop) (images : δ → ε → Prop)
    (bs : List β) (cs : List γ) (row : List.Forall₂ related bs cs) (f : Nat → β → δ) (g : Nat → γ → ε)
    (each : ∀ i b c, related b c → images (f i b) (g i c)) :
    List.Forall₂ images (bs.mapIdx f) (cs.mapIdx g) := by
  induction row generalizing f g with
  | nil => exact .nil
  | cons first _ ih =>
      rw [List.mapIdx_cons, List.mapIdx_cons]
      exact .cons (each 0 _ _ first) (ih _ _ fun i => each (i + 1))

theorem related_modify {β : Type} (related : β → β → Prop) (refl : ∀ b, related b b) (bs : List β)
    (i : Nat) (f : β → β) (changed : ∀ b, bs[i]? = some b → related b (f b)) :
    List.Forall₂ related bs (bs.modify i f) := by
  induction bs generalizing i with
  | nil => cases i <;> exact .nil
  | cons b rest ih =>
      cases i with
      | zero =>
          rw [List.modify_zero_cons]
          exact .cons (changed b rfl) (List.forall₂_same.mpr fun b _ => refl b)
      | succ i =>
          rw [List.modify_succ_cons]
          exact .cons (refl b) (ih i fun b found => changed b (by simpa using found))

namespace Node

variable {α : Type}

def partAt? : Node α → List Nat → Option (Node α)
  | node, [] => some node
  | node, i :: path => node.parts[i]?.bind fun part => part.partAt? path

def withParts : Node α → List (Node α) → Node α
  | .concat _, ps => .concat ps
  | .call name _ axes, ps => .call name ps axes
  | .var name _, ps => .var name ps.head?
  | .calculation inner, ps => .calculation (ps.getD 0 inner)
  | .sum left op right, ps => .sum (ps.getD 0 left) op (ps.getD 1 right)
  | .product left op right, ps => .product (ps.getD 0 left) op (ps.getD 1 right)
  | .num inner, ps => .num (ps.getD 0 inner)
  | node, _ => node

def replaceAt : Node α → List Nat → Node α → Node α
  | _, [], new => new
  | node, i :: path, new => node.withParts (node.parts.modify i fun part => part.replaceAt path new)

-- A variable that is bound needs its value and not its fallback: the same value on both sides, whatever
-- became of the fallback.
theorem needs_var_withParts (ctx : Context α) (related : Node α → Node α → Prop)
    (refl : ∀ n, related n n) (name : String) (fallback : Option (Node α)) (ps : List (Node α))
    (scope : Scope) (each : List.Forall₂ related fallback.toList ps) :
    List.Forall₂ (fun need need' => related need.1 need'.1 ∧ need.2 = need'.2)
      (needs ctx (var name fallback) scope) (needs ctx (var name ps.head?) scope) := by
  by_cases atLimit : maxDepth ≤ scope.depth
  · simp only [needs, if_pos atLimit]
    exact .nil
  · simp only [needs, if_neg atLimit, valueOf]
    cases ctx.lookup name with
    | some value => exact .cons ⟨refl value, rfl⟩ .nil
    | none =>
        cases fallback with
        | none =>
            cases each
            exact .nil
        | some value =>
            obtain _ | ⟨first, _ | _⟩ := each
            exact .cons ⟨first, rfl⟩ .nil

theorem needs_withParts (ctx : Context α) (related : Node α → Node α → Prop) (refl : ∀ n, related n n)
    (node : Node α) (ps : List (Node α)) (scope : Scope) (each : List.Forall₂ related node.parts ps) :
    List.Forall₂ (fun need need' => related need.1 need'.1 ∧ need.2 = need'.2)
      (needs ctx node scope) (needs ctx (node.withParts ps) scope) := by
  cases node with
  | concat ns =>
      rw [withParts, needs, needs, List.forall₂_map_left_iff, List.forall₂_map_right_iff]
      exact each.imp fun _ _ same => ⟨same, rfl⟩
  | call name args axes =>
      exact related_mapIdx related _ args ps each _ _ fun _ _ _ same => ⟨same, rfl⟩
  | var name fallback => exact needs_var_withParts ctx related refl name fallback ps scope each
  | calculation inner =>
      obtain _ | ⟨first, _ | _⟩ := each
      exact .cons ⟨first, rfl⟩ .nil
  | num inner =>
      obtain _ | ⟨first, _ | _⟩ := each
      exact .cons ⟨first, rfl⟩ .nil
  | sum left op right =>
      obtain _ | ⟨first, _ | ⟨second, _ | _⟩⟩ := each
      exact .cons ⟨first, rfl⟩ (.cons ⟨second, rfl⟩ .nil)
  | product left op right =>
      obtain _ | ⟨first, _ | ⟨second, _ | _⟩⟩ := each
      exact .cons ⟨first, rfl⟩ (.cons ⟨second, rfl⟩ .nil)
  | raw css => exact .nil
  | url address => exact .nil
  | numeric n => exact .nil
  | index => exact .nil

variable [Scalar α]

def Refines (ctx : Context α) (node other : Node α) : Prop :=
  ∀ scope, Relaxes (answer ctx (node, scope)) (answer ctx (other, scope))

theorem assemble_withParts (ctx : Context α) (node : Node α) (ps : List (Node α)) (scope : Scope) :
    assemble ctx (node.withParts ps) scope = assemble ctx node scope := by
  cases node <;> rfl

theorem refines_withParts (ctx : Context α) (node : Node α) (ps : List (Node α))
    (each : List.Forall₂ (Refines ctx) node.parts ps) : Refines ctx node (node.withParts ps) := by
  intro scope
  apply answer_relaxes ctx node (node.withParts ps) scope scope (assemble_withParts ctx node ps scope)
  have row := needs_withParts ctx (Refines ctx) (fun _ _ => .same _) node ps scope each
  apply row.imp
  rintro ⟨inner, within⟩ ⟨inner', _⟩ ⟨refines, rfl⟩
  exact refines within

theorem refines_replaceAt (ctx : Context α) (path : List Nat) (node inner new : Node α)
    (found : node.partAt? path = some inner) (refines : Refines ctx inner new) :
    Refines ctx node (node.replaceAt path new) := by
  induction path generalizing node with
  | nil =>
      cases found
      exact refines
  | cons i path ih =>
      obtain ⟨part, place, found⟩ := Option.bind_eq_some_iff.mp found
      apply refines_withParts
      apply related_modify (Refines ctx) (fun _ _ => .same _)
      intro other here
      obtain rfl : part = other := Option.some.inj (place.symm.trans here)
      exact ih part found

-- What a variable stands for sees the scope of the reference, one level further in.
theorem reference_refines (ctx : Context α) (name : String) (fallback : Option (Node α)) (value : Node α)
    (bound : ctx.lookup name = some value) : Refines ctx (.var name fallback) value := by
  intro scope
  by_cases atLimit : maxDepth ≤ scope.depth
  · rw [answer_too_deep ctx name fallback scope atLimit]
    exact .limited name _
  · have given : valueOf ctx name fallback = some value := by rw [valueOf, bound]
    rw [answer_lookup ctx name fallback value scope (Nat.lt_of_not_le atLimit) given]
    exact deeper_relaxes ctx value scope

theorem variables_mean_their_values (ctx : Context α) (node : Node α) (scope : Scope)
    (settled : ∀ name, (node.resolveIn ctx scope).1 ≠ .error (.maxDepthExceeded name)) :
    (∀ path name fallback value, node.partAt? path = some (.var name fallback) →
      ctx.lookup name = some value →
        (node.replaceAt path value).resolveIn ctx scope = node.resolveIn ctx scope) ∧
    ∀ depth ≤ scope.depth, (node.resolveIn ctx { scope with depth }).1 = (node.resolveIn ctx scope).1 := by
  refine ⟨?_, ?_⟩
  · intro path name fallback value found bound
    have refines := refines_replaceAt ctx path node _ value found
      (reference_refines ctx name fallback value bound)
    exact resolve_in_same ctx ctx node _ scope (relaxes_settled _ _ (refines scope) settled)
  · intro depth shallower
    exact relaxes_settled _ _ (shallower_relaxes ctx node scope depth shallower) settled

def stepSize : Node Float :=
  .calculation (.var "--step" (some (.numeric ⟨.length, 1, "em"⟩)))

def sizePage : Context Float :=
  Context.page fun name => if name = "--size" then some stepSize else none

def shiftBySize : Node Float :=
  .concat [.raw "none", .call "translate" [.index, .var "--size" none] (some [.w, .h])]

theorem shift_by_size_means_step :
    (concat [raw "none", call "translate" [index, stepSize] (some [.w, .h])]).resolveIn sizePage ⟨[.z], 98⟩ =
      shiftBySize.resolveIn sizePage ⟨[.z], 98⟩ ∧
    (shiftBySize.resolveIn sizePage ⟨[.z], 3⟩).1 = (shiftBySize.resolveIn sizePage ⟨[.z], 98⟩).1 := by
  have resolved : (shiftBySize.resolveIn sizePage ⟨[.z], 98⟩).1 =
      .ok (some (concat [raw "none", call "translate"
        [numeric (Numeric.count (Scalar.ofNat 3)), numeric ⟨.length, 1, "em"⟩] (some [.w, .h])])) := rfl
  have settled : ∀ name, (shiftBySize.resolveIn sizePage ⟨[.z], 98⟩).1 ≠ .error (.maxDepthExceeded name) := by
    intro name given
    cases resolved.symm.trans given
  obtain ⟨replaced, shallower⟩ := variables_mean_their_values sizePage shiftBySize ⟨[.z], 98⟩ settled
  exact ⟨replaced [1, 1] "--size" none stepSize rfl rfl, shallower 3 (by decide)⟩

end Node

end StyleCalc
