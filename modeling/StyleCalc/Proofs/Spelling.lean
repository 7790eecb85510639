import StyleCalc.Proofs.Origin
import StyleCalc.Proofs.Relevance

set_option autoImplicit false

namespace StyleCalc

variable {α : Type}

namespace Node

mutual
def respell (spell : String → String) : Node α → Node α
  | .concat ns => .concat (respellAll spell ns)
  | .call name args axes => .call name (respellAll spell args) axes
  | .var name none => .var (spell name) none
  | .var name (some d) => .var (spell name) (some (d.respell spell))
  | .calculation inner => .calculation (inner.respell spell)
  | .sum left op right => .sum (left.respell spell) op (right.respell spell)
  | .product left op right => .product (left.respell spell) op (right.respell spell)
  | .num inner => .num (inner.respell spell)
  | .raw css => .raw css
  | .url address => .url address
  | .numeric n => .numeric n
  | .index => .index

def respellAll (spell : String → String) : List (Node α) → List (Node α)
  | [] => []
  | n :: ns => n.respell spell :: respellAll spell ns
end

theorem respell_all_map (spell : String → String) (ns : List (Node α)) :
    respellAll spell ns = ns.map (respell spell) := by
  induction ns with
  | nil => rfl
  | cons n ns ih => rw [respellAll, ih, List.map_cons]

@[simp]
theorem respell_var (spell : String → String) (name : String) (fallback : Option (Node α)) :
    (var name fallback).respell spell = .var (spell name) (fallback.map (respell spell)) := by
  cases fallback <;> rw [respell] <;> rfl

end Node

def ExprError.respell (spell : String → String) : ExprError α → ExprError α
  | .maxDepthExceeded name => .maxDepthExceeded (spell name)
  | e => e

def respelled {β : Type} (spell : String → String) (r : Except (ExprError α) β) : Except (ExprError α) β :=
  r.mapError (ExprError.respell spell)

section

variable {β γ : Type} (spell : String → String)

theorem respelled_arithmetic (r : Except (ExprError α) β) (arithmetic : OnlyArithmetic r) :
    respelled spell r = r := by
  cases r with
  | ok b => rfl
  | error e =>
      have kind := arithmetic e rfl
      cases e with
      | maxDepthExceeded name => cases kind
      | _ => rfl

@[simp]
theorem respelled_bind (r : Except (ExprError α) β) (next : β → Except (ExprError α) γ) :
    respelled spell (r >>= next) = respelled spell r >>= fun b => respelled spell (next b) := by
  cases r <;> rfl

@[simp]
theorem respelled_map (r : Except (ExprError α) β) (f : β → γ) :
    respelled spell (r.map f) = (respelled spell r).map f := by
  cases r <;> rfl

theorem respelled_same (r s : Except (ExprError α) β) (same : respelled spell r = respelled spell s) :
    s = r ∨ ∃ name name', r = .error (.maxDepthExceeded name) ∧ s = .error (.maxDepthExceeded name') ∧
      spell name' = spell name := by
  cases r with
  | ok b =>
      left
      cases s with
      | ok c => exact same.symm
      | error e => cases same
  | error e =>
      cases s with
      | ok c => cases same
      | error f =>
          have kept : e.respell spell = f.respell spell := Except.error.inj same
          cases e with
          | maxDepthExceeded name =>
              right
              cases f with
              | maxDepthExceeded name' =>
                  exact ⟨name, name', rfl, rfl, (ExprError.maxDepthExceeded.inj kept).symm⟩
              | _ => cases kept
          | _ =>
              left
              cases f with
              | maxDepthExceeded name' => cases kept
              | _ => exact congrArg Except.error kept.symm

theorem respelled_collect (rs : List (Except (ExprError α) (Option β))) :
    respelled spell (collect rs) = collect (rs.map (respelled spell)) := by
  induction rs with
  | nil => rfl
  | cons r rest ih =>
      match r with
      | .error e => rfl
      | .ok none => rfl
      | .ok (some b) =>
          rw [collect, respelled_map, ih]
          rfl

theorem respelled_place (rs : List (Except (ExprError α) (Option β))) (i : Nat) :
    respelled spell (rs.getD i (.ok none)) = (rs.map (respelled spell)).getD i (.ok none) := by
  rw [List.getD_eq_getElem?_getD, List.getD_eq_getElem?_getD, List.getElem?_map]
  cases rs[i]? <;> rfl

theorem respelled_binary (symbol : Char)
    (apply : Numeric α → Numeric α → Except (ExprError α) (Option (Numeric α)))
    (applies : ∀ m n, OnlyArithmetic (apply m n)) (left right : Except (ExprError α) (Option (Node α))) :
    respelled spell (Node.binary symbol apply left right) =
      Node.binary symbol apply (respelled spell left) (respelled spell right) := by
  have combined (a b : Option (Node α)) :=
    respelled_arithmetic spell _ (Node.combine_arithmetic symbol apply applies a b)
  simp [Node.binary, combined]

end

namespace Node

section

variable (spell : String → String)

def respelledLookup (lookup : String → Option (Node α)) (name : String) : Option (Node α) :=
  (lookup name).map (respell spell)

theorem value_of_respelled (ctx : Context α) (blind : ∀ name, ctx.lookup (spell name) = ctx.lookup name)
    (name : String) (fallback : Option (Node α)) :
    valueOf { ctx with lookup := respelledLookup spell ctx.lookup } (spell name) (fallback.map (respell spell)) =
      (valueOf ctx name fallback).map (respell spell) := by
  simp only [valueOf, respelledLookup, blind]
  cases ctx.lookup name <;> rfl

theorem needs_respelled (ctx : Context α) (blind : ∀ name, ctx.lookup (spell name) = ctx.lookup name)
    (node : Node α) (scope : Scope) :
    needs { ctx with lookup := respelledLookup spell ctx.lookup } (node.respell spell) scope =
      (needs ctx node scope).map fun need => (need.1.respell spell, need.2) := by
  cases node with
  | concat ns =>
      rw [respell, respell_all_map, needs, needs, List.map_map, List.map_map]
      rfl
  | call name args axes =>
      rw [respell, respell_all_map, needs, needs, List.mapIdx_eq_iff]
      intro i
      rw [List.getElem?_map, List.getElem?_mapIdx, List.getElem?_map]
      cases args[i]? <;> rfl
  | var name fallback =>
      rw [respell_var]
      simp only [needs, value_of_respelled spell ctx blind]
      by_cases atLimit : maxDepth ≤ scope.depth
      · rw [if_pos atLimit, if_pos atLimit]
        rfl
      · rw [if_neg atLimit, if_neg atLimit]
        cases valueOf ctx name fallback <;> rfl
  | calculation inner => rw [respell, needs, needs]; rfl
  | num inner => rw [respell, needs, needs]; rfl
  | sum left op right => rw [respell, needs, needs]; rfl
  | product left op right => rw [respell, needs, needs]; rfl
  | raw css => rw [respell]; rfl
  | url address => rw [respell]; rfl
  | numeric n => rw [respell]; rfl
  | index => rw [respell]; rfl

variable [Scalar α]

theorem assemble_respelled (ctx : Context α)
    (urls : ∀ address, respelled spell (ctx.resolveUrl address) = ctx.resolveUrl address) (node : Node α)
    (scope : Scope) (row : List (Except (ExprError α) (Option (Node α)))) :
    assemble ctx (node.respell spell) scope (row.map (respelled spell)) =
      respelled spell (assemble ctx node scope row) := by
  cases node with
  | raw css => rw [respell]; rfl
  | numeric n => rw [respell]; rfl
  | index => rw [respell]; rfl
  | concat ns => rw [respell, assemble, assemble, respelled_map, respelled_collect]
  | call name args axes => rw [respell, assemble, assemble, respelled_map, respelled_collect]
  | url address =>
      rw [respell, assemble, assemble]
      by_cases final : isFinalAddress address
      · rw [if_pos final]
        rfl
      · rw [if_neg final, respelled_map, urls]
  | var name fallback =>
      rw [respell_var, assemble, assemble]
      by_cases atLimit : maxDepth ≤ scope.depth
      · rw [if_pos atLimit, if_pos atLimit]
        rfl
      · rw [if_neg atLimit, if_neg atLimit, respelled_place]
  | calculation inner => rw [respell, assemble, assemble, respelled_place]
  | num inner =>
      rw [respell, assemble, assemble, respelled_bind, respelled_place]
      congr 1
      funext value
      exact (respelled_arithmetic spell _ (plain_arithmetic ctx value)).symm
  | sum left op right =>
      rw [respell, assemble, assemble, respelled_binary spell _ _ (Numeric.sum_arithmetic ctx scope.axis op),
        respelled_place, respelled_place]
  | product left op right =>
      rw [respell, assemble, assemble, respelled_binary spell _ _ (Numeric.product_arithmetic op),
        respelled_place, respelled_place]

-- Values hold no names, so that the result is the same but for an error that shows one.
theorem answer_respelled (ctx : Context α) (blind : ∀ name, ctx.lookup (spell name) = ctx.lookup name)
    (urls : ∀ address, respelled spell (ctx.resolveUrl address) = ctx.resolveUrl address) (node : Node α)
    (scope : Scope) :
    answer { ctx with lookup := respelledLookup spell ctx.lookup } (node.respell spell, scope) =
      respelled spell (answer ctx (node, scope)) := by
  induction node, scope using needs_induction ctx with
  | step node scope ih =>
      have row : ((needs ctx node scope).map fun need => (need.1.respell spell, need.2)).map
            (answer { ctx with lookup := respelledLookup spell ctx.lookup }) =
          ((needs ctx node scope).map (answer ctx)).map (respelled spell) := by
        rw [List.map_map, List.map_map]
        exact List.map_congr_left fun need needed => ih need.1 need.2 needed
      rw [answer_assembled, answer_assembled, needs_respelled spell ctx blind, row, assemble_lookup,
        assemble_respelled spell ctx urls]

end

-- Written as they are registered, the names are the same.
def SpelledAlike (a b : Node α) : Prop :=
  a.respell variableName = b.respell variableName

theorem spelled_alike_values (value value' : Option (Node α)) (alike : Option.Rel SpelledAlike value value') :
    value'.map (respell variableName) = value.map (respell variableName) := by
  cases alike with
  | none => rfl
  | some alike => exact congrArg some alike.symm

end Node

section

variable [UrlReader]

theorem spelled_alike_lookup (env : Environment α) (vs : Variables α)
    (values : ∀ name : String, Option.Rel Node.SpelledAlike env.variables[name]? vs[name]?) :
    Node.respelledLookup variableName (fun name => vs[variableName name]?) =
      Node.respelledLookup variableName env.context.lookup := by
  funext name
  exact Node.spelled_alike_values _ _ (values (variableName name))

theorem refusal_respelled (spell : String → String) (env : Environment α) (address : String) :
    respelled spell (env.resolveUrl address) = env.resolveUrl address := by
  rw [Environment.resolveUrl]
  cases env.urls.resolve address <;> rfl

theorem spelling_reaches_no_value [Scalar α] (env : Environment α) (vs : Variables α)
    (values : ∀ name : String, Option.Rel Node.SpelledAlike env.variables[name]? vs[name]?) (node other : Node α)
    (alike : node.SpelledAlike other) :
    other.resolve { env with «variables» := vs }.context = node.resolve env.context ∨
      ∃ name name', node.resolve env.context = .error (.maxDepthExceeded name) ∧
        other.resolve { env with «variables» := vs }.context = .error (.maxDepthExceeded name') ∧
        variableName name' = variableName name := by
  have original := Node.answer_respelled variableName env.context
    (fun name => by simp)
    (refusal_respelled variableName env) node Scope.start
  have rewritten := Node.answer_respelled variableName
    { env.context with lookup := fun name => vs[variableName name]? }
    (fun name => by simp)
    (refusal_respelled variableName env) other Scope.start
  rw [← alike, spelled_alike_lookup env vs values] at rewritten
  rw [context_variables]
  exact respelled_same variableName _ _ (original.symm.trans rewritten)

end

def steppedGap (name : String) : Environment Float :=
  Environment.start.define "--gap" (.var name (some (.numeric ⟨.length, 8, "px"⟩)))

def insetBy (name : String) : Node Float :=
  .call "inset" [.var name none] none

theorem stepped_gap_values (name name' : String) (alike : variableName name = variableName name') (key : String) :
    Option.Rel Node.SpelledAlike (steppedGap name).variables[key]? (steppedGap name').variables[key]? := by
  by_cases same : variableName "--gap" = key
  · simp only [steppedGap, Environment.lookup_define, if_pos same]
    apply Option.Rel.some
    simp [Node.SpelledAlike, alike]
  · simp [steppedGap, same]

theorem inset_by_resolves : (insetBy "gap").resolve (steppedGap " step ").context =
    .ok (some (.call "inset" [.numeric ⟨.length, 8, "px"⟩] none)) := by
  have gap : (steppedGap " step ").context.lookup "gap" =
      some (.var " step " (some (.numeric ⟨.length, 8, "px"⟩))) := by
    have same : variableName "--gap" = variableName "gap" := by decide
    simp [steppedGap, same]
  have step : (steppedGap " step ").context.lookup " step " = none := by
    have other : variableName "--gap" ≠ variableName " step " := by decide
    simp [steppedGap, other]
  have value : (Node.var " step " (some (.numeric ⟨.length, 8, "px"⟩))).outcome (steppedGap " step ").context
      none 1 = .ok (some (.numeric ⟨.length, 8, "px"⟩)) := by
    rw [Node.outcome_var, if_neg (by decide), Node.valueOf, step]
    exact Node.outcome_numeric _ _ _ _
  have argument : (Node.var "gap" none).outcome (steppedGap " step ").context none 0 =
      .ok (some (.numeric ⟨.length, 8, "px"⟩)) := by
    rw [Node.outcome_var, if_neg (by decide), Node.valueOf, gap]
    exact value
  rw [Node.resolve, Node.resolve_in_outcome, insetBy]
  change (Node.call _ _ _).outcome (steppedGap " step ").context none 0 = _
  rw [Node.outcome_call, List.mapIdx_cons, List.mapIdx_nil]
  change (collect [(Node.var "gap" none).outcome (steppedGap " step ").context none 0]).map _ = _
  rw [argument]
  rfl

theorem inset_by_other_spelling :
    (∀ key : String,
      Option.Rel Node.SpelledAlike (steppedGap " step ").variables[key]? (steppedGap "--step").variables[key]?) ∧
    (insetBy "gap").SpelledAlike (insetBy "  --gap ") ∧
    (insetBy "  --gap ").resolve
        { steppedGap " step " with «variables» := (steppedGap "--step").variables }.context =
      .ok (some (.call "inset" [.numeric ⟨.length, 8, "px"⟩] none)) := by
  have values := stepped_gap_values " step " "--step" (by decide)
  have alike : (insetBy "gap").SpelledAlike (insetBy "  --gap ") := by
    have named : variableName "gap" = variableName "  --gap " := by decide
    simp only [Node.SpelledAlike, insetBy, Node.respell, Node.respellAll, named]
  refine ⟨values, alike, ?_⟩
  rcases spelling_reaches_no_value _ _ values _ _ alike with same | ⟨name, _, failed, _⟩
  · rw [same, inset_by_resolves]
  · rw [inset_by_resolves] at failed
    cases failed

end StyleCalc
