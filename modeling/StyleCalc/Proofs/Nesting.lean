import StyleCalc.Proofs.NormalForm
import StyleCalc.Proofs.Origin

set_option autoImplicit false

namespace StyleCalc

-- A host turns an address down by rejecting it, and in no other way.
def Context.OnlyRejects {α : Type} (ctx : Context α) : Prop :=
  ∀ address e, ctx.resolveUrl address = .error e → ∃ url reason, e = .urlRejected url reason

namespace Node

variable {α : Type}

-- A chain of so many references. The first occurs in the expression, each further one in what the one
-- before it stands for: its value or, where it has none, its fallback. The name is the last one's.
inductive References (ctx : Context α) : Node α → Nat → String → Prop where
  | last (node : Node α) (name : String) (fallback : Option (Node α))
      (occurs : Occurs node (.var name fallback)) : References ctx node 1 name
  | next (node : Node α) (name : String) (fallback : Option (Node α)) (value : Node α) (count : Nat)
      (final : String) (occurs : Occurs node (.var name fallback))
      (given : valueOf ctx name fallback = some value) (rest : References ctx value count final) :
      References ctx node (count + 1) final

inductive Aliases (ctx : Context α) : Node α → List String → Node α → Prop where
  | target (node : Node α) : Aliases ctx node [] node
  | reference (name : String) (fallback : Option (Node α)) (value : Node α) (names : List String)
      (target : Node α) (given : valueOf ctx name fallback = some value)
      (rest : Aliases ctx value names target) : Aliases ctx (.var name fallback) (name :: names) target

theorem references_in_part (ctx : Context α) (root part : Node α) (count : Nat) (final : String)
    (member : part ∈ root.parts) (references : References ctx part count final) :
    References ctx root count final := by
  cases references with
  | last _ _ fallback occurs => exact .last root final fallback (occurs_in_part root part _ member occurs)
  | next _ name fallback value count _ occurs given rest =>
      exact .next root name fallback value count final (occurs_in_part root part _ member occurs) given rest

variable [Scalar α]

theorem limit_met_by_references (ctx : Context α) (node : Node α) (scope : Scope) (name : String)
    (given : answer ctx (node, scope) = .error (.maxDepthExceeded name)) :
    References ctx node (maxDepth - scope.depth + 1) name ∨
      ∃ address, Reaches ctx node (.url address) ∧
        ctx.resolveUrl address = .error (.maxDepthExceeded name) := by
  induction node, scope using needs_induction ctx with
  | step node scope ih =>
      rcases error_origin ctx node scope _ given with ⟨⟨inner, within⟩, needed, failed⟩ | raised
      · have enters := needs_enters ctx node inner scope within needed
        rcases ih inner within needed failed with references | ⟨address, reached, refusal⟩
        · left
          cases enters with
          | part _ _ _ _ member depth =>
              rw [depth] at references
              exact references_in_part ctx node inner _ name member references
          | lookup first fallback _ _ room value =>
              have count : maxDepth - scope.depth = maxDepth - scope.deeper.depth + 1 := by
                simp only [Scope.deeper]
                omega
              rw [count]
              exact .next _ first fallback inner _ name .root value references
        · right
          exact ⟨address, reaches_trans ctx node inner _ (enters_reaches ctx node inner scope within enters) reached,
            refusal⟩
      · cases raised with
        | tooDeep _ fallback _ atLimit =>
            left
            rw [Nat.sub_eq_zero_of_le atLimit]
            exact .last _ name fallback .root
        | refused address _ _ refusal => exact .inr ⟨address, .root, refusal⟩
        | arithmetic _ _ _ arithmetic => cases arithmetic

theorem aliases_within_limit (ctx : Context α) (node target : Node α) (names : List String)
    (aliases : Aliases ctx node names target) (constant : target.isConstant) (scope : Scope)
    (within : names.length ≤ maxDepth - scope.depth) : answer ctx (node, scope) = .ok (some target) := by
  induction aliases generalizing scope with
  | target node => rw [answer, resolve_in_of_constant ctx node scope constant]
  | reference name fallback value names target given rest ih =>
      have room : scope.depth < maxDepth := by
        simp only [List.length_cons] at within
        omega
      rw [answer_lookup ctx name fallback value scope room given]
      apply ih constant scope.deeper
      simp only [List.length_cons, Scope.deeper] at within ⊢
      omega

theorem aliases_beyond_limit (ctx : Context α) (node target : Node α) (names : List String)
    (aliases : Aliases ctx node names target) (scope : Scope) (beyond : maxDepth - scope.depth < names.length) :
    answer ctx (node, scope) = .error (.maxDepthExceeded names[maxDepth - scope.depth]) := by
  induction aliases generalizing scope with
  | target node => simp at beyond
  | reference name fallback value names target given rest ih =>
      by_cases atLimit : maxDepth ≤ scope.depth
      · simp only [Nat.sub_eq_zero_of_le atLimit, List.getElem_cons_zero]
        exact answer_too_deep ctx name fallback scope atLimit
      · have room := Nat.lt_of_not_le atLimit
        have levels : maxDepth - scope.depth = maxDepth - scope.deeper.depth + 1 := by
          simp only [Scope.deeper]
          omega
        have shorter : maxDepth - scope.deeper.depth < names.length := by
          simp only [List.length_cons] at beyond
          omega
        rw [answer_lookup ctx name fallback value scope room given]
        simp only [levels, List.getElem_cons_succ]
        exact ih scope.deeper shorter

-- A refusal of the host is passed on as it is. Only a host that does not reject can pretend that the
-- limit was met.
theorem depth_limit_is_exact (ctx : Context α) (scope : Scope) :
    (∀ node name, (node.resolveIn ctx scope).1 = .error (.maxDepthExceeded name) →
      References ctx node (maxDepth - scope.depth + 1) name ∨
        ∃ address, Reaches ctx node (.url address) ∧
          ctx.resolveUrl address = .error (.maxDepthExceeded name)) ∧
    (ctx.OnlyRejects → ∀ node name, (node.resolveIn ctx scope).1 = .error (.maxDepthExceeded name) →
      References ctx node (maxDepth - scope.depth + 1) name) ∧
    ∀ node names target, Aliases ctx node names target → target.isConstant →
      (names.length ≤ maxDepth - scope.depth → (node.resolveIn ctx scope).1 = .ok (some target)) ∧
      ∀ _ : maxDepth - scope.depth < names.length,
        (node.resolveIn ctx scope).1 = .error (.maxDepthExceeded names[maxDepth - scope.depth]) := by
  refine ⟨fun node => limit_met_by_references ctx node scope, ?_, ?_⟩
  · intro rejects node name given
    rcases limit_met_by_references ctx node scope name given with references | ⟨address, _, refusal⟩
    · exact references
    · obtain ⟨url, reason, same⟩ := rejects address _ refusal
      cases same
  · intro node names target aliases constant
    exact ⟨aliases_within_limit ctx node target names aliases constant scope,
      aliases_beyond_limit ctx node target names aliases scope⟩

def stairs : Context Float :=
  Context.page fun name =>
    if name = "--loop" then some (var "--loop" none)
    else if name = "--a" then some (var "--b" (some (var "--c" none)))
    else if name = "--c" then some (raw "none")
    else none

def pretendingStairs : Context Float :=
  { stairs with resolveUrl := fun address => .error (.maxDepthExceeded address) }

theorem stairs_limit :
    (References pretendingStairs (url "a.png") 4 "a.png" ∨
      ∃ address, Reaches pretendingStairs (url "a.png") (.url address) ∧
        pretendingStairs.resolveUrl address = .error (.maxDepthExceeded "a.png")) ∧
    References stairs (concat [var "--a" none, var "--loop" none]) 4 "--loop" ∧
    ((var "--a" none).resolveIn stairs ⟨[.w], 97⟩).1 = .ok (some (raw "none")) ∧
    ((var "--a" none).resolveIn stairs ⟨[.w], 98⟩).1 = .error (.maxDepthExceeded "--c") := by
  have rejects : stairs.OnlyRejects := by
    intro address e refusal
    cases refusal
  have aliases : Aliases stairs (var "--a" none) ["--a", "--b", "--c"] (raw "none") :=
    .reference "--a" none _ _ _ rfl (.reference "--b" _ _ _ _ rfl (.reference "--c" none _ _ _ rfl (.target _)))
  exact ⟨(depth_limit_is_exact pretendingStairs ⟨[.w], 97⟩).1 _ "a.png" rfl,
    (depth_limit_is_exact stairs ⟨[.w], 97⟩).2.1 rejects _ "--loop" rfl,
    ((depth_limit_is_exact stairs ⟨[.w], 97⟩).2.2 _ _ _ aliases rfl).1 (by decide),
    ((depth_limit_is_exact stairs ⟨[.w], 98⟩).2.2 _ _ _ aliases rfl).2 (by decide)⟩

end Node

end StyleCalc
