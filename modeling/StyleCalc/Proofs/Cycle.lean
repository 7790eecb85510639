import StyleCalc.Proofs.Propagation

set_option autoImplicit false

namespace StyleCalc.Node

variable {α : Type}

-- What has to be resolved for the expression to have a value. The fallback of a variable that is bound
-- is left aside.
inductive Evaluated (ctx : Context α) : Node α → Node α → Prop where
  | root (node : Node α) : Evaluated ctx node node
  | part (node part inner : Node α) (composed : ∀ name fallback, node ≠ .var name fallback)
      (member : part ∈ node.parts) (rest : Evaluated ctx part inner) : Evaluated ctx node inner
  | fallback (name : String) (value inner : Node α) (free : ctx.lookup name = none)
      (rest : Evaluated ctx value inner) : Evaluated ctx (.var name (some value)) inner

-- A host may know a variable by more than one name: it answers them alike.
def Refers (ctx : Context α) (node : Node α) (name : String) : Prop :=
  ∃ spelling fallback, ctx.lookup spelling = ctx.lookup name ∧ Evaluated ctx node (.var spelling fallback)

def Cycle (ctx : Context α) (names : List String) : Prop :=
  ∀ i name, names[i]? = some name → ∃ value next,
    ctx.lookup name = some value ∧ names[(i + 1) % names.length]? = some next ∧ Refers ctx value next

theorem part_needed (ctx : Context α) (node part : Node α) (scope : Scope)
    (composed : ∀ name fallback, node ≠ .var name fallback) (member : part ∈ node.parts) :
    ∃ within, (part, within) ∈ needs ctx node scope := by
  cases node with
  | var name fallback => exact absurd rfl (composed name fallback)
  | concat ns => exact ⟨scope, List.mem_map_of_mem (f := fun n => (n, scope)) member⟩
  | call name args axes =>
      obtain ⟨i, bound, rfl⟩ := List.mem_iff_getElem.mp (show part ∈ args from member)
      exact ⟨_, List.mem_mapIdx.mpr ⟨i, bound, rfl⟩⟩
  | calculation inner =>
      obtain rfl : part = inner := by simpa [parts] using member
      exact ⟨scope, List.mem_cons_self⟩
  | num inner =>
      obtain rfl : part = inner := by simpa [parts] using member
      exact ⟨scope, List.mem_cons_self⟩
  | sum left op right =>
      have either : part = left ∨ part = right := by simpa [parts] using member
      exact ⟨scope, by rcases either with rfl | rfl <;> simp [needs]⟩
  | product left op right =>
      have either : part = left ∨ part = right := by simpa [parts] using member
      exact ⟨scope, by rcases either with rfl | rfl <;> simp [needs]⟩
  | raw css => simp [parts] at member
  | url address => simp [parts] at member
  | numeric n => simp [parts] at member
  | index => simp [parts] at member

variable [Scalar α]

theorem reference_value (ctx : Context α) (name : String) (fallback : Option (Node α)) (value out : Node α)
    (scope : Scope) (stands : valueOf ctx name fallback = some value)
    (given : answer ctx (var name fallback, scope) = .ok (some out)) :
    (value, scope.deeper) ∈ needs ctx (var name fallback) scope ∧
      answer ctx (value, scope.deeper) = .ok (some out) := by
  by_cases atLimit : maxDepth ≤ scope.depth
  · rw [answer_too_deep ctx name fallback scope atLimit] at given
    cases given
  · have room := Nat.lt_of_not_le atLimit
    rw [answer_lookup ctx name fallback value scope room stands] at given
    exact ⟨(needs_var_iff ctx name fallback scope _).mpr ⟨room, value, stands, rfl⟩, given⟩

-- A value of the expression would give one to whatever has to be resolved for it, and so to the next
-- variable of the circle one level further in. The induction ends at the limit, where none has a value.
theorem cycle_valueless (ctx : Context α) (names : List String) (cycle : Cycle ctx names) (node : Node α)
    (scope : Scope) (name : String) (member : name ∈ names) (refers : Refers ctx node name) (out : Node α) :
    answer ctx (node, scope) ≠ .ok (some out) := by
  induction node, scope using needs_induction ctx generalizing name out with
  | step node scope ih =>
      intro given
      obtain ⟨spelling, fallback, alike, evaluated⟩ := refers
      cases evaluated with
      | root =>
          obtain ⟨i, place⟩ := List.mem_iff_getElem?.mp member
          obtain ⟨value, next, bound, follows, refers⟩ := cycle i name place
          have stands : valueOf ctx spelling fallback = some value := by rw [valueOf, alike, bound]
          obtain ⟨need, resolved⟩ := reference_value ctx spelling fallback value out scope stands given
          exact ih value scope.deeper need next (List.mem_of_getElem? follows) refers out resolved
      | part _ part _ composed among rest =>
          obtain ⟨within, need⟩ := part_needed ctx node part scope composed among
          obtain ⟨found, resolved⟩ := value_needs ctx node out scope given _ need
          exact ih part within need name member ⟨spelling, fallback, alike, rest⟩ found resolved
      | fallback unbound value _ free rest =>
          have stands : valueOf ctx unbound (some value) = some value := by rw [valueOf, free]
          obtain ⟨need, resolved⟩ := reference_value ctx unbound (some value) value out scope stands given
          exact ih value scope.deeper need name member ⟨spelling, fallback, alike, rest⟩ out resolved

theorem cyclic_definitions_have_no_value (ctx : Context α) (names : List String) (cycle : Cycle ctx names)
    (name : String) (member : name ∈ names) (node : Node α) (refers : Refers ctx node name) :
    node.resolve ctx = .ok none ∨ ∃ e, node.resolve ctx = .error e := by
  cases given : node.resolve ctx with
  | error e => exact .inr ⟨e, rfl⟩
  | ok value =>
      cases value with
      | none => exact .inl rfl
      | some out => exact absurd given (cycle_valueless ctx names cycle node Scope.start name member refers out)

def circlePage : Context Float :=
  Context.page fun name =>
    if name = "--a" then some (.concat [.raw "none", .call "f" [.var "--b" (some .index)] (some [.w])])
    else if name = "--b" then some (.num (.var "--free" (some (.var "--c" none))))
    else if name = "--c" then some (.sum .index .add (.calculation (.var "--a" none)))
    else none

theorem circle_page_cycle : Cycle circlePage ["--a", "--b", "--c"] := by
  intro i name place
  rcases i with _ | _ | _ | i
  · cases place
    refine ⟨_, "--b", rfl, rfl, "--b", some index, rfl, ?_⟩
    have argument : Evaluated circlePage (call "f" [var "--b" (some index)] (some [.w]))
        (var "--b" (some index)) := .part _ _ _ (by simp) List.mem_cons_self (.root _)
    exact .part _ _ _ (by simp) (by simp [parts]) argument
  · cases place
    refine ⟨_, "--c", rfl, rfl, "--c", none, rfl, ?_⟩
    exact .part _ _ _ (by simp) List.mem_cons_self (.fallback "--free" _ _ rfl (.root _))
  · cases place
    refine ⟨_, "--a", rfl, rfl, "--a", none, rfl, ?_⟩
    have operand : Evaluated circlePage (calculation (var "--a" none)) (var "--a" none) :=
      .part _ _ _ (by simp) List.mem_cons_self (.root _)
    exact .part _ _ _ (by simp) (by simp [parts]) operand
  · simp at place

theorem circle_has_no_value :
    (product (var "--b" (some index)) .mul index).resolve circlePage = .ok none ∨
      ∃ e, (product (var "--b" (some index)) .mul index).resolve circlePage = .error e := by
  have refers : Refers circlePage (product (var "--b" (some index)) .mul index) "--b" :=
    ⟨"--b", some index, rfl, .part _ _ _ (by simp) List.mem_cons_self (.root _)⟩
  exact cyclic_definitions_have_no_value circlePage ["--a", "--b", "--c"] circle_page_cycle "--b" (by decide) _
    refers

end StyleCalc.Node
