import StyleCalc.Error

set_option autoImplicit false

namespace StyleCalc

structure Scope where
  axes : List Axis
  depth : Nat
deriving DecidableEq, Repr

namespace Scope

def start : Scope :=
  ⟨[], 0⟩

def axis (scope : Scope) : Option Axis :=
  scope.axes.head?

end Scope

/-- A computation that may fail and that leaves a scope behind whether it fails or not. -/
def Resolving (α β : Type) : Type :=
  Scope → Except (ExprError α) β × Scope

namespace Resolving

variable {α β : Type}

instance : Monad (Resolving α) where
  pure b := fun scope => (.ok b, scope)
  bind m f := fun scope =>
    match m scope with
    | (.ok b, after) => f b after
    | (.error e, after) => (.error e, after)

def ofExcept (r : Except (ExprError α) β) : Resolving α β :=
  fun scope => (r, scope)

def scope : Resolving α Scope :=
  fun scope => (.ok scope, scope)

theorem bind_ok {γ : Type} {m : Resolving α β} {f : β → Resolving α γ} {s t : Scope} {b : β}
    (run : m s = (.ok b, t)) : (m >>= f) s = f b t := by
  show (match m s with | (.ok b, after) => f b after | (.error e, after) => (.error e, after)) = _
  rw [run]

theorem bind_error {γ : Type} {m : Resolving α β} {f : β → Resolving α γ} {s t : Scope}
    {e : ExprError α} (run : m s = (.error e, t)) : (m >>= f) s = (.error e, t) := by
  show (match m s with | (.ok b, after) => f b after | (.error e, after) => (.error e, after)) = _
  rw [run]

def withAxis (axis : Option Axis) (run : Resolving α β) : Resolving α β :=
  match axis with
  | none => run
  | some a => fun scope =>
      let (result, after) := run { scope with axes := a :: scope.axes }
      (result, { after with axes := after.axes.tail })

def deeper (run : Resolving α β) : Resolving α β :=
  fun scope =>
    let (result, after) := run { scope with depth := scope.depth + 1 }
    (result, { after with depth := after.depth - 1 })

@[simp]
theorem withAxis_some (a : Axis) (run : Resolving α β) (s : Scope) :
    withAxis (some a) run s =
      ((run { s with axes := a :: s.axes }).1,
        { (run { s with axes := a :: s.axes }).2 with
          axes := (run { s with axes := a :: s.axes }).2.axes.tail }) := rfl

@[simp]
theorem deeper_apply (run : Resolving α β) (s : Scope) :
    deeper run s =
      ((run { s with depth := s.depth + 1 }).1,
        { (run { s with depth := s.depth + 1 }).2 with
          depth := (run { s with depth := s.depth + 1 }).2.depth - 1 }) := rfl

end Resolving

end StyleCalc
