import StyleCalc.Resolve
import StyleCalc.Url.Policy
import StyleCalc.Variable
import Std.Data.TreeMap

set_option autoImplicit false

namespace StyleCalc

abbrev Variables (α : Type) :=
  Std.TreeMap String (Node α)

structure Environment (α : Type) [UrlReader] where
  viewport : Size α
  element : Size α
  fontSize : α
  rootFontSize : α
  index : Nat
  «variables» : Variables α
  urls : UrlPolicy

namespace Environment

variable {α : Type} [UrlReader]

def defaultFontSize [Scalar α] : α :=
  Scalar.ofNat 16

def start [Scalar α] : Environment α where
  viewport := ⟨Scalar.ofNat 0, Scalar.ofNat 0⟩
  element := ⟨Scalar.ofNat 0, Scalar.ofNat 0⟩
  fontSize := defaultFontSize
  rootFontSize := defaultFontSize
  index := 0
  «variables» := ∅
  urls := ⟨none, false⟩

def withViewport (env : Environment α) (viewport : Size α) : Environment α :=
  { env with viewport }

def withElement (env : Environment α) (element : Size α) : Environment α :=
  { env with element }

def withFontSize (env : Environment α) (fontSize : α) : Environment α :=
  { env with fontSize }

def withRootFontSize (env : Environment α) (rootFontSize : α) : Environment α :=
  { env with rootFontSize }

def withIndex (env : Environment α) (index : Nat) : Environment α :=
  { env with index }

def withUrlPolicy (env : Environment α) (urls : UrlPolicy) : Environment α :=
  { env with urls }

def withBaseUrl (env : Environment α) (base : String) : Except (ExprError α) (Environment α) :=
  match UrlReader.parse base with
  | .ok url => .ok { env with urls := { env.urls with base := some url } }
  | .error e => .error (.urlRejected base (UrlReader.message e))

def define (env : Environment α) (name : String) (value : Node α) : Environment α :=
  { env with «variables» := env.variables.insert (variableName name) value }

def undefine (env : Environment α) (name : String) : Environment α :=
  { env with «variables» := env.variables.erase (variableName name) }

def get? (env : Environment α) (name : String) : Option (Node α) :=
  env.variables[variableName name]?

def remove (env : Environment α) (name : String) : Option (Node α) × Environment α :=
  (env.get? name, env.undefine name)

def defines (env : Environment α) (name : String) : Bool :=
  env.variables.contains (variableName name)

@[simp, grind =]
theorem lookup_start [Scalar α] (key : String) : (start : Environment α).variables[key]? = none := by
  simp [start]

@[simp, grind =]
theorem lookup_define (env : Environment α) (name : String) (value : Node α) (key : String) :
    (env.define name value).variables[key]? =
      if variableName name = key then some value else env.variables[key]? := by
  simp only [define, Std.TreeMap.getElem?_insert, Std.compare_eq_iff_eq]

@[simp, grind =]
theorem lookup_undefine (env : Environment α) (name key : String) :
    (env.undefine name).variables[key]? = if variableName name = key then none else env.variables[key]? := by
  simp only [undefine, Std.TreeMap.getElem?_erase, Std.compare_eq_iff_eq]

def resolveUrl (env : Environment α) (address : String) : Except (ExprError α) String :=
  match env.urls.resolve address with
  | .ok url => .ok url
  | .error refusal => .error (.urlRejected address refusal.message)

def context (env : Environment α) : Context α where
  resolveUrl := env.resolveUrl
  lookup := env.get?
  fontSize := env.fontSize
  rootFontSize := env.rootFontSize
  viewport := env.viewport
  element := env.element
  index := env.index

@[simp]
theorem context_lookup (env : Environment α) (name : String) :
    env.context.lookup name = env.variables[variableName name]? := rfl

end Environment

end StyleCalc
