import StyleCalc.Configuration.Basic

set_option autoImplicit false

namespace StyleCalc

structure Issue where
  field : String
  message : String
deriving DecidableEq, Repr

def Issue.text (i : Issue) : String :=
  "'" ++ i.field ++ "' " ++ i.message

namespace Configuration

def check (field : String) (holds : Bool) (message : String) : List Issue :=
  if holds then [] else [⟨field, message⟩]

variable {α : Type} [Scalar α] [UrlReader]

def isSide (x : α) : Bool :=
  Scalar.isFinite x && Scalar.isNonnegative x

def isFontSize (x : α) : Bool :=
  Scalar.isFinite x && Scalar.lt (Scalar.ofNat 0) x

def sizeIssues (field : String) (size : Size α) : List Issue :=
  check (field ++ ".width") (isSide size.width) "must be a non-negative number"
    ++ check (field ++ ".height") (isSide size.height) "must be a non-negative number"

def fontIssues (fonts : FontSettings α) : List Issue :=
  check "fonts.size" (isFontSize fonts.size) "must be a positive number"
    ++ check "fonts.root" (isFontSize fonts.root) "must be a positive number"

def isAbsoluteUrl (s : String) : Bool :=
  (UrlReader.parse s).isOk

def urlIssues (urls : UrlSettings) : List Issue :=
  match urls.base with
  | some base => check "urls.base" (isAbsoluteUrl base) "must be an absolute URL"
  | none => []

def isNamed (name : String) : Bool :=
  Text.trimChars name.toList ≠ []

def variableIssues (entries : List (String × String)) : List Issue :=
  ((entries.map (·.1)).mergeSort fun a b => decide (a ≤ b)).flatMap fun name =>
    check ("vars." ++ name) (isNamed name) "must have a name"

def issues (c : Configuration α) : List Issue :=
  sizeIssues "viewport" c.viewport ++ sizeIssues "element" c.element ++ fontIssues c.fonts
    ++ urlIssues c.urls ++ variableIssues c.variables

end Configuration

inductive ConfigurationError where
  | unreadable
  | malformedToml
  | malformedJson
  | invalid (issues : List String)
deriving DecidableEq

namespace ConfigurationError

def issuesText (issues : List String) : String :=
  "Config validation failed:\n" ++ "\n".intercalate (issues.map ("  - " ++ ·))

end ConfigurationError

namespace Configuration

variable {α : Type} [Scalar α] [UrlReader]

def validated (c : Configuration α) : Except ConfigurationError (Configuration α) :=
  match c.issues with
  | [] => .ok c
  | issues => .error (.invalid (issues.map Issue.text))

def environment (c : Configuration α) : Except ConfigurationError (Environment α) := do
  let c ← c.validated
  let start : Environment α :=
    { viewport := c.viewport
      element := c.element
      fontSize := c.fonts.size
      rootFontSize := c.fonts.root
      index := c.index
      «variables» := ∅
      urls := ⟨c.urls.base.bind fun base => (UrlReader.parse base).toOption, c.urls.allowInsecure⟩ }
  return c.variables.foldl (fun env (name, text) => env.define name (Node.ofText text)) start

end Configuration

end StyleCalc
