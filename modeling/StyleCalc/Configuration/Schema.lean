import StyleCalc.Configuration.Validation
import StyleCalc.Document

set_option autoImplicit false

namespace StyleCalc

variable {α : Type} [Scalar α]

open Document (field)

def Size.ofDocument? (lenient : Bool) (d : Document α) : Option (Size α) := do
  let fs ← d.fields? lenient ["width", "height"]
  return ⟨← field fs "width" Document.number? (Scalar.ofNat 0),
    ← field fs "height" Document.number? (Scalar.ofNat 0)⟩

def FontSettings.ofDocument? (lenient : Bool) (d : Document α) : Option (FontSettings α) := do
  let fs ← d.fields? lenient ["size", "root"]
  return ⟨← field fs "size" Document.number? Environment.defaultFontSize,
    ← field fs "root" Document.number? Environment.defaultFontSize⟩

-- The first item of a list is the base, which may be left out of a record only.
def UrlSettings.ofDocument? (lenient : Bool) (d : Document α) : Option UrlSettings := do
  let fs ← d.fields? lenient ["base", "allow_insecure"]
  match d with
  | .list [] => none
  | _ =>
      return ⟨← field fs "base" Document.optionalText? none,
        ← field fs "allow_insecure" Document.bool? false⟩

def Configuration.variablesOfDocument? : Document α → Option (List (String × String))
  | .record fs =>
      fs.foldlM (fun entries (name, d) => do
        return setVariable entries (← name) (← d.text?)) []
  | _ => none

def Configuration.ofDocument? (lenient : Bool) (d : Document α) : Option (Configuration α) := do
  let fs ← d.fields? lenient ["viewport", "element", "fonts", "urls", "index", "vars"]
  let usual : Configuration α := start
  return {
    viewport := ← field fs "viewport" (Size.ofDocument? lenient) usual.viewport
    element := ← field fs "element" (Size.ofDocument? lenient) usual.element
    fonts := ← field fs "fonts" (FontSettings.ofDocument? lenient) usual.fonts
    urls := ← field fs "urls" (UrlSettings.ofDocument? lenient) usual.urls
    index := ← field fs "index" Document.natural? usual.index
    «variables» := ← field fs "vars" variablesOfDocument? usual.variables }

end StyleCalc
