import StyleCalc.Configuration.Schema

set_option autoImplicit false

namespace StyleCalc

/-- The two languages that configurations are written in. -/
class DocumentReader (α : Type) where
  toml? : String → Option (Document α)
  json? : String → Option (Document α)

namespace Configuration

variable {α : Type} [Scalar α] [DocumentReader α] [UrlReader]

def ofJson (s : String) : Except ConfigurationError (Configuration α) :=
  match (DocumentReader.json? s : Option (Document α)).bind (ofDocument? false) with
  | some c => c.validated
  | none => .error .malformedJson

def ofToml (s : String) : Except ConfigurationError (Configuration α) :=
  match (DocumentReader.toml? s : Option (Document α)).bind (ofDocument? true) with
  | some c => c.validated
  | none => .error .malformedToml

-- What follows the last dot of a file name. A dot in front of everything else marks no extension.
def extension? (name : List Char) : Option (List Char) :=
  let back := name.reverse.takeWhile (· ≠ '.')
  if back.length + 1 < name.length then some back.reverse else none

def isJsonName (name : String) : Bool :=
  (extension? name.toList).map (·.map Char.toLower) = some "json".toList

def ofFile (name : String) (contents : Option ByteArray) :
    Except ConfigurationError (Configuration α) :=
  match contents.bind String.fromUTF8? with
  | none => .error .unreadable
  | some s => if isJsonName name then ofJson s else ofToml s

end Configuration

end StyleCalc
