import StyleCalc.Configuration.Reading
import StyleCalc.Json.Reader
import StyleCalc.Toml.Reader
import StyleCalc.Url.Standard

set_option autoImplicit false

namespace StyleCalc

variable {α : Type} [Scalar α]

instance : DocumentReader α where
  toml? := Toml.read
  json? := Json.read

end StyleCalc
