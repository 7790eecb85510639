set_option autoImplicit false

namespace StyleCalc

inductive Kind where
  | count
  | percent
  | length
  | angle
  | time
deriving DecidableEq, Repr

namespace Kind

def name : Kind → String
  | count => "number"
  | percent => "percent"
  | length => "length"
  | angle => "angle"
  | time => "time"

def canonicalUnits : Kind → String
  | count => ""
  | percent => "%"
  | length => "px"
  | angle => "rad"
  | time => "ms"

def units : Kind → List String
  | count => [""]
  | percent => ["%"]
  | length =>
      ["px", "em", "rem", "vw", "vh", "vmin", "vmax", "cm", "mm", "q", "in", "pt", "pc"]
  | angle => ["deg", "rad", "grad", "turn"]
  | time => ["s", "ms"]

def all : List Kind :=
  [count, percent, length, angle, time]

def ofUnits? (u : String) : Option Kind :=
  all.find? fun k => k.units.contains u

theorem units_of_kind (k : Kind) (units : String) (known : ofUnits? units = some k) : units ∈ k.units := by
  have found := List.find?_some known
  simpa using found

end Kind

end StyleCalc
