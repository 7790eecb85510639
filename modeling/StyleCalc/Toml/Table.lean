import StyleCalc.Document

set_option autoImplicit false

namespace StyleCalc.Toml

-- How a table came to be: by its own header, in passing by the header of another one, or by a
-- dotted key.
inductive Origin where
  | header
  | passing
  | dotted
deriving DecidableEq

inductive Item (α : Type) where
  | value (d : Document α)
  | table (origin : Origin) (entries : List (String × Item α))
  | tables (before : List (Document α)) (last : List (String × Item α))

abbrev Entries (α : Type) :=
  List (String × Item α)

variable {α : Type}

namespace Entries

def get? (entries : Entries α) (key : String) : Option (Item α) :=
  (entries.find? (·.1 = key)).map (·.2)

def put (entries : Entries α) (key : String) (item : Item α) : Entries α :=
  if (entries.any (·.1 = key)) then
    entries.map fun e => if e.1 = key then (key, item) else e
  else entries ++ [(key, item)]

end Entries

mutual
def Item.document : Item α → Document α
  | .value d => d
  | .table _ entries => .record (fieldsOf entries)
  | .tables before last => .list (before ++ [.record (fieldsOf last)])

def fieldsOf : List (String × Item α) → List (Option String × Document α)
  | [] => []
  | (key, item) :: entries => (some key, item.document) :: fieldsOf entries
end

namespace Entries

def add (entries : Entries α) (takesValues : Bool) (key : String) (d : Document α) :
    List String → Option (Entries α)
  | [] => if takesValues && (entries.get? key).isNone then some (entries.put key (.value d)) else none
  | k :: path =>
      match entries.get? k with
      | none => do
          let inner ← add ([] : Entries α) true key d path
          return entries.put k (.table .dotted inner)
      | some (.table .header _) => none
      | some (.table origin inner) => do
          let inner ← add inner (origin = .dotted) key d path
          return entries.put k (.table origin inner)
      | some (.tables before last) => do
          let last ← add last false key d path
          return entries.put k (.tables before last)
      | some (.value _) => none

def change (entries : Entries α) (f : Entries α → Option (Entries α)) : List String → Option (Entries α)
  | [] => f entries
  | k :: path =>
      match entries.get? k with
      | none => do
          let inner ← change ([] : Entries α) f path
          return entries.put k (.table .passing inner)
      | some (.table origin inner) => do
          let inner ← change inner f path
          return entries.put k (.table origin inner)
      | some (.tables before last) => do
          let last ← change last f path
          return entries.put k (.tables before last)
      | some (.value _) => none

def openTable (key : String) (entries : Entries α) : Option (Entries α) :=
  match entries.get? key with
  | none => some (entries.put key (.table .header []))
  | some (.table .passing inner) => some (entries.put key (.table .header inner))
  | _ => none

def openNext (key : String) (entries : Entries α) : Option (Entries α) :=
  match entries.get? key with
  | none => some (entries.put key (.tables [] []))
  | some (.tables before last) =>
      some (entries.put key (.tables (before ++ [.record (fieldsOf last)]) []))
  | _ => none

end Entries

end StyleCalc.Toml
