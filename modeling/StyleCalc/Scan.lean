import StyleCalc.Text.Fold
import StyleCalc.Text.Word

set_option autoImplicit false

namespace StyleCalc.Scan

def dynamicFunctions : List String :=
  ["var", "calc", "num", "index", "url"]

def relativeUnits : List String :=
  ["em", "rem", "vw", "vh", "vmin", "vmax", "deg", "grad", "s"]

def startsCall (s : List Char) : Bool :=
  dynamicFunctions.any fun name => Text.dropWord? (name.toList ++ ['(']) s |>.isSome

def hasCall : Option Char → List Char → Bool
  | _, [] => false
  | before, c :: rest =>
      (startsCall (c :: rest) && !before.any Text.isWord) || hasCall (some c) rest

def startsUnit (s : List Char) : Bool :=
  relativeUnits.any fun unit =>
    match Text.dropWord? unit.toList s with
    | some rest => !rest.head?.any Text.isWord
    | none => false

def hasUnit : List Char → Bool
  | [] => false
  | c :: rest => (startsUnit rest && Text.isDigit c) || hasUnit rest

def needsResolution (css : String) (convert : Bool) : Bool :=
  hasCall none css.toList || (convert && hasUnit css.toList)

end StyleCalc.Scan
