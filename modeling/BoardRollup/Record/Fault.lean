import BoardRollup.Json.Printer
import BoardRollup.Text.Quoted

/-!
# Faults of a record

Why a value is not the record that was asked for, and the wording of it.
-/

namespace BoardRollup

inductive Shape where
  | text
  | sequence
  | map
  | record (name : String)
  deriving DecidableEq

/-- Why a value is not the record that was asked for. -/
inductive Fault where
  /-- The value is of another kind. -/
  | wrongKind (found : Json) (expected : Shape)
  /-- An object lacks a required field. -/
  | missingField (name : String)
  /-- An array ends before the last required field of a record. -/
  | tooFew (count : Nat) (record : String) (fields : Nat)
  /-- An array goes on after the last field of a record. -/
  | tooMany (count : Nat)
  deriving DecidableEq

def Shape.phrase : Shape → String
  | .text => "a string"
  | .sequence => "a sequence"
  | .map => "a map"
  | .record name => "struct " ++ name

/-- The kind of a value as a message shows it; a number, a boolean or a string
with its content. -/
def Json.kindPhrase : Json → String
  | .null => "null"
  | .bool b => "boolean `" ++ (if b then "true" else "false") ++ "`"
  | .num (.whole n) => "integer `" ++ .ofList (writeInt n.val) ++ "`"
  | .num (.float x) => "floating point `" ++ .ofList (numberLayout.write x) ++ "`"
  | .str s => "string " ++ Quoted.quote s
  | .arr _ => "sequence"
  | .obj _ => "map"

namespace Fault

def countText (n : Nat) : String := .ofList (Decimal.digitChars n)

def message : Fault → String
  | .wrongKind found expected =>
    "invalid type: " ++ found.kindPhrase ++ ", expected " ++ expected.phrase
  | .missingField name => "missing field `" ++ name ++ "`"
  | .tooFew count record fields =>
    "invalid length " ++ countText count ++ ", expected struct " ++ record ++ " with "
      ++ countText fields ++ " elements"
  | .tooMany count =>
    "invalid length " ++ countText count ++ ", expected fewer elements in array"

end Fault

end BoardRollup
