import BoardRollup.Json.Basic
import BoardRollup.Number.Numeral

/-!
# Scalars as ids and texts

Documents give ids and texts as strings or as numbers. An id is a string that is
not empty or a number; a text is any string, number or boolean. A number is spelled
as a sum would be.
-/

namespace BoardRollup

/-- The spelling of a number among ids and texts. -/
def JsonNumber.spelling : JsonNumber → String
  | .whole n => .ofList (Layout.minus (n.val < 0) ++ Decimal.digitChars n.val.natAbs)
  | .float x => Numeral.write (.finite x)

namespace Json

def asId : Json → Option String
  | .str s => if s = "" then none else some s
  | .num n => some n.spelling
  | _ => none

def asText : Json → Option String
  | .str s => some s
  | .num n => some n.spelling
  | .bool b => some (if b then "true" else "false")
  | _ => none

@[simp] theorem asId_null : asId .null = none := rfl

@[simp] theorem asText_null : asText .null = none := rfl

@[simp] theorem asText_str (s : String) : asText (.str s) = some s := rfl

end Json

end BoardRollup
