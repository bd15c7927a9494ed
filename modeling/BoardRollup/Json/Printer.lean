import BoardRollup.Json.Basic
import BoardRollup.Number.Layout

/-!
# JSON text

A value is written in one of two styles: on one line without spaces, or one
entry to a line, two columns further in per level. Both write strings and numbers
alike: a string escapes the quote, the backslash and the control characters below
the space, and a number that is not whole keeps a point or an exponent.
-/

namespace BoardRollup

namespace Json

/-- Numbers are written out from `10 ^ -5` up to `10 ^ 16`, and a whole one shows that
it is a float. -/
def numberLayout : Layout where
  least := -5
  greatest := 15
  wholeMark := ".0"
  signedZero := true
  tie := .even

/-- The digit characters of a whole number, after a minus if it is below zero. -/
def writeInt (n : Int) : List Char := Layout.minus (n < 0) ++ Decimal.digitChars n.natAbs

def writeNumber : JsonNumber → List Char
  | .whole n => writeInt n.val
  | .float x => numberLayout.write x

def hexChar (n : Nat) : Char :=
  if n < 10 then .ofNat ('0'.toNat + n) else .ofNat ('a'.toNat + (n - 10))

/-- A character as it stands between the quotes of a string. -/
def escape (c : Char) : List Char :=
  match c with
  | '"' => ['\\', '"']
  | '\\' => ['\\', '\\']
  | '\x08' => ['\\', 'b']
  | '\t' => ['\\', 't']
  | '\n' => ['\\', 'n']
  | '\x0c' => ['\\', 'f']
  | '\r' => ['\\', 'r']
  | c =>
    if c.toNat < 0x20 then
      ['\\', 'u', '0', '0', hexChar (c.toNat / 16), hexChar (c.toNat % 16)]
    else [c]

def writeString (s : String) : List Char := '"' :: s.toList.flatMap escape ++ ['"']

/-- Where blanks go in the text of a value. -/
structure Style where
  /-- The blanks before an entry or a closing bracket at a depth. -/
  lineBreak : Nat → List Char
  /-- What stands between a key and its value. -/
  colon : List Char

namespace Style

/-- Everything on one line, without spaces. -/
def compact : Style := ⟨fun _ => [], [':']⟩

/-- Each entry on a line of its own, two columns further in per level. -/
def pretty : Style := ⟨fun depth => '\n' :: List.replicate (2 * depth) ' ', [':', ' ']⟩

end Style

mutual

/-- The text of a value that stands at a depth. -/
def write (style : Style) (depth : Nat) : Json → List Char
  | .null => "null".toList
  | .bool true => "true".toList
  | .bool false => "false".toList
  | .num n => writeNumber n
  | .str s => writeString s
  | .arr [] => ['[', ']']
  | .arr (v :: rest) =>
    '[' :: style.lineBreak (depth + 1) ++ write style (depth + 1) v
      ++ writeItems style (depth + 1) rest ++ style.lineBreak depth ++ [']']
  | .obj [] => ['\x7b', '\x7d']
  | .obj ((k, v) :: rest) =>
    '\x7b' :: style.lineBreak (depth + 1) ++ writeString k ++ style.colon
      ++ write style (depth + 1) v
      ++ writeFields style (depth + 1) rest ++ style.lineBreak depth ++ ['\x7d']

/-- Further items of an array, each after a comma. -/
def writeItems (style : Style) (depth : Nat) : List Json → List Char
  | [] => []
  | v :: rest =>
    ',' :: style.lineBreak depth ++ write style depth v ++ writeItems style depth rest

/-- Further fields of an object, each after a comma. -/
def writeFields (style : Style) (depth : Nat) : List (String × Json) → List Char
  | [] => []
  | (k, v) :: rest =>
    ',' :: style.lineBreak depth ++ writeString k ++ style.colon ++ write style depth v
      ++ writeFields style depth rest

end

def compact (v : Json) : String := .ofList (v.write .compact 0)

def pretty (v : Json) : String := .ofList (v.write .pretty 0)

end Json

end BoardRollup
