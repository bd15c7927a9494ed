import BoardRollup.Json.Basic
import BoardRollup.Number.Scaled

/-!
# Reading JSON

A reader takes characters and gives a value with the characters after it, or
refuses. Blanks are space, tab, carriage return and line feed. A document holds one
value, nests at most 127 arrays and objects, has no raw control character in a
string and no half of a surrogate pair, and writes no number past the greatest
finite one. A float is read the quick way, through a word, and may miss the number
nearest to what is written. A key that is repeated keeps its first place and its last value.

The depth that is left bounds the recursion, and the length of the text bounds the
entries of one array or object.
-/

namespace BoardRollup

/-- Reads a value off the front of a text. -/
abbrev Reader (α : Type) := List Char → Option (α × List Char)

namespace Json

def isSpace (c : Char) : Bool := c = ' ' || c = '\t' || c = '\n' || c = '\r'

def skipSpace (cs : List Char) : List Char := cs.dropWhile isSpace

def hexValue (c : Char) : Option Nat :=
  if c.isDigit then some (c.toNat - '0'.toNat)
  else if 'a' ≤ c && c ≤ 'f' then some (c.toNat - 'a'.toNat + 10)
  else if 'A' ≤ c && c ≤ 'F' then some (c.toNat - 'A'.toNat + 10)
  else none

def codeUnit (a b c d : Char) : Option Nat := do
  some ((((← hexValue a) * 16 + (← hexValue b)) * 16 + (← hexValue c)) * 16 + (← hexValue d))

def isHighSurrogate (unit : Nat) : Bool := 0xD800 ≤ unit && unit < 0xDC00

def isLowSurrogate (unit : Nat) : Bool := 0xDC00 ≤ unit && unit < 0xE000

def pairedChar (high low : Nat) : Char :=
  .ofNat (0x10000 + (high - 0xD800) * 0x400 + (low - 0xDC00))

def unescape : Char → Option Char
  | '"' => some '"'
  | '\\' => some '\\'
  | '/' => some '/'
  | 'b' => some '\x08'
  | 'f' => some '\x0c'
  | 'n' => some '\n'
  | 'r' => some '\r'
  | 't' => some '\t'
  | _ => none

def push (c : Char) (read : Option (List Char × List Char)) : Option (List Char × List Char) :=
  read.map fun (cs, rest) => (c :: cs, rest)

/-- Reads the characters of a string up to and with its closing quote. -/
def readChars : Reader (List Char)
  | [] => none
  | '"' :: rest => some ([], rest)
  | '\\' :: 'u' :: a :: b :: c :: d :: rest =>
    match codeUnit a b c d with
    | none => none
    | some unit =>
      if isLowSurrogate unit then none
      else if isHighSurrogate unit then
        match rest with
        | '\\' :: 'u' :: e :: f :: g :: h :: rest =>
          match codeUnit e f g h with
          | none => none
          | some low =>
            if isLowSurrogate low then push (pairedChar unit low) (readChars rest) else none
        | _ => none
      else push (.ofNat unit) (readChars rest)
  | '\\' :: e :: rest =>
    match unescape e with
    | some c => push c (readChars rest)
    | none => none
  | c :: rest => if c.toNat < 0x20 then none else push c (readChars rest)

def readString : Reader String := fun cs =>
  (readChars cs).map fun (chars, rest) => (.ofList chars, rest)

def ofFloat (negative : Bool) (d : Decimal) : Option JsonNumber :=
  (FiniteDouble.scaled? negative d).map .float

/-- A whole number, kept as one if a 64-bit word holds it. A negative zero is a
float, and so is a wider number. -/
def ofInteger (negative : Bool) (digits : List Char) : Option JsonNumber :=
  let n := Decimal.valueOf digits
  if h : negative = false ∧ n < unsignedLimit then
    some (.whole (.ofNat n h.2))
  else if h : negative = true ∧ 0 < n ∧ n ≤ signedLimit then
    some (.whole ⟨-n, by omega, by simp only [unsignedLimit]; omega⟩)
  else ofFloat negative (.ofWord digits [] 0)

/-- Reads a fraction, if there is one: a point and at least one digit. -/
def readFraction : Reader (Option (List Char))
  | '.' :: rest =>
    let (digits, rest) := spanDigits rest
    if digits = [] then none else some (some digits, rest)
  | rest => some (none, rest)

def readScale : Reader (Option Int)
  | 'e' :: rest | 'E' :: rest => (readExponent rest).map fun (n, rest) => (some n, rest)
  | rest => some (none, rest)

/-- Reads a number after its sign: no leading zero, then a fraction and an exponent
if they are there. -/
def readUnsigned (negative : Bool) : Reader JsonNumber := fun cs =>
  let (whole, rest) := spanDigits cs
  if whole = [] ∨ (whole.head? = some '0' ∧ 1 < whole.length) then none
  else do
    let (fraction, rest) ← readFraction rest
    let (scale, rest) ← readScale rest
    let number ← match fraction, scale with
      | none, none => ofInteger negative whole
      | _, _ => ofFloat negative (.ofWord whole (fraction.getD []) (scale.getD 0))
    some (number, rest)

def readNumber : Reader JsonNumber
  | '-' :: rest => readUnsigned true rest
  | cs => readUnsigned false cs

/-- Reads a value that is neither an array nor an object. -/
def readScalar : Reader Json
  | 'n' :: 'u' :: 'l' :: 'l' :: rest => some (.null, rest)
  | 't' :: 'r' :: 'u' :: 'e' :: rest => some (.bool true, rest)
  | 'f' :: 'a' :: 'l' :: 's' :: 'e' :: rest => some (.bool false, rest)
  | '"' :: rest => (readString rest).map fun (s, rest) => (.str s, rest)
  | cs => (readNumber cs).map fun (n, rest) => (.num n, rest)

/-- Reads entries up to the closing bracket: at least one, with commas between them. -/
def readEntries {α : Type} (entry : Reader α) (close : Char) : Nat → Reader (List α)
  | 0, _ => none
  | fuel + 1, cs => do
    let (first, rest) ← entry cs
    match skipSpace rest with
    | ',' :: rest =>
      let (others, rest) ← readEntries entry close fuel rest
      some (first :: others, rest)
    | c :: rest => if c = close then some ([first], rest) else none
    | [] => none

/-- Reads what follows an opening bracket, up to and with the closing one. -/
def readBracket {α : Type} (entry : Reader α) (close : Char) : Reader (List α) := fun cs =>
  match skipSpace cs with
  | [] => none
  | c :: rest =>
    if c = close then some ([], rest) else readEntries entry close (rest.length + 1) (c :: rest)

def readField (value : Reader Json) : Reader (String × Json) := fun cs =>
  match skipSpace cs with
  | '"' :: rest => do
    let (key, rest) ← readString rest
    match skipSpace rest with
    | ':' :: rest =>
      let (v, rest) ← value rest
      some ((key, v), rest)
    | _ => none
  | _ => none

/-- Reads a value that nests at most so deep, after any blanks. -/
def readValue : Nat → Reader Json
  | 0, cs => readScalar (skipSpace cs)
  | depth + 1, cs =>
    match skipSpace cs with
    | '[' :: rest =>
      (readBracket (readValue depth) ']' rest).map fun (items, rest) => (.arr items, rest)
    | '\x7b' :: rest =>
      (readBracket (readField (readValue depth)) '\x7d' rest).map fun (fields, rest) =>
        (.obj (Fields.ofList fields), rest)
    | cs => readScalar cs

/-- How many arrays and objects a document may nest. -/
def maxDepth : Nat := 127

def read? (text : String) : Option Json :=
  match readValue maxDepth text.toList with
  | some (v, rest) => if skipSpace rest = [] then some v else none
  | none => none

end Json

end BoardRollup
