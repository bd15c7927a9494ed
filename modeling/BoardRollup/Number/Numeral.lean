import BoardRollup.Number.Layout
import BoardRollup.Text.Blank

/-!
# Numerals in display text

A cell's display text counts as a number when, between its blanks, it is empty
(zero), a radix literal such as `0x1F`, the word `Infinity` with at most one sign,
or a decimal with at most one sign, an optional fraction and an optional exponent.
Sums are written back in a form that `read` accepts.
-/

namespace BoardRollup

namespace Numeral

/-- The radix that a leading `0x`, `0o` or `0b` announces, in either case, with
the characters after it. -/
def radixMark : List Char → Option (Nat × List Char)
  | '0' :: mark :: rest =>
    match mark with
    | 'x' | 'X' => some (16, rest)
    | 'o' | 'O' => some (8, rest)
    | 'b' | 'B' => some (2, rest)
    | _ => none
  | _ => none

def digitValue (c : Char) : Option Nat :=
  if c.isDigit then some (c.toNat - '0'.toNat)
  else if 'a' ≤ c && c ≤ 'f' then some (c.toNat - 'a'.toNat + 10)
  else if 'A' ≤ c && c ≤ 'F' then some (c.toNat - 'A'.toNat + 10)
  else none

def pushDigit (radix : Nat) (n : Nat) (c : Char) : Option Nat := do
  let d ← digitValue c
  if d < radix then some (radix * n + d) else none

/-- Reads the digits of a radix literal: at least one, after an optional plus,
for a number below `2 ^ 64`. -/
def readRadix (radix : Nat) (cs : List Char) : Option Double := do
  let digits := match cs with
    | '+' :: rest => rest
    | _ => cs
  if digits = [] then none
  else
    let n ← digits.foldlM (pushDigit radix) 0
    if n < unsignedLimit then some (.ofNat n) else none

/-- Reads a decimal to its end. There is a digit before or after the point. -/
def readUnsigned (cs : List Char) : Option Decimal := do
  let (whole, rest) := spanDigits cs
  let (fraction, rest) := match rest with
    | '.' :: after => spanDigits after
    | _ => ([], rest)
  if whole = [] ∧ fraction = [] then none
  else match rest with
    | [] => some (.ofParts whole fraction 0)
    | mark :: after =>
      if mark = 'e' ∨ mark = 'E' then
        match readExponent after with
        | some (exponent, []) => some (.ofParts whole fraction exponent)
        | _ => none
      else none

/-- Reads a decimal or `Infinity`, with at most one sign before it. -/
def readSigned (cs : List Char) : Option Double :=
  let (negative, unsigned) := match cs with
    | '-' :: rest => (true, rest)
    | '+' :: rest => (false, rest)
    | _ => (false, cs)
  if unsigned = "Infinity".toList then some (.infinite negative)
  else (readUnsigned unsigned).map (·.toDouble negative)

/-- Reads the characters between the blanks. -/
def readTrimmed (cs : List Char) : Option Double :=
  if cs = [] then some (.zero false)
  else match radixMark cs with
    | some (radix, digits) => readRadix radix digits
    | none => readSigned cs

/-- The number that a display text shows, if it shows one. -/
def read (text : String) : Option Double := readTrimmed (trimBlanks text.toList)

/-- Sums are written out from a millionth up to `10 ^ 21`; of two equally near
decimals the greater is taken, and zero has no sign. -/
def layout : Layout where
  least := -6
  greatest := 20
  wholeMark := ""
  signedZero := false
  tie := .up

def write : Double → String
  | .nan => "NaN"
  | .infinite negative => if negative then "-Infinity" else "Infinity"
  | .finite x => .ofList (layout.write x)

end Numeral

end BoardRollup
