import BoardRollup.Number.Shortest

/-!
# How a number is laid out

Two formats write numbers, and they differ in a handful of decisions: up to which
size all digits are written out, whether a whole number shows a decimal point, whether
zero shows its sign, and which of two equally near decimals is taken. Both write
the shortest digits that read back, and both give an exponent its sign.
-/

namespace BoardRollup

/-- The decisions of a number format. -/
structure Layout where
  /-- The least decimal exponent of a leading digit that is written out. -/
  least : Int
  /-- The greatest decimal exponent of a leading digit that is written out. -/
  greatest : Int
  /-- What follows a whole number that is written out. -/
  wholeMark : String
  /-- Whether a negative zero shows its sign. -/
  signedZero : Bool
  tie : Tie

namespace Layout

def minus (negative : Bool) : List Char := if negative then ['-'] else []

/-- Digits without the trailing zeros, and how many those were. -/
def significant (digits : List Char) : List Char × Nat :=
  let kept := (digits.reverse.dropWhile (· == '0')).reverse
  (kept, digits.length - kept.length)

/-- All places of `digits * 10 ^ exponent`, with a point where there is a fraction. -/
def positional (layout : Layout) (digits : List Char) (exponent : Int) : List Char :=
  if 0 ≤ exponent then
    digits ++ List.replicate exponent.toNat '0' ++ layout.wholeMark.toList
  else
    let places := (-exponent).toNat
    if places < digits.length then
      let whole := digits.length - places
      digits.take whole ++ '.' :: digits.drop whole
    else
      ['0', '.'] ++ List.replicate (places - digits.length) '0' ++ digits

/-- One digit, a fraction if more follow, and the exponent of the leading digit. -/
def scientific (digits : List Char) (leading : Int) : List Char :=
  let fraction := match digits with
    | [] => []
    | [d] => [d]
    | d :: ds => d :: '.' :: ds
  let sign := if leading < 0 then '-' else '+'
  fraction ++ 'e' :: sign :: Decimal.digitChars leading.natAbs

/-- Writes a decimal that is not zero. -/
def writeDecimal (layout : Layout) (d : Decimal) : List Char :=
  let (digits, dropped) := significant (Decimal.digitChars d.digits)
  let exponent := d.exponent + dropped
  let leading := exponent + digits.length - 1
  if layout.least ≤ leading ∧ leading ≤ layout.greatest then
    layout.positional digits exponent
  else
    scientific digits leading

def write (layout : Layout) (x : FiniteDouble) : List Char :=
  if x.isZero then
    minus (layout.signedZero && x.negative) ++ '0' :: layout.wholeMark.toList
  else
    minus x.negative ++ layout.writeDecimal (.shortest layout.tie x)

end Layout

end BoardRollup
