import BoardRollup.Number.Double

/-!
# Decimals

A decimal is a whole number of digits and a power of ten. This module reads the
digit characters of a decimal and gives the exact decimal of a finite number:
a quantum is `5 ^ 1074` of the thousand-and-seventy-fourth decimal place, so every
finite number has one.
-/

namespace BoardRollup

/-- The magnitude `digits * 10 ^ exponent`. -/
structure Decimal where
  digits : Nat
  exponent : Int
  deriving DecidableEq, Repr

namespace Decimal

def valueOf (cs : List Char) : Nat :=
  cs.foldl (fun n c => 10 * n + (c.toNat - '0'.toNat)) 0

def digitChars (n : Nat) : List Char := Nat.toDigits 10 n

/-- The decimal that is written `whole.fraction` times a power of ten. -/
def ofParts (whole fraction : List Char) (exponent : Int) : Decimal where
  digits := valueOf (whole ++ fraction)
  exponent := exponent - fraction.length

def toDouble (d : Decimal) (negative : Bool) : Double :=
  .ofDecimal negative d.digits d.exponent

/-- The exact decimal of a magnitude. -/
def ofRank (rank : Nat) : Decimal where
  digits := Binary64.quanta rank * Nat.pow 5 1074
  exponent := -1074

end Decimal

def spanDigits (cs : List Char) : List Char × List Char :=
  (cs.takeWhile Char.isDigit, cs.dropWhile Char.isDigit)

/-- Reads what follows an exponent mark: an optional sign and at least one digit. -/
def readExponent (cs : List Char) : Option (Int × List Char) :=
  let (negative, cs) := match cs with
    | '-' :: rest => (true, rest)
    | '+' :: rest => (false, rest)
    | _ => (false, cs)
  let (digits, rest) := spanDigits cs
  if digits = [] then none
  else
    let size : Int := Decimal.valueOf digits
    some (if negative then -size else size, rest)

end BoardRollup
