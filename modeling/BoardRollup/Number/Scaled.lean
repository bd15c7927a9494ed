import BoardRollup.Number.Decimal

/-!
# Numbers read through a word

The quick way to read a decimal. Its digits are collected in a 64-bit word, the word is
rounded to a binary64 number, and this number is multiplied or divided by a power of ten that
is rounded too. Each of these steps rounds once, so the result is near the decimal but not always
the number nearest to it.

Digits that a word has no room for are dropped: before the point each of them still counts as a
place, behind the point the rest is ignored. A power past the greatest one of the table is
reached in steps on the way down and refused on the way up.
-/

namespace BoardRollup

namespace Decimal

/-- Appends digit characters to a word up to the first one that it has no room for. Gives the
word with the characters that are left. -/
def pushDigits (word : Nat) : List Char → Nat × List Char
  | [] => (word, [])
  | c :: cs =>
    let next := 10 * word + (c.toNat - '0'.toNat)
    if next < unsignedLimit then pushDigits next cs else (word, c :: cs)

/-- The decimal `whole.fraction` times a power of ten, as far as a word holds its digits. -/
def ofWord (whole fraction : List Char) (exponent : Int) : Decimal :=
  let (word, left) := pushDigits 0 whole
  let (word, ignored) := pushDigits word fraction
  ⟨word, exponent + left.length - (fraction.length - ignored.length : Nat)⟩

end Decimal

namespace Binary64

def rankOfNat (n : Nat) : Nat := nearestRank (n * quantaPerUnit) 1

def rankOfTenTo (n : Nat) : Nat := rankOfNat (tenTo n)

def mulRank (a b : Nat) : Nat := nearestRank (quanta a * quanta b) quantaPerUnit

def divRank (a b : Nat) : Nat := nearestRank (quanta a * quantaPerUnit) (quanta b)

/-- The exponent of the last power of ten that is finite. -/
def maxPower : Nat := 308

/-- Divides by the greatest power of ten a number of times; zero stays zero. -/
def lowerRank (rank : Nat) : Nat → Nat
  | 0 => rank
  | n + 1 => if rank = 0 then 0 else lowerRank (divRank rank (rankOfTenTo maxPower)) n

/-- The rank scaled by a power of ten, if the power is not too great for it. -/
def scaleRank (rank : Nat) : Int → Option Nat
  | .ofNat n =>
    if n ≤ maxPower then some (mulRank rank (rankOfTenTo n))
    else if rank = 0 then some 0
    else none
  | .negSucc n =>
    some (divRank (lowerRank rank (n / maxPower)) (rankOfTenTo (n % maxPower + 1)))

end Binary64

/-- The number that a word of digits and a power of ten give in two roundings, if it is finite. -/
def FiniteDouble.scaled? (negative : Bool) (d : Decimal) : Option FiniteDouble := do
  let rank ← Binary64.scaleRank (Binary64.rankOfNat d.digits) d.exponent
  if h : rank < Binary64.rankLimit then some ⟨negative, ⟨rank, h⟩⟩ else none

end BoardRollup
