import BoardRollup.Number.Power

/-!
# Binary64 numbers

A finite magnitude is named by its rank, the number of positive magnitudes at
or below it. Ranks grow with the magnitude, the rank of a magnitude is the lower
63 bits of its encoding, and each finite number has exactly one sign and rank, so
equality of numbers is equality of data.

Every magnitude is a whole number of quanta of `2 ^ -1074`. Reading decimals and
adding numbers both form an exact ratio of quanta and round it once, to the
nearest magnitude, a half going to the even rank.
-/

namespace BoardRollup

namespace Binary64

def binade : Nat := 0x10000000000000

/-- Ranks below this one are finite. -/
def rankLimit : Nat := 0x7FF * binade

def quantaPerUnit : Nat := twoTo 1074

def quanta (rank : Nat) : Nat :=
  if rank < binade then rank
  else (binade + rank % binade) * twoTo (rank / binade - 1)

/-- The nearest whole number to a quotient, a half going to the even one. -/
def roundQuotient (num den : Nat) : Nat :=
  let q := num / den
  let twice := 2 * (num % den)
  if twice < den then q
  else if den < twice then q + 1
  else q + q % 2

/-- The rank nearest to `num / den` quanta. The significand is rounded at the
scale that leaves it 53 bits; one that rounds up to `2 ^ 53` lands on the first
rank of the next binade by itself. -/
def nearestRank (num den : Nat) : Nat :=
  let scale := (num / den).log2 - 52
  scale * binade + roundQuotient num (den * twoTo scale)

end Binary64

structure FiniteDouble where
  negative : Bool
  rank : Fin Binary64.rankLimit
  deriving DecidableEq

/-- A binary64 number. The payload of a number that is none is not kept. -/
inductive Double where
  | nan
  | infinite (negative : Bool)
  | finite (x : FiniteDouble)
  deriving DecidableEq

namespace FiniteDouble

def isZero (x : FiniteDouble) : Bool := x.rank.val = 0

def quanta (x : FiniteDouble) : Nat := Binary64.quanta x.rank

def signedQuanta (x : FiniteDouble) : Int :=
  if x.negative then -(x.quanta : Int) else x.quanta

end FiniteDouble

namespace Double

def zero (negative : Bool) : Double := .finite ⟨negative, ⟨0, by decide⟩⟩

/-- The number nearest to `num / den` quanta; a magnitude past the last rank is
infinite. -/
def ofQuanta (negative : Bool) (num den : Nat) : Double :=
  if h : Binary64.nearestRank num den < Binary64.rankLimit then
    .finite ⟨negative, ⟨_, h⟩⟩
  else .infinite negative

def ofNat (n : Nat) : Double := ofQuanta false (n * Binary64.quantaPerUnit) 1

/-- The number nearest to `digits * 10 ^ exponent`. An exponent far outside the
range is settled without writing the power out. -/
def ofDecimal (negative : Bool) (digits : Nat) (exponent : Int) : Double :=
  if digits = 0 then zero negative
  else if 400 < exponent then .infinite negative
  else if exponent + digits.log2 + 400 < 0 then zero negative
  else if 0 ≤ exponent then
    ofQuanta negative (digits * tenTo exponent.toNat * Binary64.quantaPerUnit) 1
  else
    ofQuanta negative (digits * Binary64.quantaPerUnit) (tenTo (-exponent).toNat)

/-- The exact sum, rounded once. Two zeros keep a shared minus sign, and opposite
infinities have no sum. -/
def add : Double → Double → Double
  | .nan, _ | _, .nan => .nan
  | .infinite a, .infinite b => if a = b then .infinite a else .nan
  | .infinite a, .finite _ | .finite _, .infinite a => .infinite a
  | .finite x, .finite y =>
    let sum := x.signedQuanta + y.signedQuanta
    if sum = 0 then zero (x.negative && y.negative)
    else ofQuanta (sum < 0) sum.natAbs 1

instance : Add Double := ⟨add⟩

/-- The number with a given encoding, of which the lower 64 bits count. -/
def ofBits (bits : Nat) : Double :=
  let rank := bits % signedLimit
  let negative := bits / signedLimit % 2 = 1
  if h : rank < Binary64.rankLimit then .finite ⟨negative, ⟨rank, h⟩⟩
  else if rank = Binary64.rankLimit then .infinite negative
  else .nan

/-- The encoding of a number; a number that is none has its quiet bit set and no
other. -/
def toBits : Double → Nat
  | .nan => 0x7FF8000000000000
  | .infinite negative => (if negative then signedLimit else 0) + Binary64.rankLimit
  | .finite x => (if x.negative then signedLimit else 0) + x.rank

@[simp] theorem add_eq (x y : Double) : x + y = x.add y := rfl

end Double

end BoardRollup
