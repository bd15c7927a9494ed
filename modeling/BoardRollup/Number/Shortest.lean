import BoardRollup.Number.Decimal

/-!
# The shortest decimal that reads back

For one digit, two, and so on up to seventeen, the two neighbours of a magnitude
on the grid of that many digits are read back; the first grid with a neighbour
that reads back to the same magnitude gives the answer, and of two the nearer.
The search tests by reading, so its answer reads back by construction; the exact
decimal stands behind it and is never needed.
-/

namespace BoardRollup

/-- Which of two equally near decimals is written. -/
inductive Tie where
  | up
  | even
  deriving DecidableEq, Repr

namespace Decimal

def readsAs (d : Decimal) (x : FiniteDouble) : Bool := d.toDouble x.negative = .finite x

/-- The neighbours of an exact decimal after dropping `places` digits, the
nearer first. -/
def neighbours (tie : Tie) (exact : Decimal) (places : Nat) : List Decimal :=
  let unit := tenTo places
  let lower := exact.digits / unit
  let below : Decimal := ⟨lower, exact.exponent + places⟩
  let above : Decimal := ⟨lower + 1, exact.exponent + places⟩
  let twice := 2 * (exact.digits % unit)
  if twice < unit then [below, above]
  else if unit < twice then [above, below]
  else match tie with
    | .up => [above, below]
    | .even => if lower % 2 = 0 then [below, above] else [above, below]

/-- The shortest decimal that reads back to a number that is not zero. -/
def shortest (tie : Tie) (x : FiniteDouble) : Decimal :=
  let exact := ofRank x.rank
  let length := (digitChars exact.digits).length
  let onGrid (count : Nat) := (exact.neighbours tie (length - count)).find? (·.readsAs x)
  ((List.range' 1 17).findSome? onGrid).getD exact

end Decimal

end BoardRollup
