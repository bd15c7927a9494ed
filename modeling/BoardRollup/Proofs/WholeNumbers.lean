import BoardRollup.Proofs.NearestRanks

/-!
# Whole numbers are exact

A natural number of 53 bits has a rank of its own, and so has an even one of 54 bits. So an integer
of at most `2 ^ 53` is kept as it is, and the sum of two integers is the double of their sum: it is
formed exactly, and there is nothing to round.
-/

namespace BoardRollup

namespace Binary64

theorem quantaPerUnit_pos : 0 < quantaPerUnit := twoTo_pos 1074

/-- A natural number is at most `2 ^ 53`, or it is even and has 54 bits. -/
def Fits (n : Nat) : Prop := n ≤ 2 * binade ∨ n % 2 = 0 ∧ n < 4 * binade

/-- A natural number that fits has a rank. -/
theorem Fits.exists_quanta {n : Nat} (fits : Fits n) : ∃ rank, quanta rank = n * quantaPerUnit := by
  have unit : quantaPerUnit = twoTo 1074 := rfl
  have whole : 2 * binade % 2 = 0 := by decide
  rcases Nat.lt_or_ge n (2 * binade) with small | large
  · rw [unit]
    exact exists_quanta_eq 1074 small
  · obtain ⟨half, rfl⟩ : ∃ half, n = half * 2 := by
      refine ⟨n / 2, ?_⟩
      rcases fits with most | even
      · omega
      · omega
    have small : half < 2 * binade := by
      rcases fits with most | even
      · have : 0 < binade := by decide
        omega
      · omega
    obtain ⟨rank, eq⟩ := exists_quanta_eq 1075 small
    refine ⟨rank, ?_⟩
    rw [eq, twoTo_succ, unit, Nat.mul_assoc]

end Binary64

open Binary64

namespace Double

/-- A natural number that fits is kept as it is. -/
theorem ofQuanta_whole (negative : Bool) {n : Nat} (fits : Fits n) :
    ∃ x : FiniteDouble, ofQuanta negative (n * quantaPerUnit) 1 = .finite x ∧
      x.negative = negative ∧ x.quanta = n * quantaPerUnit := by
  have word : n < unsignedLimit := by
    have limit : 4 * binade < unsignedLimit := by decide
    rcases fits with most | even
    · omega
    · omega
  have finite := nearestRank_whole_lt_rankLimit word
  obtain ⟨rank, exact⟩ := fits.exists_quanta
  refine ⟨⟨negative, ⟨_, finite⟩⟩, dif_pos finite, rfl, ?_⟩
  change Binary64.quanta (nearestRank (n * quantaPerUnit) 1) = _
  rw [← exact, nearestRank_quanta]

def ofInt (z : Int) : Double := ofQuanta (z < 0) (z.natAbs * quantaPerUnit) 1

end Double

namespace FiniteDouble

def IsWhole (x : FiniteDouble) (z : Int) : Prop := x.signedQuanta = z * quantaPerUnit

theorem natAbs_signedQuanta (x : FiniteDouble) : x.signedQuanta.natAbs = x.quanta := by
  rcases x.signedQuanta_eq_or with plus | minus
  · rw [plus, Int.natAbs_natCast]
  · rw [minus, Int.natAbs_neg, Int.natAbs_natCast]

theorem IsWhole.quanta_eq {x : FiniteDouble} {z : Int} (whole : x.IsWhole z) :
    x.quanta = z.natAbs * quantaPerUnit := by
  rw [← x.natAbs_signedQuanta, whole, Int.natAbs_mul, Int.natAbs_natCast]

/-- A number of whole units is an integer with the sign of the number. -/
theorem isWhole_of_quanta_eq {x : FiniteDouble} {n : Nat} (quanta : x.quanta = n * quantaPerUnit) :
    x.IsWhole (if x.negative then -n else n) := by
  unfold IsWhole signedQuanta
  rw [quanta, Int.natCast_mul]
  split
  · rw [Int.neg_mul]
  · rfl

theorem positive_of_signedQuanta_pos {x : FiniteDouble} (above : 0 < x.signedQuanta) :
    x.negative = false := by
  unfold signedQuanta at above
  split at above
  · omega
  · next positive => exact Bool.eq_false_iff.mpr positive

end FiniteDouble

namespace Double

theorem ofInt_zero : ofInt 0 = zero false := by
  rw [ofInt, Int.natAbs_zero, Nat.zero_mul]
  rfl

/-- An integer of at most `2 ^ 53` is kept as it is, and a zero has no sign. -/
theorem ofInt_whole {z : Int} (small : z.natAbs ≤ 2 * binade) :
    ∃ x : FiniteDouble, ofInt z = .finite x ∧ x.negative = decide (z < 0) ∧ x.IsWhole z := by
  obtain ⟨x, value, sign, quanta⟩ := ofQuanta_whole (z < 0) (.inl small)
  have size : (if x.negative then -(z.natAbs : Int) else z.natAbs) = z := by
    rw [sign]
    split
    · next below =>
      have below := of_decide_eq_true below
      omega
    · next least =>
      have least := of_decide_eq_false (Bool.eq_false_iff.mpr least)
      omega
  have whole := FiniteDouble.isWhole_of_quanta_eq quanta
  rw [size] at whole
  exact ⟨x, value, sign, whole⟩

theorem add_finite (x y : FiniteDouble) :
    .finite x + .finite y =
      if x.signedQuanta + y.signedQuanta = 0 then zero (x.negative && y.negative)
      else ofQuanta (x.signedQuanta + y.signedQuanta < 0)
        (x.signedQuanta + y.signedQuanta).natAbs 1 := rfl

/-- Integers add up to the double of their sum. A zero on the left has no sign, as that of a running
sum has none. -/
theorem add_whole {x y : FiniteDouble} {a b : Int} (sign : x.negative = decide (a < 0))
    (left : x.IsWhole a) (right : y.IsWhole b) : .finite x + .finite y = ofInt (a + b) := by
  have unit : (0 : Int) < quantaPerUnit := Int.natCast_pos.mpr quantaPerUnit_pos
  have sum : x.signedQuanta + y.signedQuanta = (a + b) * quantaPerUnit := by
    rw [left, right, Int.add_mul]
  rw [add_finite, sum]
  by_cases zero : a + b = 0
  · have unsigned : (x.negative && y.negative) = false := by
      by_cases below : a < 0
      · have above : 0 < y.signedQuanta := by
          rw [right]
          exact Int.mul_pos (by omega) unit
        rw [FiniteDouble.positive_of_signedQuanta_pos above, Bool.and_false]
      · rw [sign, decide_eq_false below, Bool.false_and]
    rw [zero, Int.zero_mul, if_pos rfl, unsigned, ofInt_zero]
  · have nonzero : (a + b) * quantaPerUnit ≠ 0 := Int.mul_ne_zero zero (Int.ne_of_gt unit)
    have below : (a + b) * quantaPerUnit < 0 ↔ a + b < 0 :=
      ⟨(Int.neg_of_mul_neg_left · unit), (Int.mul_neg_of_neg_of_pos · unit)⟩
    rw [if_neg nonzero, ofInt, Int.natAbs_mul, Int.natAbs_natCast, decide_eq_decide.mpr below]

end Double

end BoardRollup
