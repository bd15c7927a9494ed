import BoardRollup.Number.Scaled
import BoardRollup.Proofs.ShortestDigits

/-!
# What is read through a word

Digits that a word has room for are all kept. The number that is made of the word is exact as long
as the word and the power of ten are exact themselves, that is up to `2 ^ 53` and `10 ^ 22`: then
the one rounding that is left is that of the decimal.

Beyond that the number may be missed, but what is written for a float is never refused. A division
makes a number no greater. For a product, rounding keeps the order, so the greatest words that the
powers of ten leave room for decide; the shortest decimals of the floats stay below the greatest
one, `17976931348623157 * 10 ^ 292`.
-/

namespace BoardRollup

namespace Decimal

theorem le_foldl_digits (cs : List Char) (start : Nat) :
    start ≤ cs.foldl (fun n c => 10 * n + (c.toNat - '0'.toNat)) start := by
  induction cs generalizing start with
  | nil => exact Nat.le_refl _
  | cons c cs ih =>
    rw [List.foldl_cons]
    exact Nat.le_trans (by omega) (ih _)

/-- A word takes all digits if it can hold the number that they make of it. -/
theorem pushDigits_eq {cs : List Char} {word : Nat}
    (room : cs.foldl (fun n c => 10 * n + (c.toNat - '0'.toNat)) word < unsignedLimit) :
    pushDigits word cs = (cs.foldl (fun n c => 10 * n + (c.toNat - '0'.toNat)) word, []) := by
  induction cs generalizing word with
  | nil => rfl
  | cons c cs ih =>
    rw [List.foldl_cons] at room ⊢
    have next := Nat.lt_of_le_of_lt (le_foldl_digits cs _) room
    rw [pushDigits]
    simp only [if_pos next, ih room]

/-- A decimal whose digits a word can hold is kept as it is. -/
theorem ofWord_eq {whole fraction : List Char} (exponent : Int)
    (room : (ofParts whole fraction exponent).digits < unsignedLimit) :
    ofWord whole fraction exponent = ofParts whole fraction exponent := by
  have all : (whole ++ fraction).foldl (fun n c => 10 * n + (c.toNat - '0'.toNat)) 0 <
      unsignedLimit := room
  rw [List.foldl_append] at all
  have before := Nat.lt_of_le_of_lt (le_foldl_digits fraction _) all
  simp only [ofWord, pushDigits_eq before, pushDigits_eq all, List.length_nil]
  rw [ofParts, valueOf, List.foldl_append]
  congr 1
  omega

end Decimal

namespace Binary64

theorem rankOfNat_mono {m n : Nat} (le : m ≤ n) : rankOfNat m ≤ rankOfNat n := by
  apply nearestRank_mono Nat.one_pos Nat.one_pos
  exact Nat.mul_le_mul_right _ (Nat.mul_le_mul_right _ le)

theorem mulRank_mono {a b c d : Nat} (left : a ≤ b) (right : c ≤ d) :
    mulRank a c ≤ mulRank b d := by
  apply nearestRank_mono quantaPerUnit_pos quantaPerUnit_pos
  exact Nat.mul_le_mul_right _
    (Nat.mul_le_mul (quanta_strictMono.monotone left) (quanta_strictMono.monotone right))

/-- Natural numbers of 53 bits are exact. -/
theorem quanta_rankOfNat {n : Nat} (small : n ≤ 2 * binade) :
    quanta (rankOfNat n) = n * quantaPerUnit := by
  have fits : Fits n := .inl small
  obtain ⟨rank, own⟩ := fits.exists_quanta
  rw [rankOfNat, ← own, nearestRank_quanta]

/-- Powers of ten are exact as long as their power of five has 53 bits. -/
theorem quanta_rankOfTenTo {n : Nat} (few : n ≤ 22) :
    quanta (rankOfTenTo n) = tenTo n * quantaPerUnit := by
  obtain ⟨places, unit⟩ : ∃ places, quantaPerUnit = twoTo places := ⟨1074, rfl⟩
  have small : Nat.pow 5 n < 2 * binade :=
    Nat.lt_of_le_of_lt (Nat.pow_le_pow_right (by decide) few) (by decide)
  have value : tenTo n * twoTo places = Nat.pow 5 n * twoTo (n + places) := by
    have ten := mul_five_pow_mul_twoTo 1 n
    rw [Nat.one_mul, Nat.one_mul] at ten
    rw [twoTo_add, ← Nat.mul_assoc, ten]
  obtain ⟨rank, own⟩ := exists_quanta_eq (n + places) small
  rw [rankOfTenTo, rankOfNat, unit, value, ← own, nearestRank_quanta]

/-- A number is no greater after a division by a power of ten. -/
theorem divRank_le (rank n : Nat) : divRank rank (rankOfTenTo n) ≤ rank := by
  have one : quantaPerUnit ≤ quanta (rankOfTenTo n) := by
    have unit : quanta (rankOfNat 1) = 1 * quantaPerUnit := quanta_rankOfNat (by decide)
    rw [← Nat.one_mul quantaPerUnit, ← unit]
    exact quanta_strictMono.monotone (rankOfNat_mono (tenTo_pos n))
  have pos : 0 < quanta (rankOfTenTo n) := Nat.lt_of_lt_of_le quantaPerUnit_pos one
  calc divRank rank (rankOfTenTo n)
      ≤ nearestRank (quanta rank) 1 := by
        apply nearestRank_mono pos Nat.one_pos
        rw [Nat.mul_one]
        exact Nat.mul_le_mul_left _ one
    _ = rank := nearestRank_quanta rank

theorem lowerRank_le (rank n : Nat) : lowerRank rank n ≤ rank := by
  induction n generalizing rank with
  | zero => exact Nat.le_refl _
  | succ n ih =>
    rw [lowerRank]
    split
    · exact Nat.zero_le _
    · exact Nat.le_trans (ih _) (divRank_le rank maxPower)

/-- The digits of the greatest float, which are followed by 292 zeros. -/
def greatestDigits : Nat := 17976931348623157

/-- With each of the last powers of ten, the greatest word that stays below the greatest float has a
product that is finite. -/
theorem mulRank_greatest : ∀ n ≤ 16,
    mulRank (rankOfNat (greatestDigits / tenTo n)) (rankOfTenTo (292 + n)) < rankLimit := by
  decide +kernel

/-- A product of a word of seventeen digits is finite if it is no greater than the greatest float. -/
theorem mulRank_lt {word n : Nat} (few : word ≤ tenTo 17) (least : n ≤ maxPower)
    (below : word * tenTo n ≤ greatestDigits * tenTo 292) :
    mulRank (rankOfNat word) (rankOfTenTo n) < rankLimit := by
  rcases Nat.lt_or_ge n 292 with fine | coarse
  · have power : tenTo n ≤ tenTo 291 := tenTo_le_tenTo (Nat.le_of_lt_succ fine)
    have last : mulRank (rankOfNat (tenTo 17)) (rankOfTenTo 291) < rankLimit := by decide +kernel
    exact Nat.lt_of_le_of_lt (mulRank_mono (rankOfNat_mono few) (rankOfNat_mono power)) last
  · obtain ⟨more, rfl⟩ := Nat.exists_eq_add_of_le coarse
    have room : word * tenTo more ≤ greatestDigits := by
      rw [Nat.add_comm, tenTo_add, ← Nat.mul_assoc] at below
      exact Nat.le_of_mul_le_mul_right below (tenTo_pos 292)
    have most : word ≤ greatestDigits / tenTo more :=
      (Nat.le_div_iff_mul_le (tenTo_pos more)).mpr room
    have last := mulRank_greatest more (by unfold maxPower at least; omega)
    exact Nat.lt_of_le_of_lt (mulRank_mono (rankOfNat_mono most) (Nat.le_refl _)) last

/-- Past the powers of ten there is nothing but zero that stays below the greatest float. -/
theorem eq_zero_of_power {word n : Nat} (great : maxPower < n)
    (below : word * tenTo n ≤ greatestDigits * tenTo 292) : word = 0 := by
  apply Nat.eq_zero_of_not_pos
  intro some
  have power : tenTo (17 + 292) ≤ tenTo n := tenTo_le_tenTo great
  have past : tenTo 17 * tenTo 292 ≤ greatestDigits * tenTo 292 := by
    calc tenTo 17 * tenTo 292 = tenTo (17 + 292) := (tenTo_add 17 292).symm
      _ ≤ tenTo n := power
      _ ≤ word * tenTo n := Nat.le_mul_of_pos_left _ some
      _ ≤ greatestDigits * tenTo 292 := below
  have digits := Nat.le_of_mul_le_mul_right past (tenTo_pos 292)
  exact absurd digits (by decide)

end Binary64

open Binary64

namespace FiniteDouble

/-- A word of seventeen digits that is scaled to no more than the greatest float is not refused. -/
theorem isSome_scaled? {d : Decimal} (negative : Bool) (few : d.digits ≤ tenTo 17)
    (below : d.num ≤ greatestDigits * tenTo 292 * d.den) : (scaled? negative d).isSome := by
  have word : rankOfNat d.digits < rankLimit := by
    apply nearestRank_whole_lt_rankLimit
    exact Nat.lt_of_le_of_lt few (by decide)
  obtain ⟨rank, scaled, finite⟩ : ∃ rank, scaleRank (rankOfNat d.digits) d.exponent = some rank ∧
      rank < rankLimit := by
    unfold Decimal.num Decimal.den at below
    cases exponent : d.exponent with
    | ofNat n =>
      have whole : (-Int.ofNat n).toNat = 0 := by simp
      have power : (Int.ofNat n).toNat = n := rfl
      rw [exponent, whole, power, tenTo_zero, Nat.mul_one] at below
      rw [scaleRank]
      by_cases small : n ≤ maxPower
      · exact ⟨_, if_pos small, mulRank_lt few small below⟩
      · have zero : d.digits = 0 := eq_zero_of_power (Nat.lt_of_not_le small) below
        have rank : rankOfNat 0 = 0 := by rw [rankOfNat, Nat.zero_mul]; exact nearestRank_quanta 0
        rw [if_neg small, zero, if_pos rank]
        exact ⟨0, rfl, by decide⟩
    | negSucc n =>
      refine ⟨_, rfl, Nat.lt_of_le_of_lt (divRank_le _ _) ?_⟩
      exact Nat.lt_of_le_of_lt (lowerRank_le _ _) word
  simp [scaled?, scaled, finite]

end FiniteDouble

namespace Binary64

/-- With few digits and a small power nothing but the decimal itself is rounded. -/
theorem scaleRank_eq {d : Decimal} (small : d.digits ≤ 2 * binade) (few : d.exponent.natAbs ≤ 22) :
    scaleRank (rankOfNat d.digits) d.exponent =
      some (nearestRank (d.num * quantaPerUnit) d.den) := by
  have word := quanta_rankOfNat small
  have unit := quantaPerUnit_pos
  unfold Decimal.num Decimal.den
  cases exponent : d.exponent with
  | ofNat n =>
    rw [exponent] at few
    replace few : n ≤ 22 := few
    have inside : n ≤ maxPower := Nat.le_trans few (by decide)
    have below : (-Int.ofNat n).toNat = 0 := by simp
    have above : (Int.ofNat n).toNat = n := rfl
    rw [scaleRank, if_pos inside, mulRank, word, quanta_rankOfTenTo few, below, above, tenTo_zero]
    generalize quantaPerUnit = unit at *
    refine congrArg some (nearestRank_congr unit Nat.one_pos ?_)
    ac_rfl
  | negSucc n =>
    rw [exponent] at few
    replace few : n + 1 ≤ 22 := few
    have inside : n < maxPower := Nat.lt_of_lt_of_le few (by decide)
    have steps : n / maxPower = 0 := Nat.div_eq_of_lt inside
    have last : n % maxPower = n := Nat.mod_eq_of_lt inside
    have above : (Int.negSucc n).toNat = 0 := rfl
    have below : (-Int.negSucc n).toNat = n + 1 := rfl
    rw [scaleRank, steps, last, lowerRank, divRank, word, quanta_rankOfTenTo few, below, above,
      tenTo_zero]
    generalize quantaPerUnit = unit at *
    refine congrArg some (nearestRank_congr (Nat.mul_pos (tenTo_pos _) unit) (tenTo_pos _) ?_)
    ac_rfl

end Binary64

namespace Double

theorem rank_of_ofQuanta {negative : Bool} {num den : Nat} {x : FiniteDouble}
    (value : ofQuanta negative num den = .finite x) :
    x.negative = negative ∧ nearestRank num den = x.rank := by
  unfold ofQuanta at value
  split at value
  · cases value
    exact ⟨rfl, rfl⟩
  · cases value

end Double

namespace FiniteDouble

variable {d : Decimal} {x : FiniteDouble} {negative : Bool}

/-- Few digits and a small power of ten give the number nearest to the decimal. -/
theorem scaled?_eq (small : d.digits ≤ 2 * binade) (few : d.exponent.natAbs ≤ 22)
    (value : d.toDouble negative = .finite x) : scaled? negative d = some x := by
  rw [Decimal.toDouble_eq] at value
  obtain ⟨sign, rank⟩ := Double.rank_of_ofQuanta value
  have finite := x.rank.isLt
  obtain ⟨_, own, _⟩ := x
  simp [scaled?, scaleRank_eq small few, rank, ← sign, finite]

end FiniteDouble

namespace Decimal

/-- The exact number that is the greatest float. -/
theorem nearestRank_greatest :
    nearestRank (greatestDigits * tenTo 292 * quantaPerUnit) 1 = rankLimit - 1 := by
  decide +kernel

theorem shortest_greatest (negative : Bool) :
    shortest .even ⟨negative, ⟨rankLimit - 1, by decide⟩⟩ = ⟨greatestDigits, 292⟩ := by
  revert negative
  decide +kernel

/-- No float has a shortest decimal past that of the greatest one. -/
theorem num_shortest_le {x : FiniteDouble} (nonzero : ¬ x.isZero) :
    (shortest .even x).num ≤ greatestDigits * tenTo 292 * (shortest .even x).den := by
  by_cases last : x.rank.val = rankLimit - 1
  · obtain ⟨negative, rank⟩ := x
    have same : rank = ⟨rankLimit - 1, by decide⟩ := Fin.ext last
    have whole : den ⟨greatestDigits, 292⟩ = 1 := rfl
    have power : (292 : Int).toNat = 292 := rfl
    rw [same, shortest_greatest, whole, Nat.mul_one, num, power]
  · apply Nat.le_of_not_lt
    intro past
    have value := toDouble_shortest nonzero .even
    generalize shortest .even x = d at past value
    rw [toDouble_eq] at value
    have greater : rankLimit - 1 ≤ x.rank.val := by
      rw [← nearestRank_greatest, ← (Double.rank_of_ofQuanta value).2]
      apply nearestRank_mono Nat.one_pos d.den_pos
      generalize quantaPerUnit = unit
      rw [Nat.mul_one, Nat.mul_right_comm]
      exact Nat.mul_le_mul_right unit (Nat.le_of_lt past)
    have finite := x.rank.isLt
    omega

end Decimal

end BoardRollup
