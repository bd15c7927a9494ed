import BoardRollup.Number.Shortest

/-!
# Rounding to the nearest rank

What the nearest rank of a ratio of quanta depends on. Only the ratio counts, so a common factor
makes no difference. A magnitude that a rank has is rounded to that rank, a ratio far past
the greatest magnitude is past the last rank, and one below half a quantum is rounded to
zero.

A decimal is therefore read by its value alone: zeros may move from its digits into its
exponent, also where the exponent is so far out that the power is never written out. The
decimal that is written for a number reads back to it.
-/

namespace BoardRollup

theorem twoTo_add (m n : Nat) : twoTo (m + n) = twoTo m * twoTo n := Nat.pow_add 2 m n

theorem tenTo_add (m n : Nat) : tenTo (m + n) = tenTo m * tenTo n := Nat.pow_add 10 m n

theorem mul_five_pow_mul_twoTo (m n : Nat) : m * Nat.pow 5 n * twoTo n = m * tenTo n := by
  rw [Nat.mul_assoc]
  exact congrArg (m * ·) (Nat.mul_pow 5 2 n).symm

theorem twoTo_le_twoTo {m n : Nat} (h : m ≤ n) : twoTo m ≤ twoTo n :=
  Nat.pow_le_pow_right (by decide) h

theorem tenTo_le_tenTo {m n : Nat} (h : m ≤ n) : tenTo m ≤ tenTo n :=
  Nat.pow_le_pow_right (by decide) h

/-- Ten to a power is past two to three times the power. -/
theorem twoTo_le_tenTo (n : Nat) : twoTo (3 * n) ≤ tenTo n := by
  calc twoTo (3 * n) = (2 ^ 3) ^ n := Nat.pow_mul 2 3 n
    _ ≤ tenTo n := Nat.pow_le_pow_left (by decide) n

namespace Binary64

theorem roundQuotient_mul {den : Nat} (pos : 0 < den) (q : Nat) :
    roundQuotient (q * den) den = q := by
  have whole : q * den / den = q := Nat.mul_div_cancel q pos
  have rest : q * den % den = 0 := Nat.mul_mod_left q den
  unfold roundQuotient
  simp only [whole, rest, Nat.mul_zero, if_pos pos]

theorem roundQuotient_scale {k : Nat} (pos : 0 < k) (num den : Nat) :
    roundQuotient (num * k) (den * k) = roundQuotient num den := by
  have whole : num * k / (den * k) = num / den := Nat.mul_div_mul_right num den pos
  have rest : 2 * (num * k % (den * k)) = 2 * (num % den) * k := by
    rw [Nat.mul_mod_mul_right, Nat.mul_assoc]
  unfold roundQuotient
  simp only [whole, rest, Nat.mul_lt_mul_right pos]

theorem nearestRank_scale {k : Nat} (pos : 0 < k) (num den : Nat) :
    nearestRank (num * k) (den * k) = nearestRank num den := by
  have whole : num * k / (den * k) = num / den := Nat.mul_div_mul_right num den pos
  have moved (s : Nat) : den * k * s = den * s * k := Nat.mul_right_comm den k s
  unfold nearestRank
  simp only [whole, moved, roundQuotient_scale pos]

/-- Equal ratios have one nearest rank. -/
theorem nearestRank_congr {num den num' den' : Nat} (pos : 0 < den) (pos' : 0 < den')
    (ratio : num * den' = num' * den) : nearestRank num den = nearestRank num' den' := by
  calc nearestRank num den
      = nearestRank (num * den') (den * den') := (nearestRank_scale pos' num den).symm
    _ = nearestRank (num' * den) (den' * den) := by rw [ratio, Nat.mul_comm den den']
    _ = nearestRank num' den' := nearestRank_scale pos num' den'

theorem twoTo_binade : twoTo 52 = binade := by decide

theorem quanta_of_lt {rank : Nat} (low : rank < binade) : quanta rank = rank := if_pos low

theorem quanta_add (scale : Nat) {fraction : Nat} (small : fraction < binade) :
    quanta ((scale + 1) * binade + fraction) = (binade + fraction) * twoTo scale := by
  have pos : 0 < binade := by decide
  have high : ¬(scale + 1) * binade + fraction < binade := by
    rw [Nat.succ_mul]
    omega
  have whole : ((scale + 1) * binade + fraction) / binade = scale + 1 := by
    rw [Nat.add_comm, Nat.add_mul_div_right _ _ pos, Nat.div_eq_of_lt small, Nat.zero_add]
  have rest : ((scale + 1) * binade + fraction) % binade = fraction := by
    rw [Nat.add_comm, Nat.add_mul_mod_self_right, Nat.mod_eq_of_lt small]
  rw [quanta, if_neg high, whole, rest, Nat.add_sub_cancel]

/-- A rank is below the first binade of numbers of 53 bits or in a binade of a scale. -/
theorem rank_cases (rank : Nat) :
    rank < binade ∨
      ∃ scale fraction, fraction < binade ∧ rank = (scale + 1) * binade + fraction := by
  rcases Nat.lt_or_ge rank binade with low | high
  · exact .inl low
  · right
    have pos : 0 < binade := by decide
    have past : 1 ≤ rank / binade := (Nat.one_le_div_iff pos).mpr high
    have parts : binade * (rank / binade) + rank % binade = rank := Nat.div_add_mod rank binade
    refine ⟨rank / binade - 1, rank % binade, Nat.mod_lt rank pos, ?_⟩
    rw [Nat.sub_add_cancel past, Nat.mul_comm, parts]

/-- A magnitude is rounded to its own rank. -/
theorem nearestRank_quanta (rank : Nat) : nearestRank (quanta rank) 1 = rank := by
  unfold nearestRank
  simp only [Nat.div_one, Nat.one_mul]
  rcases rank_cases rank with low | ⟨own, fraction, small, rfl⟩
  · have scale : rank.log2 - 52 = 0 := by
      have bits : rank.log2 < 53 := by
        by_cases zero : rank = 0
        · subst zero
          decide
        · rw [Nat.log2_lt zero]
          exact Nat.lt_trans low (by decide)
      omega
    have exact := roundQuotient_mul (twoTo_pos 0) rank
    rw [twoTo_zero, Nat.mul_one] at exact
    rw [quanta_of_lt low, scale, Nat.zero_mul, Nat.zero_add, twoTo_zero, exact]
  · have bits : ((binade + fraction) * twoTo own).log2 = 52 + own := by
      have pos : 0 < binade := by decide
      have nonzero : (binade + fraction) * twoTo own ≠ 0 :=
        Nat.ne_of_gt (Nat.mul_pos (by omega) (twoTo_pos own))
      rw [Nat.log2_eq_iff nonzero]
      constructor
      · change twoTo (52 + own) ≤ _
        rw [twoTo_add, twoTo_binade]
        exact Nat.mul_le_mul_right _ (Nat.le_add_right _ _)
      · change _ < twoTo (52 + own + 1)
        rw [twoTo_succ, twoTo_add, twoTo_binade, ← Nat.mul_assoc]
        exact Nat.mul_lt_mul_of_pos_right (by omega) (twoTo_pos own)
    have scale : ((binade + fraction) * twoTo own).log2 - 52 = own := by omega
    rw [quanta_add own small, scale, roundQuotient_mul (twoTo_pos own), Nat.succ_mul,
      Nat.add_assoc]

theorem quanta_injective {r s : Nat} (same : quanta r = quanta s) : r = s := by
  rw [← nearestRank_quanta r, same, nearestRank_quanta]

theorem quanta_eq_zero_iff {rank : Nat} : quanta rank = 0 ↔ rank = 0 := by
  have zero : quanta 0 = 0 := rfl
  constructor
  · intro nothing
    exact quanta_injective (nothing.trans zero.symm)
  · rintro rfl
    exact zero

theorem nearestRank_quanta_scale {k : Nat} (pos : 0 < k) (rank : Nat) :
    nearestRank (quanta rank * k) k = rank := by
  have scaled := nearestRank_scale pos (quanta rank) 1
  rwa [Nat.one_mul, nearestRank_quanta] at scaled

/-- Far past the greatest magnitude there is no rank that is finite. -/
theorem rankLimit_le_nearestRank {num den n : Nat} (pos : 0 < den) (far : 2100 ≤ n)
    (past : twoTo n * den ≤ num) : rankLimit ≤ nearestRank num den := by
  have large : twoTo n ≤ num / den := (Nat.le_div_iff_mul_le pos).mpr past
  have nonzero : num / den ≠ 0 := Nat.ne_of_gt (Nat.lt_of_lt_of_le (twoTo_pos _) large)
  have bits : n ≤ (num / den).log2 := (Nat.le_log2 nonzero).mpr large
  calc rankLimit = 0x7FF * binade := rfl
    _ ≤ ((num / den).log2 - 52) * binade := Nat.mul_le_mul_right _ (by omega)
    _ ≤ nearestRank num den := Nat.le_add_right _ _

/-- Less than half a quantum is rounded to zero. -/
theorem nearestRank_eq_zero {num den : Nat} (small : 2 * num < den) :
    nearestRank num den = 0 := by
  have whole : num / den = 0 := Nat.div_eq_of_lt (by omega)
  have rest : num % den = num := Nat.mod_eq_of_lt (by omega)
  have scale : (0 : Nat).log2 - 52 = 0 := by decide
  unfold nearestRank roundQuotient
  simp only [whole, scale, twoTo_zero, Nat.mul_one, rest, if_pos small, Nat.zero_mul]

end Binary64

theorem FiniteDouble.signedQuanta_eq_zero_iff {x : FiniteDouble} :
    x.signedQuanta = 0 ↔ x.isZero = true := by
  have magnitude : x.signedQuanta = 0 ↔ x.quanta = 0 := by
    rw [signedQuanta]
    split <;> omega
  rw [magnitude, quanta, Binary64.quanta_eq_zero_iff, isZero, decide_eq_true_iff]

namespace Double

open Binary64

theorem ofQuanta_congr {num den num' den' : Nat} (negative : Bool) (pos : 0 < den)
    (pos' : 0 < den') (ratio : num * den' = num' * den) :
    ofQuanta negative num den = ofQuanta negative num' den' := by
  unfold ofQuanta
  simp only [nearestRank_congr pos pos' ratio]

theorem ofQuanta_of_far {num den : Nat} (negative : Bool)
    (far : rankLimit ≤ nearestRank num den) : ofQuanta negative num den = .infinite negative :=
  dif_neg (Nat.not_lt.mpr far)

theorem ofQuanta_of_rank {num den : Nat} (x : FiniteDouble)
    (rank : nearestRank num den = x.rank) : ofQuanta x.negative num den = .finite x := by
  have finite : nearestRank num den < rankLimit := rank ▸ x.rank.isLt
  rw [ofQuanta, dif_pos finite]
  congr 2
  exact Fin.ext rank

/-- What settles an exponent far outside the range is what the written out power would give. -/
theorem ofDecimal_eq (negative : Bool) {digits : Nat} (nonzero : digits ≠ 0) (exponent : Int) :
    ofDecimal negative digits exponent =
      ofQuanta negative (digits * tenTo exponent.toNat * quantaPerUnit)
        (tenTo (-exponent).toNat) := by
  unfold ofDecimal
  rw [if_neg nonzero]
  split
  · next high =>
    have whole : (-exponent).toNat = 0 := by omega
    have unit : quantaPerUnit = twoTo 1074 := rfl
    have far : 2100 ≤ 3 * exponent.toNat + 1074 := by omega
    refine (ofQuanta_of_far negative (rankLimit_le_nearestRank (tenTo_pos _) far ?_)).symm
    rw [whole, tenTo_zero, Nat.mul_one, unit]
    calc twoTo (3 * exponent.toNat + 1074)
        = 1 * twoTo (3 * exponent.toNat) * twoTo 1074 := by rw [twoTo_add, Nat.one_mul]
      _ ≤ digits * tenTo exponent.toNat * twoTo 1074 := by
        have power := twoTo_le_tenTo exponent.toNat
        exact Nat.mul_le_mul_right _
          (Nat.mul_le_mul (Nat.one_le_iff_ne_zero.mpr nonzero) power)
  · split
    · next low =>
      have below : exponent.toNat = 0 := by omega
      have unit : quantaPerUnit = twoTo 1074 := rfl
      have size : digits < twoTo (digits.log2 + 1) := Nat.lt_log2_self
      have small : 2 * (digits * tenTo exponent.toNat * quantaPerUnit) <
          tenTo (-exponent).toNat := by
        rw [below, tenTo_zero, Nat.mul_one, unit]
        calc 2 * (digits * twoTo 1074)
            < 2 * (twoTo (digits.log2 + 1) * twoTo 1074) :=
              Nat.mul_lt_mul_of_pos_left
                (Nat.mul_lt_mul_of_pos_right size (twoTo_pos _)) (by decide)
          _ = twoTo (digits.log2 + 1 + 1074 + 1) := by
            rw [twoTo_succ (digits.log2 + 1 + 1074), twoTo_add (digits.log2 + 1)]
          _ ≤ twoTo (3 * (-exponent).toNat) := twoTo_le_twoTo (by omega)
          _ ≤ tenTo (-exponent).toNat := twoTo_le_tenTo _
      have rank := nearestRank_eq_zero small
      exact (ofQuanta_of_rank ⟨negative, ⟨0, by decide⟩⟩ rank).symm
    · split
      · next whole =>
        have none : (-exponent).toNat = 0 := by omega
        rw [none, tenTo_zero]
      · next fraction =>
        have none : exponent.toNat = 0 := by omega
        rw [none, tenTo_zero, Nat.mul_one]

end Double

namespace Decimal

open Binary64

def num (d : Decimal) : Nat := d.digits * tenTo d.exponent.toNat

def den (d : Decimal) : Nat := tenTo (-d.exponent).toNat

theorem den_pos (d : Decimal) : 0 < d.den := tenTo_pos _

/-- A decimal is read as the number nearest to its ratio. -/
theorem toDouble_eq (d : Decimal) (negative : Bool) :
    d.toDouble negative = .ofQuanta negative (d.num * quantaPerUnit) d.den := by
  by_cases zero : d.digits = 0
  · have rank : nearestRank 0 d.den = 0 := nearestRank_eq_zero (by have := d.den_pos; omega)
    rw [toDouble, Double.ofDecimal, if_pos zero, num, zero, Nat.zero_mul, Nat.zero_mul]
    exact (Double.ofQuanta_of_rank ⟨negative, ⟨0, by decide⟩⟩ rank).symm
  · exact Double.ofDecimal_eq negative zero d.exponent

/-- Two decimals have one magnitude. -/
def Same (d e : Decimal) : Prop := d.num * e.den = e.num * d.den

section Same

variable {d e f : Decimal}

theorem Same.symm (same : d.Same e) : e.Same d := Eq.symm same

theorem Same.trans (left : d.Same e) (right : e.Same f) : d.Same f := by
  apply Nat.eq_of_mul_eq_mul_right e.den_pos
  calc d.num * f.den * e.den = d.num * e.den * f.den := Nat.mul_right_comm ..
    _ = e.num * f.den * d.den := by rw [left, Nat.mul_right_comm]
    _ = f.num * d.den * e.den := by rw [right, Nat.mul_right_comm]

/-- Zeros at the end of the digits count like a greater exponent. -/
theorem same_scale (digits places : Nat) (exponent : Int) :
    Same ⟨digits * tenTo places, exponent⟩ ⟨digits, exponent + places⟩ := by
  -- Both sides hold the digits and one power of ten.
  have powers : tenTo places * tenTo exponent.toNat * tenTo (-(exponent + places)).toNat =
      tenTo (exponent + places).toNat * tenTo (-exponent).toNat := by
    rw [← tenTo_add, ← tenTo_add, ← tenTo_add]
    congr 1
    omega
  calc digits * tenTo places * tenTo exponent.toNat * tenTo (-(exponent + places)).toNat
      = digits * (tenTo places * tenTo exponent.toNat * tenTo (-(exponent + places)).toNat) := by
        simp only [Nat.mul_assoc]
    _ = digits * tenTo (exponent + places).toNat * tenTo (-exponent).toNat := by
        rw [powers, Nat.mul_assoc]

theorem Same.toDouble (same : d.Same e) (negative : Bool) :
    d.toDouble negative = e.toDouble negative := by
  rw [toDouble_eq, toDouble_eq]
  refine Double.ofQuanta_congr negative d.den_pos e.den_pos ?_
  generalize quantaPerUnit = unit
  rw [Nat.mul_right_comm, same, Nat.mul_right_comm]

/-- What bounds a magnitude bounds it in all its spellings. -/
theorem Same.num_le (same : d.Same e) {most : Nat} (bound : e.num ≤ most * e.den) :
    d.num ≤ most * d.den := by
  apply Nat.le_of_mul_le_mul_right _ e.den_pos
  calc d.num * e.den = e.num * d.den := same
    _ ≤ most * e.den * d.den := Nat.mul_le_mul_right _ bound
    _ = most * d.den * e.den := Nat.mul_right_comm ..

end Same

/-- The exact decimal of a magnitude has as many places as a unit has bits in quanta. How many that
are is left open, so that no power of it is written out. -/
theorem exists_ofRank_eq (rank : Nat) : ∃ places : Nat,
    ofRank rank = ⟨quanta rank * Nat.pow 5 places, -places⟩ ∧ quantaPerUnit = twoTo places := by
  have exponent : (-1074 : Int) = -(1074 : Nat) := rfl
  exact ⟨1074, congrArg (Decimal.mk _) exponent, rfl⟩

/-- The exact decimal of a magnitude is read as that magnitude. -/
theorem toDouble_ofRank (x : FiniteDouble) (nonzero : (ofRank x.rank).digits ≠ 0) :
    (ofRank x.rank).toDouble x.negative = .finite x := by
  obtain ⟨places, spelled, unit⟩ := exists_ofRank_eq x.rank
  rw [toDouble, Double.ofDecimal_eq _ nonzero, spelled]
  refine Double.ofQuanta_of_rank x ?_
  have above : (-(places : Int)).toNat = 0 := by omega
  have below : (- -(places : Int)).toNat = places := by omega
  simp only [above, below, tenTo_zero, Nat.mul_one, unit, mul_five_pow_mul_twoTo]
  exact nearestRank_quanta_scale (tenTo_pos _) x.rank

end Decimal

end BoardRollup
