import BoardRollup.Proofs.NearestRanks
import Mathlib.Order.Monotone.Basic

/-!
# The order of ranks

Ranks are ordered as their magnitudes are, and rounding keeps the order: of two ratios of quanta the
greater one has the greater nearest rank. From a rank to the next the magnitude grows by one unit of
53 bits at least, so a ratio that is nearer to a magnitude than that has its rank.
-/

namespace BoardRollup

namespace Binary64

/-- The next magnitude is one step of the grid further, and at most `2 ^ 53` steps from zero. -/
theorem exists_step (rank : Nat) : ∃ step, 0 < step ∧ quanta (rank + 1) = quanta rank + step ∧
    quanta (rank + 1) ≤ 2 * binade * step := by
  obtain ⟨scale, k, point, least, most⟩ : ∃ scale k, rank = scale * binade + k ∧
      (scale = 0 ∨ binade ≤ k) ∧ k + 1 ≤ 2 * binade := by
    rcases rank_cases rank with low | ⟨scale, fraction, small, rfl⟩
    · exact ⟨0, rank, by omega, .inl rfl, by omega⟩
    · exact ⟨scale, binade + fraction, by rw [Nat.succ_mul]; omega, .inr (by omega), by omega⟩
  have own : quanta rank = k * twoTo scale := by
    rw [point, quanta_grid least (by omega)]
  have next : quanta (rank + 1) = (k + 1) * twoTo scale := by
    rw [point, Nat.add_assoc, quanta_grid (by omega) most]
  refine ⟨twoTo scale, twoTo_pos scale, ?_, ?_⟩
  · rw [next, own, Nat.succ_mul]
  · rw [next]
    exact Nat.mul_le_mul_right _ most

theorem quanta_strictMono : StrictMono quanta := by
  refine strictMono_nat_of_lt_succ fun rank => ?_
  obtain ⟨step, pos, next, _⟩ := exists_step rank
  omega

/-- Another magnitude is at least one unit of 53 bits away. -/
theorem quanta_le_mul_distance {rank other : Nat} (apart : other ≠ rank) :
    quanta rank ≤ 2 * binade * ((quanta other : Int) - quanta rank).natAbs := by
  rcases Nat.lt_or_gt_of_ne apart with below | above
  · obtain ⟨previous, rfl⟩ := Nat.exists_eq_add_of_lt below
    obtain ⟨step, pos, next, most⟩ := exists_step (other + previous)
    have least : quanta other ≤ quanta (other + previous) :=
      quanta_strictMono.monotone (Nat.le_add_right _ _)
    refine Nat.le_trans most (Nat.mul_le_mul_left _ ?_)
    omega
  · obtain ⟨step, pos, next, most⟩ := exists_step rank
    have least : quanta (rank + 1) ≤ quanta other := quanta_strictMono.monotone above
    calc quanta rank ≤ quanta (rank + 1) := by omega
      _ ≤ 2 * binade * step := most
      _ ≤ 2 * binade * ((quanta other : Int) - quanta rank).natAbs :=
        Nat.mul_le_mul_left _ (by omega)

/-- Rounding keeps the order of ratios. -/
theorem nearestRank_mono {num den num' den' : Nat} (pos : 0 < den) (pos' : 0 < den')
    (ratio : num * den' ≤ num' * den) : nearestRank num den ≤ nearestRank num' den' := by
  apply Nat.le_of_not_lt
  intro swapped
  have near := gap_nearestRank_le num pos (nearestRank num' den')
  have near' := gap_nearestRank_le num' pos' (nearestRank num den)
  have less := quanta_strictMono swapped
  -- The midpoint of the two magnitudes parts the ratios the other way round.
  unfold gap at near near'
  generalize greater : quanta (nearestRank num den) = q at *
  generalize lesser : quanta (nearestRank num' den') = q' at *
  have parted : q' * den < q * den := Nat.mul_lt_mul_of_pos_right less pos
  have parted' : q' * den' < q * den' := Nat.mul_lt_mul_of_pos_right less pos'
  have past : (q + q') * den ≤ 2 * num := by
    rw [Nat.add_mul]
    omega
  have short : 2 * num' ≤ (q + q') * den' := by
    rw [Nat.add_mul]
    omega
  have same : num * den' = num' * den := by
    apply Nat.le_antisymm ratio
    apply Nat.le_of_mul_le_mul_left _ (Nat.two_pos)
    calc 2 * (num' * den) = 2 * num' * den := (Nat.mul_assoc ..).symm
      _ ≤ (q + q') * den' * den := Nat.mul_le_mul_right den short
      _ = (q + q') * den * den' := Nat.mul_right_comm ..
      _ ≤ 2 * num * den' := Nat.mul_le_mul_right den' past
      _ = 2 * (num * den') := Nat.mul_assoc ..
  have equal := nearestRank_congr pos pos' same
  rw [equal] at swapped
  exact Nat.lt_irrefl _ swapped

/-- A ratio that is within half a unit of 53 bits of a magnitude is rounded to it. -/
theorem nearestRank_eq_of_near {num den rank : Nat} (pos : 0 < den)
    (near : 2 * binade * (2 * gap num den (quanta rank)) < quanta rank * den) :
    nearestRank num den = rank := by
  by_contra apart
  have nearest := gap_nearestRank_le num pos rank
  have distance := quanta_le_mul_distance apart
  generalize quanta (nearestRank num den) = other at *
  generalize quanta rank = own at *
  have between : ((other : Int) - own).natAbs * den ≤ 2 * gap num den own := by
    have whole : ((other : Int) - own).natAbs * den =
        ((other * den : Nat) - (own * den : Nat) : Int).natAbs := by
      rw [← Int.natAbs_natCast den, ← Int.natAbs_mul, Int.sub_mul]
      rfl
    rw [whole]
    unfold gap at nearest ⊢
    omega
  have : own * den < own * den := by
    calc own * den ≤ 2 * binade * ((other : Int) - own).natAbs * den :=
          Nat.mul_le_mul_right den distance
      _ = 2 * binade * (((other : Int) - own).natAbs * den) := Nat.mul_assoc ..
      _ ≤ 2 * binade * (2 * gap num den own) := Nat.mul_le_mul_left _ between
      _ < own * den := near
  exact Nat.lt_irrefl _ this

end Binary64

end BoardRollup
