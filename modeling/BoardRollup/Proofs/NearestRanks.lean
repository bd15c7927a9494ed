import BoardRollup.Proofs.Rounding

/-!
# The nearest rank is the nearest

A ratio of quanta is rounded on the grid on which it has 53 bits. On this grid no point is nearer,
and one that is equally near is odd where the rounded one is even. The magnitudes that are not on
the grid lie below all points that the ratio can be rounded to, so none of them is nearer either.

A natural number of 64 bits is therefore rounded to the finite number that is nearest to it, a
half going to the even rank, and one of 53 bits is kept as it is.
-/

namespace BoardRollup

namespace Binary64

section
variable {num den : Nat}

theorem div_le_roundQuotient (num den : Nat) : num / den ≤ roundQuotient num den := by
  unfold roundQuotient
  dsimp only
  split
  · exact Nat.le_refl _
  · split
    · exact Nat.le_succ _
    · exact Nat.le_add_right _ _

theorem roundQuotient_le (num den : Nat) : roundQuotient num den ≤ num / den + 1 := by
  unfold roundQuotient
  dsimp only
  split
  · exact Nat.le_succ _
  · split
    · exact Nat.le_refl _
    · exact Nat.add_le_add_left (Nat.le_of_lt_succ (Nat.mod_lt _ (by decide))) _

/-- A quotient is rounded by half a unit at most, and by a whole half only to an even number. -/
theorem roundQuotient_spec (num : Nat) (pos : 0 < den) :
    2 * num ≤ 2 * (roundQuotient num den * den) + den ∧
      2 * (roundQuotient num den * den) ≤ 2 * num + den ∧
        (2 * num = 2 * (roundQuotient num den * den) + den ∨
          2 * (roundQuotient num den * den) = 2 * num + den → roundQuotient num den % 2 = 0) := by
  have parts : den * (num / den) + num % den = num := Nat.div_add_mod num den
  have rest : num % den < den := Nat.mod_lt num pos
  have below : num / den * den = den * (num / den) := Nat.mul_comm _ _
  have above : (num / den + 1) * den = den * (num / den) + den := by
    rw [Nat.succ_mul, below]
  unfold roundQuotient
  dsimp only
  split
  · next lower =>
    rw [below]
    omega
  · split
    · next upper =>
      rw [above]
      omega
    · next middle =>
      have half : 2 * (num % den) = den := by omega
      rcases Nat.mod_two_eq_zero_or_one (num / den) with even | odd
      · rw [even, Nat.add_zero, below]
        omega
      · rw [odd, above]
        omega

/-- How far a number of units is from a quotient, in fractions of a unit. -/
def gap (num den k : Nat) : Nat := ((k * den : Nat) - (num : Int)).natAbs

theorem gap_roundQuotient_le (pos : 0 < den) (k : Nat) :
    gap num den (roundQuotient num den) ≤ gap num den k := by
  obtain ⟨below, above, _⟩ := roundQuotient_spec num pos
  unfold gap
  rcases Nat.lt_trichotomy k (roundQuotient num den) with less | rfl | more
  · have step : (k + 1) * den ≤ roundQuotient num den * den := Nat.mul_le_mul_right den less
    rw [Nat.succ_mul] at step
    omega
  · exact Nat.le_refl _
  · have step : (roundQuotient num den + 1) * den ≤ k * den := Nat.mul_le_mul_right den more
    rw [Nat.succ_mul] at step
    omega

theorem even_roundQuotient (pos : 0 < den) {k : Nat} (other : k ≠ roundQuotient num den)
    (same : gap num den k = gap num den (roundQuotient num den)) :
    roundQuotient num den % 2 = 0 := by
  obtain ⟨below, above, tie⟩ := roundQuotient_spec num pos
  apply tie
  unfold gap at same
  rcases Nat.lt_or_gt_of_ne other with less | more
  · have step : (k + 1) * den ≤ roundQuotient num den * den := Nat.mul_le_mul_right den less
    rw [Nat.succ_mul] at step
    omega
  · have step : (roundQuotient num den + 1) * den ≤ k * den := Nat.mul_le_mul_right den more
    rw [Nat.succ_mul] at step
    omega

theorem gap_mul (num den k unit : Nat) : gap num den (k * unit) = gap num (den * unit) k := by
  have moved : k * unit * den = k * (den * unit) := by rw [Nat.mul_assoc, Nat.mul_comm unit den]
  rw [gap, gap, moved]

end

/-- The ranks from the start of a binade to the start of the next one are the points of a grid;
on the first grid these are all ranks from zero on. -/
theorem quanta_grid {scale k : Nat} (least : scale = 0 ∨ binade ≤ k) (most : k ≤ 2 * binade) :
    quanta (scale * binade + k) = k * twoTo scale := by
  rcases Nat.lt_or_ge k binade with low | high
  · have first : scale = 0 := by omega
    subst first
    rw [Nat.zero_mul, Nat.zero_add, twoTo_zero, Nat.mul_one, quanta_of_lt low]
  · obtain ⟨fraction, rfl⟩ : ∃ fraction, k = binade + fraction :=
      ⟨k - binade, (Nat.add_sub_cancel' high).symm⟩
    have start : scale * binade + (binade + fraction) = (scale + 1) * binade + fraction := by
      rw [Nat.succ_mul, Nat.add_assoc]
    rw [start]
    rcases Nat.lt_or_ge fraction binade with inside | last
    · exact quanta_add scale inside
    · have next : fraction = binade := by omega
      subst next
      have pos : 0 < binade := by decide
      rw [← Nat.succ_mul, ← Nat.add_zero ((scale + 1).succ * binade), quanta_add (scale + 1) pos,
        Nat.add_zero, twoTo_succ, ← Nat.mul_assoc, Nat.mul_two]

/-- A magnitude that is not on a grid lies below the binade of the grid. -/
theorem quanta_lt_or_grid (scale rank : Nat) :
    quanta rank < binade * twoTo scale ∨ ∃ k, quanta rank = k * twoTo scale := by
  rcases rank_cases rank with low | ⟨own, fraction, small, rfl⟩
  · left
    rw [quanta_of_lt low]
    exact Nat.lt_of_lt_of_le low (Nat.le_mul_of_pos_right binade (twoTo_pos scale))
  · rw [quanta_add own small]
    rcases Nat.lt_or_ge own scale with finer | coarser
    · left
      calc (binade + fraction) * twoTo own
          < (binade + binade) * twoTo own :=
            Nat.mul_lt_mul_of_pos_right (Nat.add_lt_add_left small binade) (twoTo_pos own)
        _ = binade * twoTo (own + 1) := by rw [twoTo_succ, ← Nat.mul_assoc, Nat.mul_two]
        _ ≤ binade * twoTo scale := Nat.mul_le_mul_left binade (twoTo_le_twoTo finer)
    · right
      obtain ⟨more, rfl⟩ := Nat.exists_eq_add_of_le coarser
      refine ⟨(binade + fraction) * twoTo more, ?_⟩
      rw [Nat.add_comm scale more, twoTo_add, Nat.mul_assoc]

/-- Every number of 53 bits has a rank on every grid. -/
theorem exists_quanta_eq (scale : Nat) {k : Nat} (small : k < 2 * binade) :
    ∃ rank, quanta rank = k * twoTo scale := by
  induction scale generalizing k with
  | zero => exact ⟨0 * binade + k, quanta_grid (.inl rfl) (Nat.le_of_lt small)⟩
  | succ scale ih =>
    rcases Nat.lt_or_ge k binade with low | high
    · obtain ⟨rank, eq⟩ := ih (k := k * 2) (by omega)
      refine ⟨rank, ?_⟩
      rw [eq, twoTo_succ, Nat.mul_assoc]
    · exact ⟨(scale + 1) * binade + k, quanta_grid (.inr high) (Nat.le_of_lt small)⟩

section
variable {num den : Nat}

/-- The scale of the grid that a ratio of quanta is rounded on. -/
def gridScale (num den : Nat) : Nat := (num / den).log2 - 52

/-- The point of the grid that a ratio of quanta is rounded to. -/
def gridPoint (num den : Nat) : Nat := roundQuotient num (den * twoTo (gridScale num den))

theorem nearestRank_eq (num den : Nat) :
    nearestRank num den = gridScale num den * binade + gridPoint num den := rfl

theorem gridPoint_le (num den : Nat) : gridPoint num den ≤ 2 * binade := by
  have bits : (num / den).log2 + 1 ≤ gridScale num den + 53 := by
    unfold gridScale
    omega
  have bound : num / den < 2 * binade * twoTo (gridScale num den) := by
    calc num / den < twoTo ((num / den).log2 + 1) := Nat.lt_log2_self
      _ ≤ twoTo (gridScale num den + 53) := twoTo_le_twoTo bits
      _ = 2 * binade * twoTo (gridScale num den) := by
        rw [Nat.add_comm, twoTo_add, twoTo_succ, twoTo_binade]
  have quotient : num / (den * twoTo (gridScale num den)) < 2 * binade := by
    rw [← Nat.div_div_eq_div_mul]
    exact Nat.div_lt_of_lt_mul (Nat.mul_comm _ (2 * binade) ▸ bound)
  exact Nat.le_trans (roundQuotient_le _ _) quotient

/-- A ratio that is rounded on a coarser grid is past the start of the grid's binade. -/
theorem le_of_gridScale_ne_zero (pos : 0 < den) (coarse : gridScale num den ≠ 0) :
    binade * (den * twoTo (gridScale num den)) ≤ num := by
  have bits : (num / den).log2 = gridScale num den + 52 := by
    unfold gridScale at coarse ⊢
    omega
  have nonzero : num / den ≠ 0 := by
    intro zero
    rw [zero] at bits
    simp at bits
  have start : binade * twoTo (gridScale num den) ≤ num / den := by
    calc binade * twoTo (gridScale num den)
        = twoTo (num / den).log2 := by rw [bits, Nat.add_comm, twoTo_add, twoTo_binade]
      _ ≤ num / den := Nat.log2_self_le nonzero
  calc binade * (den * twoTo (gridScale num den))
      = binade * twoTo (gridScale num den) * den := by
        rw [Nat.mul_assoc, Nat.mul_comm den]
    _ ≤ num := (Nat.le_div_iff_mul_le pos).mp start

theorem binade_le_gridPoint (pos : 0 < den) (coarse : gridScale num den ≠ 0) :
    binade ≤ gridPoint num den := by
  have unit : 0 < den * twoTo (gridScale num den) := Nat.mul_pos pos (twoTo_pos _)
  calc binade ≤ num / (den * twoTo (gridScale num den)) :=
        (Nat.le_div_iff_mul_le unit).mpr (le_of_gridScale_ne_zero pos coarse)
    _ ≤ gridPoint num den := div_le_roundQuotient _ _

/-- The magnitude of the nearest rank is the point of the grid. -/
theorem quanta_nearestRank (pos : 0 < den) :
    quanta (nearestRank num den) = gridPoint num den * twoTo (gridScale num den) := by
  rw [nearestRank_eq]
  apply quanta_grid
  · by_cases first : gridScale num den = 0
    · exact .inl first
    · exact .inr (binade_le_gridPoint pos first)
  · exact gridPoint_le num den

theorem gap_nearestRank (pos : 0 < den) :
    gap num den (quanta (nearestRank num den)) =
      gap num (den * twoTo (gridScale num den)) (gridPoint num den) := by
  rw [quanta_nearestRank pos, gap_mul]

/-- Magnitudes that are not on the grid are farther away than the nearest rank. -/
theorem gap_nearestRank_lt (pos : 0 < den) {rank : Nat}
    (below : quanta rank < binade * twoTo (gridScale num den))
    (outside : ¬∃ k, quanta rank = k * twoTo (gridScale num den)) :
    gap num den (quanta (nearestRank num den)) < gap num den (quanta rank) := by
  have coarse : gridScale num den ≠ 0 := by
    intro first
    apply outside
    exact ⟨quanta rank, by rw [first, twoTo_zero, Nat.mul_one]⟩
  have unit : 0 < den * twoTo (gridScale num den) := Nat.mul_pos pos (twoTo_pos _)
  have start := le_of_gridScale_ne_zero pos coarse
  have before : quanta rank * den < binade * (den * twoTo (gridScale num den)) := by
    calc quanta rank * den
        < binade * twoTo (gridScale num den) * den := Nat.mul_lt_mul_of_pos_right below pos
      _ = binade * (den * twoTo (gridScale num den)) := by
        rw [Nat.mul_assoc, Nat.mul_comm den]
  have farther :
      gap num (den * twoTo (gridScale num den)) binade < gap num den (quanta rank) := by
    unfold gap
    omega
  rw [gap_nearestRank pos]
  exact Nat.lt_of_le_of_lt (gap_roundQuotient_le unit binade) farther

/-- No rank is nearer to a ratio of quanta than its nearest rank. -/
theorem gap_nearestRank_le (num : Nat) (pos : 0 < den) (rank : Nat) :
    gap num den (quanta (nearestRank num den)) ≤ gap num den (quanta rank) := by
  by_cases grid : ∃ k, quanta rank = k * twoTo (gridScale num den)
  · obtain ⟨k, eq⟩ := grid
    have unit : 0 < den * twoTo (gridScale num den) := Nat.mul_pos pos (twoTo_pos _)
    rw [gap_nearestRank pos, eq, gap_mul]
    exact gap_roundQuotient_le unit k
  · have below := (quanta_lt_or_grid (gridScale num den) rank).resolve_right grid
    exact Nat.le_of_lt (gap_nearestRank_lt pos below grid)

/-- A nearest rank that another rank is as near as is even. -/
theorem even_nearestRank (pos : 0 < den) {rank : Nat} (other : rank ≠ nearestRank num den)
    (same : gap num den (quanta rank) = gap num den (quanta (nearestRank num den))) :
    nearestRank num den % 2 = 0 := by
  have unit : 0 < den * twoTo (gridScale num den) := Nat.mul_pos pos (twoTo_pos _)
  obtain ⟨k, eq⟩ : ∃ k, quanta rank = k * twoTo (gridScale num den) := by
    apply Classical.byContradiction
    intro outside
    have below := (quanta_lt_or_grid (gridScale num den) rank).resolve_right outside
    have farther := gap_nearestRank_lt pos below outside
    omega
  have point : k ≠ gridPoint num den := by
    rintro rfl
    exact other (quanta_injective (eq.trans (quanta_nearestRank pos).symm))
  have even : gridPoint num den % 2 = 0 := by
    rw [gap_nearestRank pos, eq, gap_mul] at same
    exact even_roundQuotient unit point same
  have whole : binade % 2 = 0 := by decide
  rw [nearestRank_eq, Nat.add_mod, Nat.mul_mod, whole, Nat.mul_zero, Nat.zero_mod, even]

/-- What is well below the greatest magnitude has a rank that is finite. -/
theorem nearestRank_lt_rankLimit {n : Nat} (pos : 0 < den) (near : n ≤ 2000)
    (below : num < twoTo n * den) : nearestRank num den < rankLimit := by
  have small : num / den < twoTo n := (Nat.div_lt_iff_lt_mul pos).mpr below
  have bits : gridScale num den ≤ 2000 := by
    unfold gridScale
    by_cases zero : num / den = 0
    · rw [zero]
      decide
    · have power : (num / den).log2 < n := (Nat.log2_lt zero).mpr small
      omega
  calc nearestRank num den
      = gridScale num den * binade + gridPoint num den := nearestRank_eq num den
    _ ≤ 2000 * binade + 2 * binade :=
      Nat.add_le_add (Nat.mul_le_mul_right binade bits) (gridPoint_le num den)
    _ < rankLimit := by decide

end

end Binary64

open Binary64

/-- A number is one of the nearest to a whole number of quanta. Where another number is equally
near, its rank is even. -/
structure FiniteDouble.IsNearest (x : FiniteDouble) (quanta : Int) : Prop where
  nearest (y : FiniteDouble) :
    (x.signedQuanta - quanta).natAbs ≤ (y.signedQuanta - quanta).natAbs
  even (y : FiniteDouble) (other : y.signedQuanta ≠ x.signedQuanta)
    (same : (y.signedQuanta - quanta).natAbs = (x.signedQuanta - quanta).natAbs) :
    x.rank.val % 2 = 0

theorem FiniteDouble.signedQuanta_eq_or (x : FiniteDouble) :
    x.signedQuanta = (x.quanta : Int) ∨ x.signedQuanta = -(x.quanta : Int) := by
  unfold signedQuanta
  split
  · exact .inr rfl
  · exact .inl rfl

/-- A natural number of quanta has a nearest number, with the nearest rank. -/
theorem FiniteDouble.isNearest_of_rank {x : FiniteDouble} {num : Nat}
    (positive : x.negative = false) (rank : x.rank.val = nearestRank num 1) :
    x.IsNearest num := by
  have own : x.signedQuanta = (x.quanta : Int) := by
    unfold signedQuanta
    rw [if_neg (by simp [positive])]
  have point : x.quanta = Binary64.quanta (nearestRank num 1) := by
    rw [FiniteDouble.quanta, rank]
  have least (r : Nat) :
      ((x.quanta : Int) - num).natAbs ≤ ((Binary64.quanta r : Int) - num).natAbs := by
    have near := gap_nearestRank_le num Nat.one_pos r
    unfold gap at near
    rw [point]
    simpa only [Nat.mul_one] using near
  have origin : Binary64.quanta 0 = 0 := rfl
  have zero := least 0
  rw [origin] at zero
  constructor
  case nearest =>
    intro y
    have near := least y.rank
    change _ ≤ ((y.quanta : Int) - num).natAbs at near
    rw [own]
    rcases y.signedQuanta_eq_or with plus | minus
    · rw [plus]
      exact near
    · rw [minus]
      omega
  case even =>
    intro y other same
    have near := least y.rank
    change _ ≤ ((y.quanta : Int) - num).natAbs at near
    rw [own] at other same
    -- A negative number is never as near as the nearest one: zero is nearer.
    have plus : y.signedQuanta = (y.quanta : Int) := by
      rcases y.signedQuanta_eq_or with plus | minus
      · exact plus
      · omega
    rw [plus] at other same
    rw [rank]
    have apart : y.rank.val ≠ nearestRank num 1 := by
      intro equal
      apply other
      rw [FiniteDouble.quanta, equal, point]
    apply even_nearestRank Nat.one_pos apart
    change gap num 1 y.quanta = _
    unfold gap
    rw [← point]
    simpa only [Nat.mul_one] using same

theorem Binary64.nearestRank_whole_lt_rankLimit {n : Nat} (word : n < unsignedLimit) :
    nearestRank (n * quantaPerUnit) 1 < rankLimit := by
  obtain ⟨places, unit, near⟩ : ∃ places, quantaPerUnit = twoTo places ∧ 64 + places ≤ 2000 :=
    ⟨1074, rfl, by decide⟩
  have limit : unsignedLimit = twoTo 64 := by decide
  have below : n * quantaPerUnit < twoTo (64 + places) * 1 := by
    rw [unit, Nat.mul_one, twoTo_add, ← limit]
    exact Nat.mul_lt_mul_of_pos_right word (twoTo_pos places)
  exact nearestRank_lt_rankLimit Nat.one_pos near below

/-- A natural number of 64 bits is rounded to a positive finite number that is nearest to it, and
one of 53 bits to itself. -/
theorem Double.ofNat_nearest {n : Nat} (word : n < unsignedLimit) :
    ∃ x : FiniteDouble, ofNat n = .finite x ∧ x.negative = false ∧
      x.IsNearest (n * quantaPerUnit : Nat) ∧
        (n < 2 * binade → x.signedQuanta = (n * quantaPerUnit : Nat)) := by
  have finite := nearestRank_whole_lt_rankLimit word
  refine ⟨⟨false, ⟨_, finite⟩⟩, dif_pos finite, rfl, ?_, ?_⟩
  · exact FiniteDouble.isNearest_of_rank rfl rfl
  · intro small
    have unit : quantaPerUnit = twoTo 1074 := rfl
    obtain ⟨rank, exact⟩ := exists_quanta_eq 1074 small
    rw [← unit] at exact
    change (Binary64.quanta (nearestRank (n * quantaPerUnit) 1) : Int) = _
    rw [← exact, nearestRank_quanta]

end BoardRollup
