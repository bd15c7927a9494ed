import BoardRollup.Proofs.RankOrder
import BoardRollup.Proofs.WrittenWholeNumbers

/-!
# Seventeen digits are enough

On the grid of seventeen digits the nearer neighbour of a magnitude is within half a step of it. A
step is less than one part in `10 ^ 16`, and the next magnitudes are one part in `2 ^ 53` away at
least, so the neighbour reads back. The search for the shortest decimal therefore ends on a grid of
seventeen digits or fewer, and what it gives has no more.
-/

namespace BoardRollup

namespace Decimal

open Binary64

section Neighbours

variable {tie : Tie} {exact : Decimal} {places : Nat}

theorem digits_le_of_mem_neighbours {d : Decimal} (mem : d ∈ exact.neighbours tie places) :
    d.digits ≤ exact.digits / tenTo places + 1 := by
  unfold neighbours at mem
  grind

/-- The neighbour that comes first is at most half a step away. -/
theorem exists_nearer (tie : Tie) (exact : Decimal) (places : Nat) :
    ∃ digits others, exact.neighbours tie places = ⟨digits, exact.exponent + places⟩ :: others ∧
      exact.digits / tenTo places ≤ digits ∧
      2 * ((digits * tenTo places : Nat) - (exact.digits : Int)).natAbs ≤ tenTo places := by
  have parts := Nat.div_add_mod exact.digits (tenTo places)
  rw [Nat.mul_comm] at parts
  have above : (exact.digits / tenTo places + 1) * tenTo places =
      exact.digits / tenTo places * tenTo places + tenTo places := Nat.succ_mul _ _
  have rest := Nat.mod_lt exact.digits (tenTo_pos places)
  unfold neighbours
  dsimp only
  split
  · exact ⟨_, _, rfl, Nat.le_refl _, by omega⟩
  · split
    · exact ⟨_, _, rfl, Nat.le_succ _, by omega⟩
    · cases tie
      case up => exact ⟨_, _, rfl, Nat.le_succ _, by omega⟩
      case even =>
        dsimp only
        split
        · exact ⟨_, _, rfl, Nat.le_refl _, by omega⟩
        · exact ⟨_, _, rfl, Nat.le_succ _, by omega⟩

end Neighbours

theorem lt_tenTo_length (n : Nat) : n < tenTo (digitChars n).length :=
  (Nat.length_toDigits_le_iff (by decide) Nat.length_toDigits_pos).mp (Nat.le_refl _)

theorem tenTo_le_of_lt_length {n places : Nat} (some : 0 < places)
    (longer : places < (digitChars n).length) : tenTo places ≤ n := by
  apply Nat.le_of_not_lt
  intro short
  have few := (Nat.length_toDigits_le_iff (b := 10) (by decide) some).mpr short
  exact Nat.not_lt.mpr few longer

/-- A decimal is rounded as the ratio of its digits to the power of five of a quantum. -/
theorem nearestRank_shifted (digits unit places : Nat) :
    nearestRank (digits * tenTo (-(unit : Int) + places).toNat * twoTo unit)
        (tenTo (-(-(unit : Int) + places)).toNat) =
      nearestRank (digits * tenTo places) (Nat.pow 5 unit) := by
  apply nearestRank_congr (tenTo_pos _) (Nat.pow_pos (by decide))
  have powers : tenTo (-(unit : Int) + places).toNat * tenTo unit =
      tenTo places * tenTo (-(-(unit : Int) + places)).toNat := by
    rw [← tenTo_add, ← tenTo_add]
    congr 1
    omega
  calc digits * tenTo (-(unit : Int) + places).toNat * twoTo unit * Nat.pow 5 unit
      = digits * tenTo (-(unit : Int) + places).toNat * Nat.pow 5 unit * twoTo unit :=
        Nat.mul_right_comm ..
    _ = digits * (tenTo (-(unit : Int) + places).toNat * tenTo unit) := by
        rw [mul_five_pow_mul_twoTo, Nat.mul_assoc]
    _ = digits * tenTo places * tenTo (-(-(unit : Int) + places)).toNat := by
        rw [powers, Nat.mul_assoc]

section

variable {x : FiniteDouble} (nonzero : ¬ x.isZero)
include nonzero

/-- The nearer neighbour on the grid of seventeen digits reads back. -/
theorem onGrid_seventeen (tie : Tie) : (onGrid tie x 17).isSome := by
  have digits := digits_ofRank_ne_zero fun rank => nonzero (decide_eq_true rank)
  obtain ⟨unit, spelled, perUnit⟩ := exists_ofRank_eq x.rank
  unfold onGrid
  rw [spelled] at digits ⊢
  dsimp only at digits ⊢
  generalize exact : quanta x.rank * Nat.pow 5 unit = n at *
  generalize steps : (digitChars n).length - 17 = places
  obtain ⟨c, others, neighbours, least, near⟩ := exists_nearer tie ⟨n, -unit⟩ places
  dsimp only at neighbours least near
  have close : 2 * binade *
      (2 * ((c * tenTo places : Nat) - (n : Int)).natAbs) < n := by
    by_cases fine : places = 0
    · subst fine
      rw [tenTo_zero] at near ⊢
      have exact : ((c * 1 : Nat) - (n : Int)).natAbs = 0 := by omega
      rw [exact]
      exact Nat.pos_of_ne_zero digits
    · have many : tenTo (16 + places) ≤ n := tenTo_le_of_lt_length (by omega) (by omega)
      have power : 2 * binade < tenTo 16 := by decide
      calc 2 * binade * (2 * ((c * tenTo places : Nat) - (n : Int)).natAbs)
          ≤ 2 * binade * tenTo places := Nat.mul_le_mul_left _ near
        _ < tenTo 16 * tenTo places := Nat.mul_lt_mul_of_pos_right power (tenTo_pos _)
        _ ≤ n := by rwa [← tenTo_add]
  have some : c ≠ 0 := by
    rintro rfl
    have far : ((0 * tenTo places : Nat) - (n : Int)).natAbs = n := by omega
    rw [far] at close
    have more : 1 * n ≤ 2 * binade * (2 * n) := Nat.mul_le_mul (by decide) (by omega)
    omega
  have rank : nearestRank (c * tenTo places) (Nat.pow 5 unit) = x.rank := by
    have pos : 0 < Nat.pow 5 unit := Nat.pow_pos (by decide)
    apply nearestRank_eq_of_near pos
    rwa [gap, exact, ← Int.natAbs_neg, Int.neg_sub]
  have back : (Decimal.mk c (-unit + places)).readsAs x := by
    apply decide_eq_true
    rw [toDouble, Double.ofDecimal_eq _ some, perUnit]
    exact Double.ofQuanta_of_rank x ((nearestRank_shifted c unit places).trans rank)
  simp only [neighbours, List.find?_cons, back, Option.isSome_some]

/-- The shortest decimal of a number has at most seventeen digits. -/
theorem digits_shortest_le (tie : Tie) : (shortest tie x).digits ≤ tenTo 17 := by
  have room : 17 < 1 + 17 := by decide
  obtain ⟨count, _, most, d, found, search⟩ :=
    exists_findSome?_range' (by decide : 1 ≤ 17) room (onGrid_seventeen nonzero tie)
  rw [shortest_eq, search, Option.getD_some]
  have near := digits_le_of_mem_neighbours (List.mem_of_find?_eq_some found)
  have size := lt_tenTo_length (ofRank x.rank).digits
  generalize (ofRank x.rank).digits = n at near size
  have whole : n / tenTo ((digitChars n).length - count) < tenTo count := by
    apply Nat.div_lt_of_lt_mul
    calc n < tenTo (digitChars n).length := size
      _ ≤ tenTo ((digitChars n).length - count + count) := tenTo_le_tenTo (by omega)
      _ = tenTo ((digitChars n).length - count) * tenTo count := tenTo_add _ _
  calc d.digits ≤ n / tenTo ((digitChars n).length - count) + 1 := near
    _ ≤ tenTo count := whole
    _ ≤ tenTo 17 := tenTo_le_tenTo most

end

end Decimal

end BoardRollup
