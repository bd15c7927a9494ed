import BoardRollup.Number.Numeral
import BoardRollup.Proofs.WholeNumbers
import BoardRollup.Proofs.WrittenDecimals

/-!
# Whole numbers are written digit by digit

The shortest decimal of a natural number of at most `2 ^ 53` is the number itself without its
trailing zeros: on a coarser grid the neighbours are whole numbers that are exact too, so none of
them is read back as another number. Written out, with its zeros in their places, it is the usual
decimal notation, and an integer is written as it is everywhere else.
-/

namespace BoardRollup

open Binary64

theorem FiniteDouble.ext_quanta {x y : FiniteDouble} (sign : x.negative = y.negative)
    (quanta : x.quanta = y.quanta) : x = y := by
  obtain ⟨negative, rank⟩ := x
  obtain ⟨negative', rank'⟩ := y
  obtain rfl : negative = negative' := sign
  have same : rank.val = rank'.val := quanta_injective quanta
  rw [Fin.ext same]

namespace Decimal

theorem digitChars_mul_tenTo {n : Nat} (nonzero : n ≠ 0) (places : Nat) :
    digitChars (n * tenTo places) = digitChars n ++ List.replicate places '0' := by
  induction places with
  | zero => rw [tenTo_zero, Nat.mul_one, List.replicate_zero, List.append_nil]
  | succ places ih =>
    have pos : 0 < n * tenTo places := Nat.mul_pos (Nat.pos_of_ne_zero nonzero) (tenTo_pos places)
    have last : digitChars (10 * (n * tenTo places) + 0) =
        digitChars (n * tenTo places) ++ digitChars 0 :=
      (Nat.toDigits_append_toDigits (by decide) pos (by decide)).symm
    rw [tenTo_succ, Nat.mul_left_comm, List.replicate_succ', ← List.append_assoc, ← ih]
    exact last

/-- A decimal without places is read as the number nearest to a natural number. -/
theorem toDouble_whole (digits places : Nat) (negative : Bool) :
    (Decimal.mk digits places).toDouble negative =
      .ofQuanta negative (digits * tenTo places * quantaPerUnit) 1 := by
  rw [toDouble]
  by_cases zero : digits = 0
  · subst zero
    rw [Nat.zero_mul, Nat.zero_mul, Double.ofDecimal, if_pos rfl]
    rfl
  · have none : (-(places : Int)).toNat = 0 := by omega
    rw [Double.ofDecimal_eq negative zero, none, Int.toNat_natCast, tenTo_zero]

theorem mem_neighbours_whole {tie : Tie} {n places : Nat} {d : Decimal}
    (mem : d ∈ (Decimal.mk n 0).neighbours tie places) :
    d = ⟨n / tenTo places, places⟩ ∨ d = ⟨n / tenTo places + 1, places⟩ := by
  unfold neighbours at mem
  simp only [Int.zero_add] at mem
  grind

/-- A number that is a point of the grid comes first among its neighbours. -/
theorem neighbours_of_point (tie : Tie) {n places : Nat} (point : n % tenTo places = 0) :
    (Decimal.mk n 0).neighbours tie places =
      [⟨n / tenTo places, places⟩, ⟨n / tenTo places + 1, places⟩] := by
  unfold neighbours
  simp only [Int.zero_add]
  rw [point, Nat.mul_zero, if_pos (tenTo_pos places)]

/-- The neighbours of a decimal do not depend on zeros at its end. -/
theorem neighbours_append_zeros (tie : Tie) (digits zeros places : Nat) (exponent : Int) :
    (Decimal.mk (digits * tenTo zeros) (exponent - zeros)).neighbours tie (zeros + places) =
      (Decimal.mk digits exponent).neighbours tie places := by
  have whole : digits * tenTo zeros / tenTo (zeros + places) = digits / tenTo places := by
    rw [tenTo_add, Nat.mul_comm (tenTo zeros)]
    exact Nat.mul_div_mul_right _ _ (tenTo_pos zeros)
  have rest : 2 * (digits * tenTo zeros % tenTo (zeros + places)) =
      2 * (digits % tenTo places) * tenTo zeros := by
    rw [tenTo_add, Nat.mul_comm (tenTo zeros), Nat.mul_mod_mul_right, Nat.mul_assoc]
  have unit : tenTo (zeros + places) = tenTo places * tenTo zeros := by
    rw [tenTo_add, Nat.mul_comm]
  have scale : exponent - zeros + (zeros + places : Nat) = exponent + places := by omega
  unfold neighbours
  simp only [whole, rest, scale]
  simp only [unit, Nat.mul_lt_mul_right (tenTo_pos zeros)]

/-- The next point of a grid above a number that is none itself has a rank as well. -/
theorem fits_next_point {n places : Nat} (most : n ≤ 2 * binade) (few : places ≤ 15)
    (point : n % tenTo places ≠ 0) : Fits ((n / tenTo places + 1) * tenTo places) := by
  have below : n / tenTo places * tenTo places ≤ n := Nat.div_mul_le_self n _
  have above : (n / tenTo places + 1) * tenTo places =
      n / tenTo places * tenTo places + tenTo places := Nat.succ_mul _ _
  have power : tenTo places ≤ tenTo 15 := Nat.pow_le_pow_right (by decide) few
  have small : tenTo 15 < 2 * binade := by decide
  obtain ⟨fewer, rfl⟩ : ∃ fewer, places = fewer + 1 := by
    refine Nat.exists_eq_succ_of_ne_zero ?_
    rintro rfl
    exact point (Nat.mod_one n)
  refine .inr ⟨?_, by omega⟩
  rw [tenTo_succ, Nat.mul_left_comm]
  omega

section

variable {x : FiniteDouble} {n : Nat} (quanta : x.quanta = n * quantaPerUnit)
include quanta

/-- Of the decimals without places that fit a number is read from its own. -/
theorem readsAs_whole_iff {digits places : Nat} (fits : Fits (digits * tenTo places)) :
    (Decimal.mk digits places).readsAs x ↔ digits * tenTo places = n := by
  obtain ⟨y, value, sign, own⟩ := Double.ofQuanta_whole x.negative fits
  rw [readsAs, toDouble_whole, value, decide_eq_true_iff, Double.finite.injEq]
  constructor
  · rintro rfl
    exact Nat.eq_of_mul_eq_mul_right quantaPerUnit_pos (own.symm.trans quanta)
  · intro same
    apply FiniteDouble.ext_quanta sign
    rw [own, same, quanta]

/-- On a grid of whole numbers, a number is found where it is a point of the grid. -/
theorem find?_neighbours_whole (tie : Tie) (most : n ≤ 2 * binade) {places : Nat}
    (few : places ≤ 15) :
    ((Decimal.mk n 0).neighbours tie places).find? (·.readsAs x) =
      if n % tenTo places = 0 then some ⟨n / tenTo places, places⟩ else none := by
  have parts := Nat.div_add_mod n (tenTo places)
  rw [Nat.mul_comm] at parts
  by_cases point : n % tenTo places = 0
  · have own : n / tenTo places * tenTo places = n := by omega
    have fits : Fits (n / tenTo places * tenTo places) := .inl (own.symm ▸ most)
    rw [if_pos point, neighbours_of_point tie point]
    exact List.find?_cons_of_pos ((readsAs_whole_iff quanta fits).mpr own)
  · rw [if_neg point, List.find?_eq_none]
    intro d mem
    have rest : n % tenTo places < tenTo places := Nat.mod_lt n (tenTo_pos places)
    rcases mem_neighbours_whole mem with rfl | rfl
    · have fits : Fits (n / tenTo places * tenTo places) := .inl (by omega)
      rw [readsAs_whole_iff quanta fits]
      omega
    · have above : (n / tenTo places + 1) * tenTo places =
          n / tenTo places * tenTo places + tenTo places := Nat.succ_mul _ _
      rw [readsAs_whole_iff quanta (fits_next_point most few point)]
      omega

end

/-- The neighbour with a number of digits that is read back. -/
def onGrid (tie : Tie) (x : FiniteDouble) (count : Nat) : Option Decimal :=
  ((ofRank x.rank).neighbours tie ((digitChars (ofRank x.rank).digits).length - count)).find?
    (·.readsAs x)

theorem shortest_eq (tie : Tie) (x : FiniteDouble) :
    shortest tie x = ((List.range' 1 17).findSome? (onGrid tie x)).getD (ofRank x.rank) := rfl

/-- A search through a range ends at the latest where something is found. -/
theorem exists_findSome?_range' {α : Type} {f : Nat → Option α} {start size k : Nat}
    (least : start ≤ k) (most : k < start + size) (found : (f k).isSome) :
    ∃ count, start ≤ count ∧ count ≤ k ∧
      ∃ a, f count = some a ∧ (List.range' start size).findSome? f = some a := by
  induction size generalizing start with
  | zero => omega
  | succ size ih =>
    rw [List.range'_succ, List.findSome?_cons]
    cases here : f start with
    | some a => exact ⟨start, Nat.le_refl _, least, a, here, rfl⟩
    | none =>
      have later : start ≠ k := by
        rintro rfl
        rw [here] at found
        cases found
      have next : start + 1 ≤ k := by omega
      obtain ⟨count, after, before, result⟩ := ih next (by omega)
      exact ⟨count, Nat.le_of_succ_le after, before, result⟩

theorem length_digitChars_le {n : Nat} (most : n ≤ 2 * binade) : (digitChars n).length ≤ 16 := by
  rw [digitChars, Nat.length_toDigits_le_iff (by decide) (by decide)]
  exact Nat.lt_of_le_of_lt most (by decide)

section

variable {x : FiniteDouble} {n : Nat} (quanta : x.quanta = n * quantaPerUnit) (nonzero : n ≠ 0)
  (most : n ≤ 2 * binade)
include quanta nonzero most

/-- With no more digits than the number has all points of the grid are whole numbers. -/
theorem onGrid_whole (tie : Tie) {count : Nat} (some : 0 < count)
    (below : count ≤ (digitChars n).length) :
    onGrid tie x count =
      if n % tenTo ((digitChars n).length - count) = 0 then
        .some ⟨n / tenTo ((digitChars n).length - count), ((digitChars n).length - count : Nat)⟩
      else none := by
  obtain ⟨zeros, spelled, unit⟩ := exists_ofRank_eq x.rank
  have exact : ofRank x.rank = ⟨n * tenTo zeros, 0 - zeros⟩ := by
    have value : Binary64.quanta x.rank = n * twoTo zeros := unit ▸ quanta
    rw [spelled, value, Nat.mul_right_comm, mul_five_pow_mul_twoTo, Int.zero_sub]
  have length : (digitChars (n * tenTo zeros)).length = (digitChars n).length + zeros := by
    rw [digitChars_mul_tenTo nonzero, List.length_append, List.length_replicate]
  have places : (digitChars n).length + zeros - count =
      zeros + ((digitChars n).length - count) := by omega
  have digits := length_digitChars_le most
  rw [onGrid, exact, length, places, neighbours_append_zeros,
    find?_neighbours_whole quanta tie most (by omega)]

/-- The shortest decimal of a natural number has its value and no places. -/
theorem shortest_whole (tie : Tie) :
    ∃ digits places : Nat, shortest tie x = ⟨digits, places⟩ ∧ digits * tenTo places = n := by
  have some : 0 < (digitChars n).length := Nat.length_toDigits_pos
  have few := length_digitChars_le most
  have own : (onGrid tie x (digitChars n).length).isSome := by
    rw [onGrid_whole quanta nonzero most tie some (Nat.le_refl _), Nat.sub_self, tenTo_zero,
      if_pos (Nat.mod_one n)]
    rfl
  have room : (digitChars n).length < 1 + 17 := by omega
  obtain ⟨count, least, below, d, found, search⟩ := exists_findSome?_range' some room own
  rw [onGrid_whole quanta nonzero most tie least below] at found
  rw [shortest_eq, search, Option.getD_some]
  split at found
  · next point =>
    exact ⟨_, _, (Option.some.inj found).symm,
      Nat.div_mul_cancel (Nat.dvd_of_mod_eq_zero point)⟩
  · cases found

end

end Decimal

namespace Layout

/-- A natural number that is written out has its own digits. -/
theorem writeDecimal_whole (layout : Layout) {digits places : Nat} (nonzero : digits ≠ 0)
    (least : layout.least ≤ 0)
    (greatest : (Decimal.digitChars (digits * tenTo places)).length ≤ layout.greatest + 1) :
    layout.writeDecimal ⟨digits, places⟩ =
      Decimal.digitChars (digits * tenTo places) ++ layout.wholeMark.toList := by
  have written := significant_append (Decimal.digitChars digits)
  have nonempty := significant_ne_nil nonzero
  rw [Decimal.digitChars_mul_tenTo nonzero] at greatest ⊢
  unfold writeDecimal
  generalize significant (Decimal.digitChars digits) = parts at *
  obtain ⟨kept, dropped⟩ := parts
  simp only at nonempty written ⊢
  rw [← written] at greatest ⊢
  have some : 0 < kept.length := List.length_pos_iff.mpr nonempty
  have length : (kept ++ List.replicate dropped '0' ++ List.replicate places '0').length =
      kept.length + dropped + places := by simp only [List.length_append, List.length_replicate]
  have whole : (0 : Int) ≤ places + dropped := by omega
  have zeros : ((places : Int) + dropped).toNat = dropped + places := by omega
  rw [length] at greatest
  rw [if_pos (by omega), positional, if_pos whole, zeros, List.append_assoc kept _ (.replicate _ _),
    List.replicate_append_replicate]

end Layout

theorem toList_toString (z : Int) :
    (toString z).toList = Layout.minus (z < 0) ++ Decimal.digitChars z.natAbs := by
  rw [Int.toString_eq_repr, Int.repr_eq_if]
  by_cases below : z < 0
  · have size : (-z).toNat = z.natAbs := by omega
    rw [if_neg (Int.not_le.mpr below), decide_eq_true below, String.toList_append, size,
      Nat.toList_repr]
    rfl
  · have size : z.toNat = z.natAbs := by omega
    rw [if_pos (Int.not_lt.mp below), decide_eq_false below, size, Nat.toList_repr]
    rfl

/-- An integer is written in the usual notation. -/
theorem Numeral.write_ofInt {z : Int} (small : z.natAbs ≤ 2 * binade) :
    write (.ofInt z) = toString z := by
  by_cases zero : z = 0
  · subst zero
    rw [Double.ofInt_zero]
    rfl
  · obtain ⟨x, value, sign, whole⟩ := Double.ofInt_whole small
    have nonzero : z.natAbs ≠ 0 := Int.natAbs_ne_zero.mpr zero
    have shown : ¬x.isZero = true := by
      rw [← FiniteDouble.signedQuanta_eq_zero_iff, whole]
      exact Int.mul_ne_zero zero (Int.natCast_ne_zero.mpr (Nat.ne_of_gt quantaPerUnit_pos))
    obtain ⟨digits, places, shortest, spelled⟩ :=
      Decimal.shortest_whole whole.quanta_eq nonzero small layout.tie
    have some : digits ≠ 0 := by
      rintro rfl
      rw [Nat.zero_mul] at spelled
      exact nonzero spelled.symm
    have greatest : ((Decimal.digitChars (digits * tenTo places)).length : Int) ≤
        layout.greatest + 1 := by
      have few := Decimal.length_digitChars_le small
      have room : layout.greatest = 20 := rfl
      rw [spelled]
      omega
    have written : layout.write x = Layout.minus (z < 0) ++ Decimal.digitChars z.natAbs := by
      have least : layout.least ≤ 0 := by decide
      have mark : layout.wholeMark.toList = [] := rfl
      rw [Layout.write, if_neg shown, sign, shortest,
        Layout.writeDecimal_whole layout some least greatest, spelled, mark, List.append_nil]
    rw [value, ← String.toList_inj, toList_toString, ← written]
    exact String.toList_ofList

end BoardRollup
