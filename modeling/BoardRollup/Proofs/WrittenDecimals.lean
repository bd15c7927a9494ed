import BoardRollup.Number.Layout
import BoardRollup.Proofs.Rounding
import Mathlib.Data.List.TakeWhile

/-!
# Written decimals

A number that is not zero is written as whole digits, a fraction and a scale, of which
the last two may be missing. Whichever way it is laid out, those parts have the magnitude of the
decimal: zeros that the layout adds or takes away stand for powers of ten. They have no more digits
than the decimal itself, or than are written out at most. So what is written for a number is read as
the number, since the shortest decimal reads back by the way it is found.
-/

namespace BoardRollup

namespace Decimal

theorem valueOf_digitChars (n : Nat) : valueOf (digitChars n) = n :=
  Nat.ofDigitChars_ten_toDigits

theorem valueOf_replicate_zero (n : Nat) : valueOf (List.replicate n '0') = 0 := by
  have value : Nat.ofDigitChars 10 (List.replicate n '0') 0 = 10 ^ n * 0 :=
    Nat.ofDigitChars_replicate_zero
  exact value

theorem valueOf_append_zeros (cs : List Char) (n : Nat) :
    valueOf (cs ++ List.replicate n '0') = valueOf cs * tenTo n := by
  induction n with
  | zero => rw [List.replicate_zero, List.append_nil, tenTo_zero, Nat.mul_one]
  | succ n ih =>
    have last : valueOf (cs ++ List.replicate n '0' ++ ['0']) =
        10 * valueOf (cs ++ List.replicate n '0') := by
      rw [valueOf, List.foldl_append]
      rfl
    rw [List.replicate_succ', ← List.append_assoc, last, ih, tenTo_succ, Nat.mul_left_comm]

theorem valueOf_zeros_append (n : Nat) (cs : List Char) :
    valueOf (List.replicate n '0' ++ cs) = valueOf cs := by
  have start : valueOf (List.replicate n '0') = 0 := valueOf_replicate_zero n
  rw [valueOf, List.foldl_append]
  exact congrArg (fun value => cs.foldl _ value) start

/-- Digits write a number below the power of ten of their count. -/
theorem foldl_digits_lt {cs : List Char} (digits : ∀ c ∈ cs, c.isDigit) (start : Nat) :
    cs.foldl (fun n c => 10 * n + (c.toNat - '0'.toNat)) start < (start + 1) * tenTo cs.length := by
  induction cs generalizing start with
  | nil => simp
  | cons c cs ih =>
    have digit := Char.isDigit_iff_toNat.mp (digits c List.mem_cons_self)
    have most : '9'.toNat = '0'.toNat + 9 := rfl
    have rest := ih (fun d mem => digits d (List.mem_cons_of_mem c mem))
      (10 * start + (c.toNat - '0'.toNat))
    rw [List.foldl_cons, List.length_cons, tenTo_succ, Nat.mul_left_comm, ← Nat.mul_assoc]
    exact Nat.lt_of_lt_of_le rest (Nat.mul_le_mul_right _ (by omega))

theorem valueOf_lt {cs : List Char} (digits : ∀ c ∈ cs, c.isDigit) :
    valueOf cs < tenTo cs.length := by
  simpa [valueOf] using foldl_digits_lt digits 0

theorem isDigit_of_mem_digitChars {n : Nat} {c : Char} (mem : c ∈ digitChars n) : c.isDigit :=
  Nat.isDigit_of_mem_toDigits (by decide) (by decide) mem

theorem isDigit_of_mem_zero : ∀ c ∈ ['0'], c.isDigit := by
  intro c mem
  rw [List.mem_singleton.mp mem]
  rfl

/-- The first digit of a number that is not zero is not zero. -/
theorem head?_digitChars_ne_zero {n : Nat} (nonzero : n ≠ 0) :
    (digitChars n).head? ≠ some '0' := by
  induction n using Nat.strongRecOn with
  | ind n ih =>
    by_cases one : n < 10
    · have digit : ∀ n < 10, n ≠ 0 → (digitChars n).head? ≠ some '0' := by decide
      exact digit n one nonzero
    · have split : digitChars n = digitChars (n / 10) ++ [(n % 10).digitChar] :=
        Nat.toDigits_of_base_le (by decide) (by omega)
      have higher : digitChars (n / 10) ≠ [] := Nat.toDigits_ne_nil
      obtain ⟨c, rest, shape⟩ := List.exists_cons_of_ne_nil higher
      have first := ih (n / 10) (by omega) (by omega)
      rw [split, shape]
      rwa [shape] at first

end Decimal

/-- What is written for a magnitude: whole digits without a leading zero, and a fraction and
a scale if there are any. -/
structure Spelling where
  whole : List Char
  fraction : Option (List Char)
  scale : Option Int
  whole_digits : ∀ c ∈ whole, c.isDigit
  whole_ne_nil : whole ≠ []
  whole_leading : whole.head? = some '0' → whole.length ≤ 1
  fraction_digits : ∀ digits ∈ fraction, ∀ c ∈ digits, c.isDigit
  fraction_ne_nil : ∀ digits ∈ fraction, digits ≠ []

namespace Spelling

/-- A fraction after its point. -/
def pointed : Option (List Char) → List Char
  | some digits => '.' :: digits
  | none => []

/-- A scale after its mark, with its sign. -/
def scaled : Option Int → List Char
  | some n => 'e' :: (if n < 0 then '-' else '+') :: Decimal.digitChars n.natAbs
  | none => []

def text (s : Spelling) : List Char := s.whole ++ (pointed s.fraction ++ scaled s.scale)

theorem text_ne_nil (s : Spelling) : s.text ≠ [] :=
  List.append_ne_nil_of_left_ne_nil s.whole_ne_nil _

def decimal (s : Spelling) : Decimal :=
  .ofParts s.whole (s.fraction.getD []) (s.scale.getD 0)

/-- The text shows that the number is not kept as a whole number. -/
def IsFloat (s : Spelling) : Prop := s.fraction.isSome ∨ s.scale.isSome

end Spelling

namespace Decimal

/-- Zeros after the digits count like a greater exponent. -/
theorem same_append_zeros (cs : List Char) (n : Nat) (exponent : Int) :
    Same ⟨valueOf (cs ++ List.replicate n '0'), exponent⟩ ⟨valueOf cs, exponent + n⟩ := by
  rw [valueOf_append_zeros]
  exact same_scale (valueOf cs) n exponent

end Decimal

namespace Spelling

/-- The parts have the magnitude of a decimal, and no more digits than it has or than fit a limit. -/
structure Spells (s : Spelling) (d : Decimal) (limit : Nat) : Prop where
  same : s.decimal.Same d
  few : s.decimal.digits ≤ max d.digits limit

/-- Parts that spell a decimal spell it in each form that has no fewer digits. -/
theorem Spells.trans {s : Spelling} {d e : Decimal} {limit wider : Nat} (spells : s.Spells d limit)
    (same : d.Same e) (digits : d.digits ≤ e.digits) (wide : limit ≤ wider) :
    s.Spells e wider where
  same := spells.same.trans same
  few := by
    have few := spells.few
    omega

/-- The parts write the text and spell a decimal. -/
structure Writes (s : Spelling) (text : List Char) (d : Decimal) (limit : Nat) : Prop
    extends s.Spells d limit where
  text_eq : s.text = text

/-- Parts that write a decimal as it stands have its magnitude and its digits. -/
theorem writes_of_eq {s : Spelling} {text : List Char} {d : Decimal} (text_eq : s.text = text)
    (decimal : s.decimal = d) (limit : Nat) : s.Writes text d limit where
  text_eq := text_eq
  same := by rw [decimal]; rfl
  few := by rw [decimal]; exact Nat.le_max_left _ _

end Spelling

namespace Layout

section Parts

variable {ds : List Char} (digits : ∀ c ∈ ds, c.isDigit)
include digits

/-- Zeros fill up to the point, and one may stand behind it. -/
theorem whole_spelled (layout : Layout) (mark : layout.wholeMark = "" ∨ layout.wholeMark = ".0")
    (nonempty : ds ≠ []) {zeros : Nat}
    (leading : ds.head? = some '0' → ds.length + zeros ≤ 1) :
    ∃ s : Spelling,
      s.Writes (ds ++ List.replicate zeros '0' ++ layout.wholeMark.toList)
        ⟨Decimal.valueOf ds, zeros⟩ (tenTo (ds.length + zeros + 1)) ∧
      (layout.wholeMark = ".0" → s.IsFloat) := by
  have whole_digits : ∀ c ∈ ds ++ List.replicate zeros '0', c.isDigit := by
    intro c mem
    rcases List.mem_append.mp mem with mem | mem
    · exact digits c mem
    · rw [List.eq_of_mem_replicate mem]
      decide
  have whole_ne_nil : ds ++ List.replicate zeros '0' ≠ [] :=
    List.append_ne_nil_of_left_ne_nil nonempty _
  have whole_leading : (ds ++ List.replicate zeros '0').head? = some '0' →
      (ds ++ List.replicate zeros '0').length ≤ 1 := by
    rw [List.length_append, List.length_replicate]
    obtain ⟨d, rest, rfl⟩ := List.exists_cons_of_ne_nil nonempty
    exact leading
  have few {more : Nat} (below : more ≤ zeros + 1) :
      Decimal.valueOf (ds ++ List.replicate more '0') ≤ tenTo (ds.length + zeros + 1) := by
    rw [Decimal.valueOf_append_zeros]
    calc Decimal.valueOf ds * tenTo more
        ≤ tenTo ds.length * tenTo more :=
          Nat.mul_le_mul_right _ (Nat.le_of_lt (Decimal.valueOf_lt digits))
      _ = tenTo (ds.length + more) := (tenTo_add _ _).symm
      _ ≤ tenTo (ds.length + zeros + 1) := tenTo_le_tenTo (by omega)
  rcases mark with bare | point
  · refine ⟨⟨ds ++ List.replicate zeros '0', none, none, whole_digits, whole_ne_nil,
      whole_leading, by simp, by simp⟩, ⟨⟨?same, ?few⟩, ?text⟩, ?float⟩
    case same =>
      have same := Decimal.same_append_zeros ds zeros 0
      rw [Int.zero_add] at same
      simpa [Spelling.decimal, Decimal.ofParts] using same
    case few =>
      refine Nat.le_trans ?_ (Nat.le_max_right _ _)
      simpa [Spelling.decimal, Decimal.ofParts] using few (Nat.le_succ zeros)
    case text =>
      rw [bare]
      rfl
    case float =>
      intro point
      rw [bare] at point
      exact absurd point (by decide)
  · have shape : ds ++ List.replicate zeros '0' ++ ['0'] =
        ds ++ List.replicate (zeros + 1) '0' := by
      rw [List.replicate_succ', List.append_assoc]
    refine ⟨⟨ds ++ List.replicate zeros '0', some ['0'], none, whole_digits, whole_ne_nil,
      whole_leading, by simp, by simp⟩, ⟨⟨?same, ?few⟩, ?text⟩, fun _ => .inl rfl⟩
    case same =>
      have same := Decimal.same_append_zeros ds (zeros + 1) (-1)
      have exponent : (-1 : Int) + (zeros + 1 : Nat) = zeros := by omega
      rw [exponent, ← shape] at same
      exact same
    case few =>
      refine Nat.le_trans ?_ (Nat.le_max_right _ _)
      change Decimal.valueOf (ds ++ List.replicate zeros '0' ++ ['0']) ≤ _
      rw [shape]
      exact few (Nat.le_refl _)
    case text =>
      rw [point]
      rfl

/-- The point stands among the digits. -/
theorem split_spelled {places : Nat} (leading : ds.head? ≠ some '0') (some : 0 < places)
    (fewer : places < ds.length) (limit : Nat) :
    ∃ s : Spelling,
      s.Writes (ds.take (ds.length - places) ++ '.' :: ds.drop (ds.length - places))
        ⟨Decimal.valueOf ds, -places⟩ limit ∧ s.IsFloat := by
  have left : (ds.take (ds.length - places)).length = ds.length - places :=
    List.length_take_of_le (Nat.sub_le _ _)
  have right : (ds.drop (ds.length - places)).length = places := by
    rw [List.length_drop]
    omega
  have whole_ne_nil : ds.take (ds.length - places) ≠ [] := by
    rw [← List.length_pos_iff]
    omega
  have fraction_ne_nil : ds.drop (ds.length - places) ≠ [] := by
    rw [← List.length_pos_iff]
    omega
  have whole_leading : (ds.take (ds.length - places)).head? ≠ Option.some '0' := by
    rwa [List.head?_take, if_neg (by omega)]
  refine ⟨⟨ds.take (ds.length - places), Option.some (ds.drop (ds.length - places)), none,
    fun c mem => digits c (List.mem_of_mem_take mem), whole_ne_nil,
    fun zero => absurd zero whole_leading, ?_, ?_⟩, Spelling.writes_of_eq ?_ ?_ limit, .inl rfl⟩
  · rintro _ ⟨⟩ c mem
    exact digits c (List.mem_of_mem_drop mem)
  · rintro _ ⟨⟩
    exact fraction_ne_nil
  · simp only [Spelling.text, Spelling.pointed, Spelling.scaled, List.append_nil]
  · simp only [Spelling.decimal, Decimal.ofParts, Option.getD_some, Option.getD_none,
      List.take_append_drop, right, Int.zero_sub]

/-- The point stands before the digits and the zeros that fill up to it. -/
theorem fraction_spelled (nonempty : ds ≠ []) (zeros limit : Nat) :
    ∃ s : Spelling,
      s.Writes ('0' :: '.' :: (List.replicate zeros '0' ++ ds))
        ⟨Decimal.valueOf ds, -(zeros + ds.length : Nat)⟩ limit ∧ s.IsFloat := by
  refine ⟨⟨['0'], some (List.replicate zeros '0' ++ ds), none, Decimal.isDigit_of_mem_zero,
    List.cons_ne_nil _ _, fun _ => Nat.le_refl 1, ?_, ?_⟩, Spelling.writes_of_eq ?_ ?_ limit,
    .inl rfl⟩
  · rintro _ ⟨⟩ c mem
    rcases List.mem_append.mp mem with mem | mem
    · rw [List.eq_of_mem_replicate mem]
      decide
    · exact digits c mem
  · rintro _ ⟨⟩
    exact List.append_ne_nil_of_right_ne_nil _ nonempty
  · simp only [Spelling.text, Spelling.pointed, Spelling.scaled, List.append_nil,
      List.singleton_append]
  · have value : Decimal.valueOf ('0' :: (List.replicate zeros '0' ++ ds)) =
        Decimal.valueOf ds := Decimal.valueOf_zeros_append (zeros + 1) ds
    simp only [Spelling.decimal, Decimal.ofParts, Option.getD_some, Option.getD_none,
      List.singleton_append, value, List.length_append, List.length_replicate, Int.zero_sub]

/-- One digit stands before the point, and the scale is that of this digit. -/
theorem scientific_spelled (nonempty : ds ≠ []) (exponent : Int) (limit : Nat) :
    ∃ s : Spelling,
      s.Writes (scientific ds (exponent + ds.length - 1)) ⟨Decimal.valueOf ds, exponent⟩ limit ∧
        s.IsFloat := by
  obtain ⟨d, rest, shape⟩ := List.exists_cons_of_ne_nil nonempty
  subst shape
  have first : ∀ c ∈ [d], c.isDigit := by
    intro c mem
    exact digits c (List.mem_of_mem_take (i := 1) mem)
  cases rest with
  | nil =>
    refine ⟨⟨[d], none, some (exponent + 1 - 1), first, by simp, fun _ => Nat.le_refl 1,
      by simp, by simp⟩, Spelling.writes_of_eq rfl ?_ limit, .inr rfl⟩
    simp [Spelling.decimal, Decimal.ofParts]
  | cons e es =>
    refine ⟨⟨[d], some (e :: es), some (exponent + (d :: e :: es).length - 1), first, by simp,
      fun _ => Nat.le_refl 1, ?_, ?_⟩, Spelling.writes_of_eq rfl ?_ limit, .inr rfl⟩
    · rintro _ ⟨⟩ c mem
      exact digits c (List.mem_cons_of_mem d mem)
    · rintro _ ⟨⟩
      simp
    · have scale : exponent + (d :: e :: es).length - 1 - (e :: es).length = exponent := by
        simp only [List.length_cons]
        omega
      simp only [Spelling.decimal, Decimal.ofParts, Option.getD_some, List.singleton_append,
        scale]

/-- All places of a decimal are written in parts that spell it. -/
theorem positional_spelled (layout : Layout) (nonempty : ds ≠ []) (leading : ds.head? ≠ some '0')
    (mark : layout.wholeMark = "" ∨ layout.wholeMark = ".0") {exponent : Int} {most : Nat}
    (room : 0 ≤ exponent → ds.length + exponent.toNat < most) :
    ∃ s : Spelling,
      s.Writes (layout.positional ds exponent) ⟨Decimal.valueOf ds, exponent⟩ (tenTo most) ∧
        (layout.wholeMark = ".0" → s.IsFloat) := by
  unfold positional
  by_cases whole : 0 ≤ exponent
  · obtain ⟨zeros, rfl⟩ := Int.eq_ofNat_of_zero_le whole
    have room := room whole
    rw [if_pos whole]
    rw [Int.toNat_natCast] at room ⊢
    obtain ⟨s, writes, float⟩ :=
      whole_spelled digits layout mark nonempty fun zero => absurd zero leading
    have wider : tenTo (ds.length + zeros + 1) ≤ tenTo most := tenTo_le_tenTo room
    exact ⟨s, ⟨writes.toSpells.trans rfl (Nat.le_refl _) wider, writes.text_eq⟩, float⟩
  · obtain ⟨places, rfl⟩ := Int.exists_eq_neg_ofNat (by omega : exponent ≤ 0)
    rw [if_neg whole, Int.neg_neg, Int.toNat_natCast]
    by_cases fewer : places < ds.length
    · obtain ⟨s, writes, float⟩ := split_spelled digits leading (by omega) fewer (tenTo most)
      exact ⟨s, by simpa only [if_pos fewer] using writes, fun _ => float⟩
    · obtain ⟨s, writes, float⟩ :=
        fraction_spelled digits nonempty (places - ds.length) (tenTo most)
      have before : places - ds.length + ds.length = places := by omega
      rw [before] at writes
      exact ⟨s, by simpa only [if_neg fewer, List.cons_append, List.nil_append] using writes,
        fun _ => float⟩

end Parts

/-- The zeros that a layout takes away stood at the end. -/
theorem significant_append (digits : List Char) :
    (significant digits).1 ++ List.replicate (significant digits).2 '0' = digits := by
  have zeros : ∀ c ∈ (digits.reverse.takeWhile (· == '0')).reverse, c = '0' := by
    intro c mem
    have zero := List.mem_takeWhile_imp (p := (· == '0')) (List.mem_reverse.mp mem)
    exact eq_of_beq zero
  have parts : (significant digits).1 ++ (digits.reverse.takeWhile (· == '0')).reverse =
      digits := by
    rw [significant, ← List.reverse_append, List.takeWhile_append_dropWhile, List.reverse_reverse]
  have length : (significant digits).2 =
      (digits.reverse.takeWhile (· == '0')).reverse.length := by
    have sum := congrArg List.length parts
    rw [List.length_append] at sum
    have dropped : (significant digits).2 = digits.length - (significant digits).1.length := rfl
    omega
  rw [length, ← List.eq_replicate_of_mem zeros, parts]

/-- A number that is not zero keeps a digit when its trailing zeros go. -/
theorem significant_ne_nil {n : Nat} (nonzero : n ≠ 0) :
    (significant (Decimal.digitChars n)).1 ≠ [] := by
  intro nothing
  have written := significant_append (Decimal.digitChars n)
  rw [nothing, List.nil_append] at written
  have value : n = 0 := by
    rw [← Decimal.valueOf_digitChars n, ← written, Decimal.valueOf_replicate_zero]
  exact nonzero value

/-- How many digits are written out at most where there is no fraction, a zero behind the point
included. -/
def most (layout : Layout) : Nat := layout.greatest.toNat + 2

/-- A decimal that is not zero is written in parts that spell it. -/
theorem writeDecimal_spelled (layout : Layout)
    (mark : layout.wholeMark = "" ∨ layout.wholeMark = ".0") {d : Decimal}
    (nonzero : d.digits ≠ 0) :
    ∃ s : Spelling, s.Writes (layout.writeDecimal d) d (tenTo layout.most) ∧
      (layout.wholeMark = ".0" → s.IsFloat) := by
  have nonempty := significant_ne_nil nonzero
  have written := significant_append (Decimal.digitChars d.digits)
  have leading := Decimal.head?_digitChars_ne_zero nonzero
  unfold writeDecimal
  generalize significant (Decimal.digitChars d.digits) = parts at *
  obtain ⟨kept, dropped⟩ := parts
  simp only at nonempty written ⊢
  have digits : ∀ c ∈ kept, c.isDigit := by
    intro c mem
    refine Decimal.isDigit_of_mem_digitChars (n := d.digits) ?_
    rw [← written]
    exact List.mem_append_left _ mem
  have leading : kept.head? ≠ some '0' := by
    obtain ⟨first, rest, rfl⟩ := List.exists_cons_of_ne_nil nonempty
    rwa [← written] at leading
  have value : Decimal.valueOf (kept ++ List.replicate dropped '0') = d.digits := by
    rw [written, Decimal.valueOf_digitChars]
  have same : (Decimal.mk (Decimal.valueOf kept) (d.exponent + dropped)).Same d := by
    have scaled := Decimal.same_append_zeros kept dropped d.exponent
    rw [value] at scaled
    exact scaled.symm
  have fewer : Decimal.valueOf kept ≤ d.digits := by
    rw [← value, Decimal.valueOf_append_zeros]
    exact Nat.le_mul_of_pos_right _ (tenTo_pos dropped)
  have spelled {s : Spelling} {text : List Char}
      (writes : s.Writes text ⟨Decimal.valueOf kept, d.exponent + dropped⟩ (tenTo layout.most)) :
      s.Writes text d (tenTo layout.most) :=
    ⟨writes.toSpells.trans same fewer (Nat.le_refl _), writes.text_eq⟩
  split
  · next range =>
    have room : 0 ≤ d.exponent + dropped →
        kept.length + (d.exponent + dropped).toNat < layout.most := by
      have some : 0 < kept.length := List.length_pos_iff.mpr nonempty
      intro whole
      unfold most
      omega
    obtain ⟨s, writes, float⟩ := positional_spelled digits layout nonempty leading mark room
    exact ⟨s, spelled writes, float⟩
  · obtain ⟨s, writes, float⟩ :=
      scientific_spelled digits nonempty (d.exponent + dropped) (tenTo layout.most)
    exact ⟨s, spelled writes, fun _ => float⟩

end Layout

namespace Decimal

/-- Only zero reads what has no digits. -/
theorem digits_ne_zero_of_readsAs {d : Decimal} {x : FiniteDouble} (nonzero : ¬ x.isZero)
    (h : d.readsAs x) : d.digits ≠ 0 := by
  intro none
  have back : d.toDouble x.negative = .finite x := of_decide_eq_true h
  have zero : Double.zero x.negative = .finite x := by
    rwa [toDouble, Double.ofDecimal, if_pos none] at back
  have rank : x.rank.val = 0 := by
    rw [← Double.finite.inj zero]
  exact nonzero (decide_eq_true rank)

/-- The exact decimal of a number that is not zero has a digit. -/
theorem digits_ofRank_ne_zero {rank : Nat} (nonzero : rank ≠ 0) :
    (ofRank rank).digits ≠ 0 := by
  have quanta : Binary64.quanta rank ≠ 0 := mt Binary64.quanta_eq_zero_iff.mp nonzero
  have scale : ∀ n, Nat.pow 5 n ≠ 0 := fun n => Nat.ne_of_gt (Nat.pow_pos (by decide))
  exact Nat.mul_ne_zero quanta (scale 1074)

/-- The shortest decimal reads back, or it is the exact one. -/
theorem shortest_readsAs_or_eq (tie : Tie) (x : FiniteDouble) :
    (shortest tie x).readsAs x ∨ shortest tie x = ofRank x.rank := by
  unfold shortest
  generalize ofRank x.rank = exact
  extract_lets exact length onGrid
  cases search : (List.range' 1 17).findSome? onGrid with
  | none => exact .inr rfl
  | some d =>
    obtain ⟨count, _, found⟩ := List.exists_of_findSome?_eq_some search
    have back : d.readsAs x := List.find?_some (p := fun d => readsAs d x) found
    exact .inl back

variable {x : FiniteDouble} (nonzero : ¬ x.isZero)
include nonzero

theorem toDouble_shortest (tie : Tie) : (shortest tie x).toDouble x.negative = .finite x := by
  rcases shortest_readsAs_or_eq tie x with back | exact
  · exact of_decide_eq_true back
  · rw [exact]
    exact toDouble_ofRank x (digits_ofRank_ne_zero fun rank => nonzero (decide_eq_true rank))

theorem digits_shortest_ne_zero (tie : Tie) : (shortest tie x).digits ≠ 0 :=
  digits_ne_zero_of_readsAs nonzero (decide_eq_true (toDouble_shortest nonzero tie))

end Decimal

namespace Layout

/-- The decimal that is laid out for a number. -/
def decimalOf (layout : Layout) (x : FiniteDouble) : Decimal :=
  if x.isZero then ⟨0, 0⟩ else .shortest layout.tie x

theorem toDouble_decimalOf (layout : Layout) (x : FiniteDouble) :
    (layout.decimalOf x).toDouble x.negative = .finite x := by
  unfold decimalOf
  split
  · next zero =>
    have same : x = ⟨x.negative, ⟨0, by decide⟩⟩ := by
      obtain ⟨negative, rank⟩ := x
      exact congrArg (FiniteDouble.mk negative) (Fin.ext (of_decide_eq_true zero))
    exact congrArg Double.finite same.symm
  · next nonzero => exact Decimal.toDouble_shortest nonzero layout.tie

/-- Parts that spell the decimal of a number are nearest to the number. -/
theorem toDouble_of_spells {layout : Layout} {x : FiniteDouble} {s : Spelling} {limit : Nat}
    (spells : s.Spells (layout.decimalOf x) limit) : s.decimal.toDouble x.negative = .finite x :=
  (spells.same.toDouble x.negative).trans (layout.toDouble_decimalOf x)

/-- Where a number shows its sign, its text is that sign and parts that spell its decimal. -/
theorem write_spelled (layout : Layout) (mark : layout.wholeMark = "" ∨ layout.wholeMark = ".0")
    (x : FiniteDouble) (signed : layout.signedZero ∨ ¬ x.isZero) :
    ∃ s : Spelling, layout.write x = minus x.negative ++ s.text ∧
      s.Spells (layout.decimalOf x) (tenTo layout.most) ∧
        (layout.wholeMark = ".0" → s.IsFloat) := by
  unfold write decimalOf
  by_cases zero : x.isZero
  · have leading : ['0'].head? = some '0' → ['0'].length + 0 ≤ 1 := fun _ => Nat.le_refl 1
    obtain ⟨s, writes, float⟩ := whole_spelled Decimal.isDigit_of_mem_zero layout mark
      (List.cons_ne_nil _ _) leading
    have shown : layout.signedZero = true := signed.resolve_right (not_not_intro zero)
    have room : tenTo 2 ≤ tenTo layout.most := tenTo_le_tenTo (Nat.le_add_left 2 _)
    rw [if_pos zero, if_pos zero]
    refine ⟨s, ?_, writes.toSpells.trans rfl (Nat.le_refl _) room, float⟩
    rw [shown, Bool.true_and, writes.text_eq]
    rfl
  · have digits := Decimal.digits_shortest_ne_zero zero layout.tie
    obtain ⟨s, writes, float⟩ := writeDecimal_spelled layout mark digits
    rw [if_neg zero, if_neg zero]
    refine ⟨s, ?_, writes.toSpells, float⟩
    rw [writes.text_eq]

theorem write_ne_nil (layout : Layout) (mark : layout.wholeMark = "" ∨ layout.wholeMark = ".0")
    (x : FiniteDouble) : layout.write x ≠ [] := by
  unfold write
  split
  · exact List.append_ne_nil_of_right_ne_nil _ (List.cons_ne_nil _ _)
  · next nonzero =>
    have digits := Decimal.digits_shortest_ne_zero nonzero layout.tie
    obtain ⟨s, writes, _⟩ := writeDecimal_spelled layout mark digits
    rw [← writes.text_eq]
    exact List.append_ne_nil_of_right_ne_nil _ s.text_ne_nil

end Layout

end BoardRollup
