import BoardRollup.Proofs.Contributions
import BoardRollup.Proofs.WrittenNumerals
import BoardRollup.Proofs.WrittenStrings

/-!
# Sums that are added up again

A sum is written as a column value, and a cell that shows nothing but this value contributes the
text of the sum. The text is read back to the sum, so the cell adds it to a further sum.

There is one kind of sum of which this is not true. A running sum stays a number until it is
infinite and the infinity of the other sign is added to it, and from then on it is no number,
whatever follows. Its value still contributes a text, but this text is the word for no number and
adds nothing.
-/

namespace BoardRollup

namespace Double

theorem nan_add (x : Double) : .nan + x = .nan := by
  cases x <;> rfl

/-- A sum of two numbers is none exactly if opposite infinities are added. -/
theorem add_eq_nan_iff {x y : Double} (left : x ≠ .nan) (right : y ≠ .nan) :
    x + y = .nan ↔ ∃ negative, x = .infinite negative ∧ y = .infinite (!negative) := by
  cases x with
  | nan => exact absurd rfl left
  | infinite a =>
    cases y with
    | nan => exact absurd rfl right
    | infinite b => cases a <;> cases b <;> simp [add]
    | finite y => simp [add]
  | finite x =>
    cases y with
    | nan => exact absurd rfl right
    | infinite b => simp [add]
    | finite y =>
      have number : add (.finite x) (.finite y) ≠ .nan := by
        unfold add
        dsimp only
        split
        · nofun
        · exact ofQuanta_ne_nan _ _ _
      simp [number]

theorem foldl_add_nan (numbers : List Double) : numbers.foldl (· + ·) .nan = .nan := by
  induction numbers with
  | nil => rfl
  | cons n rest ih => rw [List.foldl_cons, nan_add, ih]

/-- A running sum ends as no number exactly if on the way it is infinite where the opposite
infinity is added. -/
theorem foldl_add_eq_nan_iff {numbers : List Double} (each : ∀ n ∈ numbers, n ≠ .nan)
    {start : Double} (number : start ≠ .nan) :
    numbers.foldl (· + ·) start = .nan ↔
      ∃ before after negative, numbers = before ++ .infinite (!negative) :: after ∧
        before.foldl (· + ·) start = .infinite negative := by
  induction numbers generalizing start with
  | nil => simp [number]
  | cons n rest ih =>
    have first : n ≠ .nan := each n List.mem_cons_self
    have others : ∀ n ∈ rest, n ≠ .nan := fun n mem => each n (List.mem_cons_of_mem _ mem)
    have opposite := add_eq_nan_iff number first
    rw [List.foldl_cons]
    by_cases lost : start + n = .nan
    · obtain ⟨negative, infinite, rfl⟩ := opposite.mp lost
      rw [lost, foldl_add_nan]
      exact iff_of_true rfl ⟨[], rest, negative, rfl, infinite⟩
    · rw [ih others lost]
      constructor
      · rintro ⟨before, after, negative, rfl, infinite⟩
        exact ⟨n :: before, after, negative, rfl, infinite⟩
      · rintro ⟨before, after, negative, split, infinite⟩
        cases before with
        | nil =>
          obtain ⟨rfl, -⟩ := List.cons.inj split
          exact absurd (opposite.mpr ⟨negative, infinite, rfl⟩) lost
        | cons m before =>
          obtain ⟨rfl, rfl⟩ := List.cons.inj split
          exact ⟨before, after, negative, rfl, infinite⟩

end Double

theorem Numeral.read_ne_nan {text : String} {x : Double} (shown : read text = some x) :
    x ≠ .nan := by
  rw [read, readTrimmed] at shown
  split at shown
  · obtain rfl := Option.some.inj shown
    rintro ⟨⟩
  · split at shown
    · next radix digits marked =>
      have most := (radixMark_eq_some_iff.mp marked).radix_le
      obtain ⟨n, -, rfl⟩ := (readRadix_eq_some_iff most).mp shown
      exact Double.ofQuanta_ne_nan _ _ _
    · rw [readSigned_eq] at shown
      split at shown
      · obtain rfl := Option.some.inj shown
        rintro ⟨⟩
      · obtain ⟨decimal, -, rfl⟩ := Option.map_eq_some_iff.mp shown
        exact Double.ofDecimal_ne_nan _ _ _

namespace Contributions

def numbers (cells : List (Option String)) : List Double := (counted cells).filterMap Numeral.read

/-- A running sum of numbers is infinite where the opposite infinity is added. -/
def Cancels (numbers : List Double) : Prop :=
  ∃ before after negative, numbers = before ++ .infinite (!negative) :: after ∧
    total? before = some (.infinite negative)

theorem total?_eq_some_iff {numbers : List Double} {sum : Double} :
    total? numbers = some sum ↔ numbers ≠ [] ∧ numbers.foldl (· + ·) (.zero false) = sum := by
  cases numbers <;> simp [total?]

theorem numbers_ne_nan (cells : List (Option String)) : ∀ n ∈ numbers cells, n ≠ .nan := by
  intro n mem
  obtain ⟨text, -, shown⟩ := List.mem_filterMap.mp mem
  exact Numeral.read_ne_nan shown

/-- A sum is no number exactly if infinities cancel. -/
theorem total?_eq_nan_iff {cells : List (Option String)} {sum : Double}
    (total : total? (numbers cells) = some sum) : sum = .nan ↔ Cancels (numbers cells) := by
  have ended := (total?_eq_some_iff.mp total).2
  have number : Double.zero false ≠ .nan := nofun
  rw [← ended, Double.foldl_add_eq_nan_iff (numbers_ne_nan cells) number]
  unfold Cancels
  refine exists_congr fun before => exists_congr fun after => exists_congr fun negative => ?_
  refine and_congr_right fun _ => ?_
  rw [total?_eq_some_iff]
  constructor
  · intro infinite
    refine ⟨?_, infinite⟩
    rintro rfl
    cases infinite
  · exact fun infinite => infinite.2

/-- A text that is there adds the number that it shows, and nothing if it shows none. -/
theorem sum_add (c : Contributions) {text : String} (nonempty : text ≠ "") :
    (c.add (some text)).sum =
      ((Numeral.read text).map (c.sum.getD (.zero false) + ·)).or c.sum := by
  unfold add
  dsimp only
  rw [if_neg nonempty]
  cases Numeral.read text <;> rfl

/-- What a cell with nothing but a written sum contributes. -/
theorem cellText_value {cells : List (Option String)} {v : Json}
    (present : (ofTexts cells).value = some v) {text : Option String} (blank : shown? text = none) :
    ∃ sum, total? (numbers cells) = some sum ∧ cellText text v = some (Numeral.write sum) := by
  rw [value_ofTexts] at present
  obtain ⟨sum, total, rfl⟩ := Option.map_eq_some_iff.mp present
  have nothing : text.filter (· ≠ "") = none := blank
  refine ⟨sum, total, ?_⟩
  rw [cellText, nothing, Contents.ofValue_str, Contents.ofString_compact_str]

/-- A cell that shows nothing but a written sum contributes a text. It is read back to the sum and
adds it to a further sum, unless infinities cancelled in the sum: then the text is the word for no
number and adds nothing. -/
theorem value_reread {cells : List (Option String)} {v : Json}
    (present : (ofTexts cells).value = some v) {text : Option String} (blank : shown? text = none) :
    ∃ shown, cellText text v = some shown ∧
      (¬Cancels (numbers cells) → ∃ sum, total? (numbers cells) = some sum ∧
        Numeral.read shown = some sum.unsignZero ∧
          ∀ c : Contributions, (c.add (some shown)).sum =
            some (c.sum.getD (.zero false) + sum.unsignZero)) ∧
      (Cancels (numbers cells) → shown = "NaN" ∧ Numeral.read shown = none ∧
        ∀ c : Contributions, (c.add (some shown)).sum = c.sum) := by
  obtain ⟨sum, total, contributed⟩ := cellText_value present blank
  have lost := total?_eq_nan_iff total
  refine ⟨_, contributed, ?_, ?_⟩
  · intro kept
    have back : Numeral.read (Numeral.write sum) = some sum.unsignZero :=
      Numeral.read_write fun none => kept (lost.mp none)
    refine ⟨sum, total, back, fun c => ?_⟩
    rw [sum_add c (Numeral.write_ne_empty sum), back]
    rfl
  · intro cancels
    obtain rfl := lost.mpr cancels
    refine ⟨rfl, Numeral.read_write_nan, fun c => ?_⟩
    rw [sum_add c (Numeral.write_ne_empty .nan), Numeral.read_write_nan]
    rfl

/-- An infinite sum is read back as the infinity that it is. -/
theorem value_reread_infinite :
    let cells := [some "Infinity", none, some "n/a", some "Infinity"]
    (ofTexts cells).value = some (.str "\"Infinity\"") ∧ shown? (some "") = none ∧
      ¬Cancels (numbers cells) ∧
        ∃ shown, cellText (some "") (.str "\"Infinity\"") = some shown ∧
          Numeral.read shown = some (.infinite false) := by
  intro cells
  have present : (ofTexts cells).value = some (.str "\"Infinity\"") := by decide
  have total : total? (numbers cells) = some (.infinite false) := by decide
  have kept : ¬Cancels (numbers cells) := by
    rw [← total?_eq_nan_iff total]
    nofun
  obtain ⟨shown, contributed, reread, -⟩ := value_reread present shown?_empty
  obtain ⟨sum, same, back, -⟩ := reread kept
  obtain rfl : .infinite false = sum := Option.some.inj (total.symm.trans same)
  exact ⟨present, rfl, kept, shown, contributed, back⟩

/-- Where the infinities of both signs are added up, the written sum is no number. -/
theorem value_reread_opposite :
    (ofTexts [some "Infinity", some "-Infinity"]).value = some (.str "\"NaN\"") ∧
      cellText none (.str "\"NaN\"") = some "NaN" ∧ Numeral.read "NaN" = none ∧
        ¬∀ cells v, (ofTexts cells).value = some v →
          ∃ shown, cellText none v = some shown ∧ (Numeral.read shown).isSome := by
  have present : (ofTexts [some "Infinity", some "-Infinity"]).value = some (.str "\"NaN\"") := by
    decide
  have contributed : cellText none (.str "\"NaN\"") = some "NaN" := by decide
  refine ⟨present, contributed, rfl, fun always => ?_⟩
  obtain ⟨shown, same, number⟩ := always _ _ present
  obtain rfl : "NaN" = shown := Option.some.inj (contributed.symm.trans same)
  cases number

end Contributions

end BoardRollup
