import BoardRollup.Json.Printer
import BoardRollup.Json.Reader
import BoardRollup.Proofs.Floats
import BoardRollup.Proofs.ScaledNumbers

/-!
# Written numbers read back

A number ends at the first character that no number goes on with. Before such an end the
reader takes the parts of a written number one by one, each as far as it goes. A whole number is
given back as it was. The text of a float is always read as a float, but as the one that its
digits give when they are scaled, and that need not be the float it was written for: it is
where the digits make a number of 53 bits and the power of ten is at most 22 either way.
-/

namespace BoardRollup

/-- Digits are split off up to where they end. -/
theorem spanDigits_append {ds rest : List Char} (digits : ∀ c ∈ ds, c.isDigit)
    (ends : ∀ c ∈ rest.head?, ¬ c.isDigit) : spanDigits (ds ++ rest) = (ds, rest) := by
  have after : rest.takeWhile Char.isDigit = [] ∧ rest.dropWhile Char.isDigit = rest := by
    cases rest with
    | nil => exact ⟨rfl, rfl⟩
    | cons c rest =>
      have other : ¬ c.isDigit := ends c rfl
      exact ⟨List.takeWhile_cons_of_neg other, List.dropWhile_cons_of_neg other⟩
  rw [spanDigits, List.takeWhile_append_of_pos digits, List.dropWhile_append_of_pos digits,
    after.1, after.2, List.append_nil]

namespace Json

/-- No number goes on at the front of a text. -/
def NumberEnds (rest : List Char) : Prop :=
  ∀ c ∈ rest.head?, ¬ c.isDigit ∧ c ≠ '.' ∧ c ≠ 'e' ∧ c ≠ 'E'

variable {rest : List Char}

theorem NumberEnds.not_isDigit (h : NumberEnds rest) : ∀ c ∈ rest.head?, ¬ c.isDigit :=
  fun c first => (h c first).1

theorem readExponent_signed (n : Int) (ends : ∀ c ∈ rest.head?, ¬ c.isDigit) :
    readExponent ((if n < 0 then '-' else '+') :: Decimal.digitChars n.natAbs ++ rest) =
      some (n, rest) := by
  have digits : spanDigits (Decimal.digitChars n.natAbs ++ rest) =
      (Decimal.digitChars n.natAbs, rest) :=
    spanDigits_append (fun c mem => Decimal.isDigit_of_mem_digitChars mem) ends
  have some : Decimal.digitChars n.natAbs ≠ [] := Nat.toDigits_ne_nil
  have value := Decimal.valueOf_digitChars n.natAbs
  by_cases below : n < 0
  · have size : -(n.natAbs : Int) = n := by omega
    simp only [if_pos below, readExponent, List.cons_append, digits, if_neg some, value,
      ↓reduceIte, size]
  · have size : (n.natAbs : Int) = n := by omega
    simp only [if_neg below, readExponent, List.cons_append, digits, if_neg some, value,
      Bool.false_eq_true, ↓reduceIte, size]

theorem readScale_scaled (scale : Option Int) (ends : NumberEnds rest) :
    readScale (Spelling.scaled scale ++ rest) = some (scale, rest) := by
  cases scale with
  | some n =>
    have exponent := readExponent_signed n ends.not_isDigit
    simp only [Spelling.scaled, List.cons_append, readScale] at exponent ⊢
    rw [exponent, Option.map_some]
  | none =>
    change readScale rest = some (none, rest)
    unfold readScale
    split
    · exact absurd rfl (ends 'e' rfl).2.2.1
    · exact absurd rfl (ends 'E' rfl).2.2.2
    · rfl

/-- No digit and no point stands where a scale begins or where a number ends. -/
theorem head?_scaled_append (scale : Option Int) (ends : NumberEnds rest) :
    ∀ c ∈ (Spelling.scaled scale ++ rest).head?, ¬ c.isDigit ∧ c ≠ '.' := by
  cases scale with
  | some n =>
    rintro _ ⟨⟩
    decide
  | none =>
    intro c first
    exact ⟨(ends c first).1, (ends c first).2.1⟩

theorem readFraction_pointed {fraction : Option (List Char)}
    (digits : ∀ ds ∈ fraction, ∀ c ∈ ds, c.isDigit) (nonempty : ∀ ds ∈ fraction, ds ≠ [])
    (ends : ∀ c ∈ rest.head?, ¬ c.isDigit ∧ c ≠ '.') :
    readFraction (Spelling.pointed fraction ++ rest) = some (fraction, rest) := by
  cases fraction with
  | some ds =>
    have split := spanDigits_append (digits ds rfl) fun c first => (ends c first).1
    simp only [Spelling.pointed, List.cons_append, readFraction, split, if_neg (nonempty ds rfl)]
  | none =>
    change readFraction rest = some (none, rest)
    unfold readFraction
    split
    · exact absurd rfl (ends '.' rfl).2
    · rfl

/-- No digit stands where a fraction or a scale begins. -/
theorem head?_pointed_append (fraction : Option (List Char))
    (ends : ∀ c ∈ rest.head?, ¬ c.isDigit ∧ c ≠ '.') :
    ∀ c ∈ (Spelling.pointed fraction ++ rest).head?, ¬ c.isDigit := by
  cases fraction with
  | some ds =>
    rintro _ ⟨⟩
    decide
  | none => exact fun c first => (ends c first).1

/-- The number that the parts of a decimal are kept as. -/
def ofSpelling (negative : Bool) (s : Spelling) : Option JsonNumber :=
  match s.fraction, s.scale with
  | none, none => ofInteger negative s.whole
  | _, _ => ofFloat negative (.ofWord s.whole (s.fraction.getD []) (s.scale.getD 0))

/-- The parts of a float are scaled as they stand if a word holds the digits. -/
theorem ofSpelling_of_isFloat (negative : Bool) {s : Spelling} (float : s.IsFloat)
    (room : s.decimal.digits < unsignedLimit) :
    ofSpelling negative s = ofFloat negative s.decimal := by
  unfold ofSpelling
  split
  · next fraction scale =>
    simp [Spelling.IsFloat, fraction, scale] at float
  · rw [Decimal.ofWord_eq _ room, Spelling.decimal]

theorem readUnsigned_text (negative : Bool) (s : Spelling) (ends : NumberEnds rest) :
    readUnsigned negative (s.text ++ rest) = (ofSpelling negative s).map (·, rest) := by
  have afterFraction := head?_scaled_append s.scale ends
  have whole := spanDigits_append s.whole_digits (head?_pointed_append s.fraction afterFraction)
  have fraction := readFraction_pointed s.fraction_digits s.fraction_ne_nil afterFraction
  have scale := readScale_scaled s.scale ends
  have leading : ¬ (s.whole = [] ∨ (s.whole.head? = some '0' ∧ 1 < s.whole.length)) := by
    rintro (empty | ⟨zero, longer⟩)
    · exact s.whole_ne_nil empty
    · exact Nat.not_lt.mpr (s.whole_leading zero) longer
  simp only [readUnsigned, Spelling.text, List.append_assoc, whole, if_neg leading, fraction,
    scale, Option.bind_eq_bind, Option.bind_some]
  rw [Option.map_eq_bind]
  unfold ofSpelling
  cases s.fraction <;> cases s.scale <;> rfl

/-- A sign is told from the digits that it may stand before. -/
theorem readNumber_minus_text (negative : Bool) (s : Spelling) (ends : NumberEnds rest) :
    readNumber (Layout.minus negative ++ (s.text ++ rest)) =
      (ofSpelling negative s).map (·, rest) := by
  have signed : readNumber (Layout.minus negative ++ (s.text ++ rest)) =
      readUnsigned negative (s.text ++ rest) := by
    cases negative with
    | true => rfl
    | false =>
      obtain ⟨c, digits, shape⟩ := List.exists_cons_of_ne_nil s.whole_ne_nil
      have digit : c.isDigit := s.whole_digits c (by rw [shape]; exact List.mem_cons_self)
      have other : c ≠ '-' := by
        rintro rfl
        exact absurd digit (by decide)
      rw [Layout.minus, Spelling.text, shape]
      simp [readNumber, other]
  rw [signed, readUnsigned_text negative s ends]

/-- The digits of a natural number are whole digits without a leading zero. -/
def spellNat (n : Nat) : Spelling where
  whole := Decimal.digitChars n
  fraction := none
  scale := none
  whole_digits := fun _ mem => Decimal.isDigit_of_mem_digitChars mem
  whole_ne_nil := Nat.toDigits_ne_nil
  whole_leading := by
    intro zero
    by_cases nothing : n = 0
    · subst nothing
      decide
    · exact absurd zero (Decimal.head?_digitChars_ne_zero nothing)
  fraction_digits := by simp
  fraction_ne_nil := by simp

theorem ofInteger_wide (n : WideInt) :
    ofInteger (n.val < 0) (Decimal.digitChars n.val.natAbs) = some (.whole n) := by
  have value := Decimal.valueOf_digitChars n.val.natAbs
  obtain ⟨n, lower, upper⟩ := n
  unfold ofInteger
  simp only [value]
  by_cases below : n < 0
  · have size : n.natAbs ≤ signedLimit := by omega
    have some : 0 < n.natAbs := by omega
    have same : -(n.natAbs : Int) = n := by omega
    rw [dif_neg (by simp [below]), dif_pos ⟨decide_eq_true below, some, size⟩]
    simp only [same]
  · have size : n.natAbs < unsignedLimit := by omega
    have same : (n.natAbs : Int) = n := by omega
    rw [dif_pos ⟨decide_eq_false below, size⟩]
    simp only [WideInt.ofNat, same]

end Json

namespace FiniteDouble

open Json Binary64

/-- The float that is read from the text of a float. -/
def reread (x : FiniteDouble) : FiniteDouble :=
  match readNumber (writeNumber (.float x)) with
  | some (.float y, _) => y
  | _ => x

/-- How the text of a float is read: its parts have at most seventeen digits and the float as their
nearest number, and scaling the digits gives what is read. -/
structure RereadsBy (x : FiniteDouble) (s : Spelling) : Prop where
  text : writeNumber (.float x) = Layout.minus x.negative ++ s.text
  float : s.IsFloat
  few : s.decimal.digits ≤ tenTo 17
  nearest : s.decimal.toDouble x.negative = .finite x
  scaled : scaled? x.negative s.decimal = some x.reread

variable {x : FiniteDouble} {s : Spelling}

/-- What the parts of a float are kept as if a word holds their digits. -/
theorem ofSpelling_eq_scaled (negative : Bool) (float : s.IsFloat)
    (few : s.decimal.digits ≤ tenTo 17) :
    ofSpelling negative s = (scaled? negative s.decimal).map .float := by
  have room : s.decimal.digits < unsignedLimit := Nat.lt_of_le_of_lt few (by decide)
  rw [ofSpelling_of_isFloat negative float room, ofFloat]

theorem RereadsBy.ofSpelling (reads : x.RereadsBy s) :
    ofSpelling x.negative s = some (.float x.reread) := by
  rw [ofSpelling_eq_scaled x.negative reads.float reads.few, reads.scaled, Option.map_some]

/-- A float of few digits with a small power of ten is read back. -/
theorem RereadsBy.reread_eq (reads : x.RereadsBy s) (small : s.decimal.digits ≤ 2 * binade)
    (near : s.decimal.exponent.natAbs ≤ 22) : x.reread = x := by
  have exact := scaled?_eq small near reads.nearest
  rw [reads.scaled] at exact
  exact Option.some.inj exact

/-- The decimal that is laid out for a float has few digits and does not pass the greatest float. -/
theorem decimalOf_limits (x : FiniteDouble) :
    (numberLayout.decimalOf x).digits ≤ tenTo 17 ∧
      (numberLayout.decimalOf x).num ≤
        greatestDigits * tenTo 292 * (numberLayout.decimalOf x).den := by
  unfold Layout.decimalOf
  split
  · refine ⟨Nat.zero_le _, ?_⟩
    rw [Decimal.num, Nat.zero_mul]
    exact Nat.zero_le _
  · next nonzero =>
    exact ⟨Decimal.digits_shortest_le nonzero _, Decimal.num_shortest_le nonzero⟩

/-- The text of a float is never refused. -/
theorem exists_rereadsBy (x : FiniteDouble) : ∃ s, x.RereadsBy s := by
  obtain ⟨s, text, spells, float⟩ := Layout.write_spelled numberLayout (.inr rfl) x (.inl rfl)
  have limits := decimalOf_limits x
  have few : s.decimal.digits ≤ tenTo 17 :=
    Nat.le_trans spells.few (Nat.max_le.mpr ⟨limits.1, Nat.le_refl _⟩)
  have below := spells.same.num_le limits.2
  obtain ⟨y, scaled⟩ := Option.isSome_iff_exists.mp (isSome_scaled? x.negative few below)
  refine ⟨s, text, float rfl, few, Layout.toDouble_of_spells spells, ?_⟩
  have ends : NumberEnds [] := nofun
  have read := readNumber_minus_text x.negative s ends
  rw [ofSpelling_eq_scaled x.negative (float rfl) few, scaled, List.append_nil, Option.map_some,
    Option.map_some] at read
  have same : x.reread = y := by
    unfold reread
    rw [writeNumber, text, read]
  rw [same, scaled]

end FiniteDouble

namespace Json

variable {rest : List Char}

/-- A number is written as a sign and parts, which are kept as what is read back. -/
theorem exists_spelling (n : JsonNumber) :
    ∃ negative s, writeNumber n = Layout.minus negative ++ s.text ∧
      ofSpelling negative s = some (n.mapFloats .reread) := by
  cases n with
  | whole n =>
    have text : (spellNat n.val.natAbs).text = Decimal.digitChars n.val.natAbs :=
      List.append_nil _
    refine ⟨n.val < 0, spellNat n.val.natAbs, ?_, ofInteger_wide n⟩
    rw [text, writeNumber, writeInt]
  | float x =>
    obtain ⟨s, reads⟩ := x.exists_rereadsBy
    exact ⟨x.negative, s, reads.text, reads.ofSpelling⟩

/-- The reader takes the text of a number up to an end of numbers. -/
theorem readNumber_writeNumber (n : JsonNumber) (ends : NumberEnds rest) :
    readNumber (writeNumber n ++ rest) = some (n.mapFloats .reread, rest) := by
  obtain ⟨negative, s, text, kept⟩ := exists_spelling n
  rw [text, List.append_assoc, readNumber_minus_text negative s ends, kept, Option.map_some]

/-- A written number begins with a digit or with a minus. -/
theorem exists_writeNumber_eq (n : JsonNumber) :
    ∃ c rest, writeNumber n = c :: rest ∧ (c.isDigit ∨ c = '-') := by
  obtain ⟨negative, s, text, _⟩ := exists_spelling n
  cases negative with
  | true => exact ⟨'-', s.text, text, .inr rfl⟩
  | false =>
    obtain ⟨c, digits, shape⟩ := List.exists_cons_of_ne_nil s.whole_ne_nil
    have digit : c.isDigit := s.whole_digits c (by rw [shape]; exact List.mem_cons_self)
    refine ⟨c, digits ++ (Spelling.pointed s.fraction ++ Spelling.scaled s.scale), ?_, .inl digit⟩
    rw [text, Spelling.text, shape]
    rfl

end Json

end BoardRollup
