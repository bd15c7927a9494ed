import BoardRollup.Proofs.DecimalNumerals

/-!
# Written numerals read back

A number is written as a word, as a zero without a sign, or as a sign and the parts of a decimal
that reads back to it. No such text has a blank or the mark of a radix, so the reader comes to the
parts and takes them as they were written. Each encoding of a number is therefore read back from
the text that is written for it, but that a zero loses its sign, and the word for no number is read
as none.
-/

namespace BoardRollup

namespace Double

/-- The number, with a zero that has no sign. -/
def unsignZero : Double → Double
  | .finite x => if x.isZero then .zero false else .finite x
  | x => x

end Double

namespace Numeral

theorem isBlank_of_isNumeralChar {c : Char} (char : isNumeralChar c = true) :
    isBlank c = false := by
  rcases isNumeralChar_iff.mp char with digit | rfl | (rfl | rfl) | sign
  · have bounds := Bool.and_eq_true_iff.mp digit
    have least : 48 ≤ c.toNat := of_decide_eq_true bounds.1
    have most : c.toNat ≤ 57 := of_decide_eq_true bounds.2
    simp only [isBlank, Bool.or_eq_false_iff, Bool.and_eq_false_iff, decide_eq_false_iff_not]
    omega
  · decide
  · decide
  · decide
  · rcases isSign_iff.mp sign with rfl | rfl <;> decide

variable {cs : List Char} {x : Double}

/-- No character of a numeral is a blank. -/
theorem isBlank_of_readSigned (read : readSigned cs = some x) : ∀ c ∈ cs, isBlank c = false := by
  obtain ⟨sign, signed, parts⟩ := takeSign_sound cs
  have unsigned : ∀ c ∈ (takeSign cs).2, isBlank c = false := by
    rw [readSigned_eq] at read
    split at read
    · next word =>
      have letters : "Infinity".toList.all (!isBlank ·) = true := rfl
      intro c mem
      rw [word] at mem
      simpa using List.all_eq_true.mp letters c mem
    · obtain ⟨decimal, found, -⟩ := Option.map_eq_some_iff.mp read
      have chars : (takeSign cs).2.all isNumeralChar = true := by
        by_contra other
        rw [readUnsigned_of_chars other] at found
        cases found
      intro c mem
      exact isBlank_of_isNumeralChar (List.all_eq_true.mp chars c mem)
  rw [parts]
  intro c mem
  rcases List.mem_append.mp mem with left | right
  · exact isBlank_of_isNumeralChar (List.all_eq_true.mp signed.all c left)
  · exact unsigned c right

/-- Nothing with the mark of a radix is read with a sign. -/
theorem radixMark_of_readSigned (read : readSigned cs = some x) : radixMark cs = none := by
  cases found : radixMark cs with
  | none => rfl
  | some mark =>
    obtain ⟨radix, rest⟩ := mark
    rw [readSigned_eq_readScreened, readScreened_of_marks (radixMark_eq_some_iff.mp found)] at read
    cases read

theorem read_ofList_of_readSigned (nonempty : cs ≠ []) (signed : readSigned cs = some x) :
    read (.ofList cs) = some x := by
  rw [read, String.toList_ofList, trimBlanks_of_shown (isBlank_of_readSigned signed), readTrimmed,
    if_neg nonempty, radixMark_of_readSigned signed]
  exact signed

theorem exponent_scaled (scale : Option Int) : Exponent (Spelling.scaled scale) := by
  cases scale with
  | none => exact .absent
  | some n =>
    have digits : Digits (Decimal.digitChars n.natAbs) :=
      ⟨Nat.toDigits_ne_nil, fun c mem => Decimal.isDigit_of_mem_digitChars mem⟩
    by_cases below : n < 0
    · rw [Spelling.scaled, if_pos below]
      exact .scaled (.inl rfl) .minus digits
    · rw [Spelling.scaled, if_neg below]
      exact .scaled (.inl rfl) .plus digits

theorem readScale_scaled (scale : Option Int) :
    readScale (Spelling.scaled scale) = some (scale.getD 0) := by
  cases scale with
  | none => rfl
  | some n =>
    have ends : ∀ c ∈ ([] : List Char).head?, ¬c.isDigit := nofun
    have read := Json.readExponent_signed n ends
    rw [List.append_nil] at read
    rw [Spelling.scaled, readScale, if_pos (.inl rfl), read]
    rfl

theorem takePlaces_pointed {fraction : Option (List Char)}
    (digits : ∀ ds ∈ fraction, ∀ c ∈ ds, c.isDigit) (scale : Option Int) :
    takePlaces (Spelling.pointed fraction ++ Spelling.scaled scale) =
      (fraction.getD [], Spelling.scaled scale) := by
  cases fraction with
  | none => exact takePlaces_of_exponent (exponent_scaled scale)
  | some ds => exact spanDigits_append (digits ds rfl) (exponent_scaled scale).not_isDigit

theorem readUnsigned_text (s : Spelling) : readUnsigned s.text = some s.decimal := by
  have ends : ∀ c ∈ (Spelling.scaled s.scale).head?, ¬c.isDigit ∧ c ≠ '.' := by
    have number : Json.NumberEnds [] := nofun
    have scaled := Json.head?_scaled_append s.scale number
    rwa [List.append_nil] at scaled
  have whole : spanDigits s.text = (s.whole, Spelling.pointed s.fraction ++ _) :=
    spanDigits_append s.whole_digits (Json.head?_pointed_append s.fraction ends)
  rw [readUnsigned_eq whole (takePlaces_pointed s.fraction_digits s.scale),
    if_neg (fun none => s.whole_ne_nil none.1), readScale_scaled]
  rfl

/-- A sign before a decimal that begins with a digit is the sign of the number that is read. -/
theorem readSigned_minus (negative : Bool) {cs : List Char} {d : Char} (first : d ∈ cs.head?)
    (digit : d.isDigit = true) :
    readSigned (Layout.minus negative ++ cs) = (readUnsigned cs).map (·.toDouble negative) := by
  have only : ∀ c ∈ cs.head?, c.isDigit = true := by
    intro c found
    obtain rfl : d = c := Option.some.inj (first.symm.trans found)
    exact digit
  have taken : takeSign (Layout.minus negative ++ cs) = (negative, cs) := by
    cases negative with
    | true => rfl
    | false => exact takeSign_of_unsigned fun c found => isSign_of_isDigit (only c found)
  have word : cs ≠ "Infinity".toList := by
    rintro rfl
    exact absurd (only 'I' rfl) (by decide)
  rw [readSigned_eq, taken, if_neg word]

/-- A sign and the parts of a decimal are read as the number that the decimal is nearest to. -/
theorem readSigned_minus_text (negative : Bool) (s : Spelling) :
    readSigned (Layout.minus negative ++ s.text) = some (s.decimal.toDouble negative) := by
  obtain ⟨d, digits, shape⟩ := List.exists_cons_of_ne_nil s.whole_ne_nil
  have digit : d.isDigit = true := by
    apply s.whole_digits
    rw [shape]
    exact List.mem_cons_self
  have first : s.text.head? = some d := by rw [Spelling.text, shape]; rfl
  rw [readSigned_minus negative first digit, readUnsigned_text]
  rfl

theorem read_write_finite (x : FiniteDouble) :
    read (write (.finite x)) = some (Double.unsignZero (.finite x)) := by
  by_cases zero : x.isZero
  · have written : write (.finite x) = "0" := by
      rw [write, Layout.write, if_pos zero]
      rfl
    rw [written, Double.unsignZero, if_pos zero]
    rfl
  · obtain ⟨s, text, spells, -⟩ := Layout.write_spelled layout (.inl rfl) x (.inr zero)
    have value := Layout.toDouble_of_spells spells
    have written : write (.finite x) = .ofList (Layout.minus x.negative ++ s.text) :=
      congrArg String.ofList text
    rw [written, Double.unsignZero, if_neg zero, ← value]
    apply read_ofList_of_readSigned
    · exact List.append_ne_nil_of_right_ne_nil _ s.text_ne_nil
    · exact readSigned_minus_text x.negative s

/-- A number is read back from its text, a zero without its sign. -/
theorem read_write {x : Double} (number : x ≠ .nan) : read (write x) = some x.unsignZero := by
  cases x with
  | nan => exact absurd rfl number
  | infinite negative => cases negative <;> rfl
  | finite x => exact read_write_finite x

theorem write_ne_empty (x : Double) : write x ≠ "" := by
  cases x with
  | nan => decide
  | infinite negative => cases negative <;> decide
  | finite x =>
    intro empty
    exact Layout.write_ne_nil layout (.inl rfl) x (String.ofList_eq_empty_iff.mp empty)

theorem read_write_nan : read (write .nan) = none := rfl

end Numeral

namespace Double

open Binary64

theorem ofBits_eq_nan_iff {bits : Nat} : ofBits bits = .nan ↔ rankLimit < bits % signedLimit := by
  unfold ofBits
  dsimp only
  split
  · next finite => simp only [reduceCtorEq, false_iff, Nat.not_lt, Nat.le_of_lt finite]
  · split
    · next infinite => simp only [reduceCtorEq, infinite, Nat.lt_irrefl]
    · next finite infinite =>
      simp only [true_iff]
      omega

/-- A number has the encoding that it was made of. -/
theorem toBits_ofBits {bits : Nat} (word : bits < unsignedLimit)
    (number : bits % signedLimit ≤ rankLimit) : (ofBits bits).toBits = bits := by
  have twice : unsignedLimit = signedLimit * 2 := by decide
  have sign : bits / signedLimit < 2 := Nat.div_lt_of_lt_mul (twice ▸ word)
  have encoded : (if decide (bits / signedLimit % 2 = 1) then signedLimit else 0) +
      bits % signedLimit = bits := by
    have parts := Nat.div_add_mod bits signedLimit
    rcases Nat.lt_or_ge (bits / signedLimit) 1 with positive | negative
    · have none : bits / signedLimit = 0 := Nat.lt_one_iff.mp positive
      simpa [none] using parts
    · have one : bits / signedLimit = 1 := Nat.le_antisymm (Nat.le_of_lt_succ sign) negative
      simpa [one] using parts
  unfold ofBits
  dsimp only
  split
  · exact encoded
  · split
    · next infinite => rwa [infinite] at encoded
    · omega

/-- A zero that loses its sign has no bit left. -/
theorem toBits_unsignZero (x : Double) :
    x.unsignZero.toBits = if x.toBits = signedLimit then 0 else x.toBits := by
  cases x with
  | nan => rfl
  | infinite negative => cases negative <;> rfl
  | finite x =>
    obtain ⟨negative, rank, finite⟩ := x
    have below : rankLimit < signedLimit := by decide
    by_cases zero : rank = 0
    · subst zero
      cases negative <;> rfl
    · have kept : unsignZero (.finite ⟨negative, rank, finite⟩) =
          .finite ⟨negative, rank, finite⟩ :=
        if_neg fun isZero => zero (of_decide_eq_true isZero)
      have signed : toBits (.finite ⟨negative, rank, finite⟩) ≠ signedLimit := by
        unfold toBits
        dsimp only
        split <;> omega
      rw [kept, if_neg signed]

end Double

/-- Each encoding of a number is read back from the text that is written for it, but that a zero
loses its sign. An encoding of no number is written as a word that is read as none. -/
theorem Numeral.read_write_ofBits {bits : Nat} (word : bits < unsignedLimit) :
    (bits % signedLimit ≤ Binary64.rankLimit →
      ∃ x, read (write (.ofBits bits)) = some x ∧
        x.toBits = if bits = signedLimit then 0 else bits) ∧
      (Binary64.rankLimit < bits % signedLimit → read (write (.ofBits bits)) = none) := by
  constructor
  · intro number
    have some : Double.ofBits bits ≠ .nan := by
      rw [ne_eq, Double.ofBits_eq_nan_iff]
      exact Nat.not_lt.mpr number
    refine ⟨_, read_write some, ?_⟩
    rw [Double.toBits_unsignZero, Double.toBits_ofBits word number]
  · intro none
    rw [Double.ofBits_eq_nan_iff.mpr none]
    exact read_write_nan

/-- The number that is nearest to zero from below is read back from its text. -/
theorem Numeral.read_write_ofBits_least :
    0x8000000000000001 < unsignedLimit ∧
      ∃ x, read (write (.ofBits 0x8000000000000001)) = some x ∧
        x.toBits = 0x8000000000000001 := by
  have word : 0x8000000000000001 < unsignedLimit := by decide
  obtain ⟨x, back, bits⟩ := (read_write_ofBits word).1 (by decide)
  exact ⟨word, x, back, bits.trans (if_neg (by decide))⟩

end BoardRollup
