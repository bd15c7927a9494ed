import BoardRollup.Proofs.RadixLiterals
import BoardRollup.Proofs.WrittenNumbers

/-!
# Decimal numerals

A numeral without the mark of a radix is empty, the word `Infinity` or a decimal, the last two with
at most one sign. A decimal has a digit before or after its point and may end in an exponent. What
is accepted between the blanks is exactly this: of the other words for an infinity or for no number
none is.

The same numbers are read when the signs are counted, the word is told from the rest, the
characters are looked through one by one, and what is left is given to a reader that knows more
words: the screens take away what this reader accepts beyond the numerals and nothing else.
-/

namespace BoardRollup

namespace Numeral

inductive Sign : List Char → Prop where
  | absent : Sign []
  | plus : Sign ['+']
  | minus : Sign ['-']

def Digits (cs : List Char) : Prop := cs ≠ [] ∧ ∀ c ∈ cs, c.isDigit = true

/-- Digits with an optional point before, between or after them. -/
inductive Mantissa : List Char → Prop where
  | whole {ds : List Char} (digits : Digits ds) : Mantissa ds
  | pointed {ds : List Char} (digits : Digits ds) : Mantissa (ds ++ ['.'])
  | fraction {ds fs : List Char} (digits : Digits ds) (places : Digits fs) :
      Mantissa (ds ++ '.' :: fs)
  | places {fs : List Char} (places : Digits fs) : Mantissa ('.' :: fs)

/-- An optional exponent, with a sign or without. -/
inductive Exponent : List Char → Prop where
  | absent : Exponent []
  | scaled {mark : Char} {sign ds : List Char} (letter : mark = 'e' ∨ mark = 'E')
      (signed : Sign sign) (digits : Digits ds) : Exponent (mark :: (sign ++ ds))

/-- The numerals that have no radix mark. -/
inductive IsNumeral : List Char → Prop where
  | empty : IsNumeral []
  | infinity {sign : List Char} (signed : Sign sign) : IsNumeral (sign ++ "Infinity".toList)
  | decimal {sign mantissa exponent : List Char} (signed : Sign sign)
      (digits : Mantissa mantissa) (scaled : Exponent exponent) :
      IsNumeral (sign ++ (mantissa ++ exponent))

/-- The words for an infinity and for no number, in any case. -/
def IsWord (cs : List Char) : Prop :=
  cs.map Char.toLower ∈ ["inf".toList, "infinity".toList, "nan".toList]

/-- What is accepted where the words are read as well: a word or a decimal, with at most one
sign. -/
inductive IsAnyNumeral : List Char → Prop where
  | word {sign word : List Char} (signed : Sign sign) (spelled : IsWord word) :
      IsAnyNumeral (sign ++ word)
  | decimal {sign mantissa exponent : List Char} (signed : Sign sign)
      (digits : Mantissa mantissa) (scaled : Exponent exponent) :
      IsAnyNumeral (sign ++ (mantissa ++ exponent))

theorem mantissa_iff {cs : List Char} :
    Mantissa cs ↔ Digits cs ∨ ∃ ds fs, cs = ds ++ '.' :: fs ∧
      (∀ c ∈ ds, c.isDigit = true) ∧ (∀ c ∈ fs, c.isDigit = true) ∧ ¬(ds = [] ∧ fs = []) := by
  constructor
  · intro mantissa
    cases mantissa with
    | whole digits => exact .inl digits
    | pointed digits => exact .inr ⟨_, [], rfl, digits.2, nofun, fun h => digits.1 h.1⟩
    | fraction digits places =>
      exact .inr ⟨_, _, rfl, digits.2, places.2, fun h => digits.1 h.1⟩
    | places places => exact .inr ⟨[], _, rfl, nofun, places.2, fun h => places.1 h.2⟩
  · rintro (digits | ⟨ds, fs, rfl, digits, places, some⟩)
    · exact .whole digits
    · by_cases noPlaces : fs = []
      · subst noPlaces
        exact .pointed ⟨fun h => some ⟨h, rfl⟩, digits⟩
      · by_cases noDigits : ds = []
        · subst noDigits
          exact .places ⟨noPlaces, places⟩
        · exact .fraction ⟨noDigits, digits⟩ ⟨noPlaces, places⟩

/-- The sign at the front and what follows it. -/
def takeSign (cs : List Char) : Bool × List Char :=
  match cs with
  | '-' :: rest => (true, rest)
  | '+' :: rest => (false, rest)
  | _ => (false, cs)

def isSign (c : Char) : Bool := c = '+' || c = '-'

theorem isSign_iff {c : Char} : isSign c = true ↔ c = '+' ∨ c = '-' := by
  rw [isSign, Bool.or_eq_true, decide_eq_true_iff, decide_eq_true_iff]

theorem isSign_of_isDigit {c : Char} (digit : c.isDigit = true) : isSign c = false := by
  rw [← Bool.not_eq_true, isSign_iff]
  rintro (rfl | rfl)
  · exact absurd digit (by decide)
  · exact absurd digit (by decide)

theorem takeSign_sound (cs : List Char) : ∃ sign, Sign sign ∧ cs = sign ++ (takeSign cs).2 := by
  unfold takeSign
  split
  · exact ⟨_, .minus, rfl⟩
  · exact ⟨_, .plus, rfl⟩
  · exact ⟨_, .absent, rfl⟩

theorem takeSign_of_unsigned {cs : List Char} (unsigned : ∀ c ∈ cs.head?, isSign c = false) :
    takeSign cs = (false, cs) := by
  unfold takeSign
  split
  · exact absurd (unsigned '-' rfl) (by decide)
  · exact absurd (unsigned '+' rfl) (by decide)
  · rfl

theorem takeSign_append {sign cs : List Char} (signed : Sign sign)
    (unsigned : ∀ c ∈ cs.head?, isSign c = false) : (takeSign (sign ++ cs)).2 = cs := by
  cases signed with
  | absent => exact congrArg Prod.snd (takeSign_of_unsigned unsigned)
  | plus => rfl
  | minus => rfl

theorem digits_iff_spanDigits {cs : List Char} :
    Digits cs ↔ (spanDigits cs).1 ≠ [] ∧ (spanDigits cs).2 = [] := by
  have ends : (spanDigits cs).2 = [] ↔ ∀ c ∈ cs, c.isDigit = true := by
    rw [spanDigits, List.dropWhile_eq_nil_iff]
  rw [ends, Digits]
  apply and_congr_left
  intro digits
  have all : spanDigits (cs ++ []) = (cs, []) := by
    apply spanDigits_append digits
    rintro _ ⟨⟩
  rw [List.append_nil] at all
  rw [all]

theorem readExponent_eq (cs : List Char) :
    readExponent cs =
      if (spanDigits (takeSign cs).2).1 = [] then none
      else some (if (takeSign cs).1 then -(Decimal.valueOf (spanDigits (takeSign cs).2).1 : Int)
        else Decimal.valueOf (spanDigits (takeSign cs).2).1, (spanDigits (takeSign cs).2).2) := rfl

theorem Digits.unsigned {cs : List Char} (digits : Digits cs) :
    ∀ c ∈ cs.head?, isSign c = false := by
  intro c first
  exact isSign_of_isDigit (digits.2 c (List.mem_of_mem_head? first))

/-- What follows the mark of an exponent is read to its end if it is a sign and digits. -/
theorem exists_readExponent_iff {cs : List Char} :
    (∃ exponent, readExponent cs = some (exponent, [])) ↔
      ∃ sign ds, Sign sign ∧ Digits ds ∧ cs = sign ++ ds := by
  have ends : (∃ exponent, readExponent cs = some (exponent, [])) ↔ Digits (takeSign cs).2 := by
    rw [readExponent_eq, digits_iff_spanDigits]
    split
    · next none =>
      constructor
      · nofun
      · rintro ⟨digits, -⟩
        exact absurd none digits
    · next digits =>
      constructor
      · rintro ⟨_, read⟩
        exact ⟨digits, (Prod.mk.inj (Option.some.inj read)).2⟩
      · rintro ⟨-, rest⟩
        rw [rest]
        exact ⟨_, rfl⟩
  rw [ends]
  constructor
  · intro digits
    obtain ⟨sign, signed, parts⟩ := takeSign_sound cs
    exact ⟨sign, _, signed, digits, parts⟩
  · rintro ⟨sign, ds, signed, digits, rfl⟩
    rw [takeSign_append signed (digits.unsigned)]
    exact digits

/-- The places after a point and what follows them. -/
def takePlaces (cs : List Char) : List Char × List Char :=
  match cs with
  | '.' :: after => spanDigits after
  | _ => ([], cs)

/-- The exponent that stands between the digits and the end of a numeral. -/
def readScale (cs : List Char) : Option Int :=
  match cs with
  | [] => some 0
  | mark :: after =>
    if mark = 'e' ∨ mark = 'E' then
      match readExponent after with
      | some (exponent, []) => some exponent
      | _ => none
    else none

theorem isSome_readScale_iff {cs : List Char} : (readScale cs).isSome ↔ Exponent cs := by
  cases cs with
  | nil =>
    constructor
    · intro _
      exact .absent
    · intro _
      rfl
  | cons mark after =>
    rw [readScale]
    constructor
    · intro read
      split at read
      · next letter =>
        split at read
        · next exponent found =>
          obtain ⟨sign, ds, signed, digits, rfl⟩ := exists_readExponent_iff.mp ⟨_, found⟩
          exact .scaled letter signed digits
        · cases read
      · cases read
    · intro exponent
      cases exponent with
      | scaled letter signed digits =>
        obtain ⟨exponent, found⟩ := exists_readExponent_iff.mpr ⟨_, _, signed, digits, rfl⟩
        rw [if_pos letter, found]
        rfl

theorem Exponent.head {cs : List Char} (exponent : Exponent cs) :
    ∀ c ∈ cs.head?, c = 'e' ∨ c = 'E' := by
  cases exponent with
  | absent => nofun
  | scaled letter _ _ =>
    rintro _ ⟨⟩
    exact letter

theorem Exponent.not_isDigit {cs : List Char} (exponent : Exponent cs) :
    ∀ c ∈ cs.head?, ¬c.isDigit := by
  intro c first
  rcases exponent.head c first with rfl | rfl <;> decide

/-- The parts that a decimal is read as. -/
theorem readUnsigned_eq {cs ds rest fs scale : List Char} (whole : spanDigits cs = (ds, rest))
    (places : takePlaces rest = (fs, scale)) :
    readUnsigned cs =
      if ds = [] ∧ fs = [] then none else (readScale scale).map (.ofParts ds fs) := by
  have unfolded : readUnsigned cs =
      if (spanDigits cs).1 = [] ∧ (takePlaces (spanDigits cs).2).1 = [] then none
      else match (takePlaces (spanDigits cs).2).2 with
        | [] => some (.ofParts (spanDigits cs).1 (takePlaces (spanDigits cs).2).1 0)
        | mark :: after =>
          if mark = 'e' ∨ mark = 'E' then
            match readExponent after with
            | some (exponent, []) =>
              some (.ofParts (spanDigits cs).1 (takePlaces (spanDigits cs).2).1 exponent)
            | _ => none
          else none := rfl
  rw [unfolded, whole, places]
  split
  · rfl
  · cases scale with
    | nil => rfl
    | cons mark after =>
      simp only [readScale]
      split
      · split <;> rfl
      · rfl

theorem spanDigits_parts (cs : List Char) :
    ∃ ds rest, spanDigits cs = (ds, rest) ∧ cs = ds ++ rest ∧ ∀ c ∈ ds, c.isDigit = true :=
  ⟨_, _, rfl, List.takeWhile_append_dropWhile.symm, List.all_eq_true.mp List.all_takeWhile⟩

theorem takePlaces_parts (cs : List Char) :
    (∃ fs tail, takePlaces cs = (fs, tail) ∧ cs = '.' :: (fs ++ tail) ∧
      ∀ c ∈ fs, c.isDigit = true) ∨ takePlaces cs = ([], cs) := by
  unfold takePlaces
  split
  · next after =>
    obtain ⟨fs, tail, split, parts, places⟩ := spanDigits_parts after
    exact .inl ⟨fs, tail, split, congrArg ('.' :: ·) parts, places⟩
  · exact .inr rfl

theorem takePlaces_of_exponent {cs : List Char} (exponent : Exponent cs) :
    takePlaces cs = ([], cs) := by
  unfold takePlaces
  split
  · rcases exponent.head '.' rfl with point | point <;> exact absurd point (by decide)
  · rfl

/-- A decimal is read exactly from digits with a point, before an exponent. -/
theorem isSome_readUnsigned_iff {cs : List Char} :
    (readUnsigned cs).isSome ↔
      ∃ mantissa exponent, Mantissa mantissa ∧ Exponent exponent ∧ cs = mantissa ++ exponent := by
  constructor
  · intro read
    obtain ⟨ds, rest, whole, front, digits⟩ := spanDigits_parts cs
    rcases takePlaces_parts rest with ⟨fs, tail, point, back, places⟩ | noPoint
    · rw [readUnsigned_eq whole point] at read
      split at read
      · cases read
      · next some =>
        rw [Option.isSome_map, isSome_readScale_iff] at read
        refine ⟨ds ++ '.' :: fs, tail, ?_, read, ?_⟩
        · exact mantissa_iff.mpr (.inr ⟨ds, fs, rfl, digits, places, some⟩)
        · rw [front, back, List.append_assoc, List.cons_append]
    · rw [readUnsigned_eq whole noPoint] at read
      split at read
      · cases read
      · next some =>
        rw [Option.isSome_map, isSome_readScale_iff] at read
        exact ⟨ds, rest, .whole ⟨fun none => some ⟨none, rfl⟩, digits⟩, read, front⟩
  · rintro ⟨mantissa, exponent, decimal, scaled, rfl⟩
    rcases mantissa_iff.mp decimal with digits | ⟨ds, fs, rfl, digits, places, some⟩
    · have whole := spanDigits_append digits.2 scaled.not_isDigit
      rw [readUnsigned_eq whole (takePlaces_of_exponent scaled), if_neg (fun h => digits.1 h.1),
        Option.isSome_map]
      exact isSome_readScale_iff.mpr scaled
    · have whole : spanDigits (ds ++ '.' :: fs ++ exponent) = (ds, '.' :: (fs ++ exponent)) := by
        rw [List.append_assoc, List.cons_append]
        apply spanDigits_append digits
        rintro _ ⟨⟩
        decide
      have point : takePlaces ('.' :: (fs ++ exponent)) = (fs, exponent) :=
        spanDigits_append places scaled.not_isDigit
      rw [readUnsigned_eq whole point, if_neg some, Option.isSome_map]
      exact isSome_readScale_iff.mpr scaled

theorem Mantissa.unsigned {mantissa exponent : List Char} (decimal : Mantissa mantissa) :
    ∀ c ∈ (mantissa ++ exponent).head?, isSign c = false := by
  rcases mantissa_iff.mp decimal with digits | ⟨ds, fs, rfl, digits, -, -⟩
  · rw [List.head?_append_of_ne_nil _ digits.1]
    exact digits.unsigned
  · cases ds with
    | nil =>
      rintro _ ⟨⟩
      decide
    | cons d ds =>
      rintro _ ⟨⟩
      exact isSign_of_isDigit (digits d List.mem_cons_self)

theorem readSigned_eq (cs : List Char) :
    readSigned cs =
      if (takeSign cs).2 = "Infinity".toList then some (.infinite (takeSign cs).1)
      else (readUnsigned (takeSign cs).2).map (·.toDouble (takeSign cs).1) := rfl

/-- What is read with a sign is exactly the numerals that are not empty. -/
theorem isSome_readSigned_iff {cs : List Char} (nonempty : cs ≠ []) :
    (readSigned cs).isSome ↔ IsNumeral cs := by
  have infinite : ∀ c ∈ "Infinity".toList.head?, isSign c = false := by
    rintro _ ⟨⟩
    decide
  rw [readSigned_eq]
  constructor
  · intro read
    obtain ⟨sign, signed, parts⟩ := takeSign_sound cs
    rw [parts]
    split at read
    · next word =>
      rw [word]
      exact .infinity signed
    · rw [Option.isSome_map, isSome_readUnsigned_iff] at read
      obtain ⟨mantissa, exponent, decimal, scaled, unsigned⟩ := read
      rw [unsigned]
      exact .decimal signed decimal scaled
  · intro numeral
    cases numeral with
    | empty => exact absurd rfl nonempty
    | infinity signed =>
      rw [takeSign_append signed infinite, if_pos rfl]
      rfl
    | decimal signed decimal scaled =>
      rw [takeSign_append signed decimal.unsigned]
      split
      · rfl
      · rw [Option.isSome_map]
        exact isSome_readUnsigned_iff.mpr ⟨_, _, decimal, scaled, rfl⟩

end Numeral

theorem Double.ofQuanta_ne_nan (negative : Bool) (num den : Nat) :
    ofQuanta negative num den ≠ .nan := by
  unfold ofQuanta
  split <;> nofun

theorem Double.ofDecimal_ne_nan (negative : Bool) (digits : Nat) (exponent : Int) :
    ofDecimal negative digits exponent ≠ .nan := by
  by_cases zero : digits = 0
  · rw [ofDecimal, if_pos zero]
    rintro ⟨⟩
  · rw [ofDecimal_eq negative zero]
    exact ofQuanta_ne_nan _ _ _

namespace Numeral

/-- A reader that also knows the words for an infinity and for no number, in any case. -/
def readAny (cs : List Char) : Option Double :=
  let word := (takeSign cs).2.map Char.toLower
  if word = "inf".toList ∨ word = "infinity".toList then some (.infinite (takeSign cs).1)
  else if word = "nan".toList then some .nan
  else (readUnsigned (takeSign cs).2).map (·.toDouble (takeSign cs).1)

/-- The characters that decimals are made of. -/
def isNumeralChar (c : Char) : Bool := c.isDigit || c = '.' || c = 'e' || c = 'E' || isSign c

/-- Counts the signs, tells `Infinity` from the rest and looks through the characters before the
numeral is read. -/
def readScreened (cs : List Char) : Option Double :=
  let unsigned := cs.dropWhile isSign
  if 1 < cs.length - unsigned.length then none
  else if unsigned = "Infinity".toList then some (.infinite (cs.head? = some '-'))
  else if unsigned.all isNumeralChar then (readAny cs).filter (· ≠ .nan)
  else none

theorem isWord_iff {cs : List Char} :
    IsWord cs ↔ (cs.map Char.toLower = "inf".toList ∨ cs.map Char.toLower = "infinity".toList) ∨
      cs.map Char.toLower = "nan".toList := by
  simp only [IsWord, List.mem_cons, List.not_mem_nil, or_false, or_assoc]

theorem isNumeralChar_iff {c : Char} :
    isNumeralChar c = true ↔
      c.isDigit = true ∨ c = '.' ∨ (c = 'e' ∨ c = 'E') ∨ isSign c = true := by
  simp only [isNumeralChar, Bool.or_eq_true, decide_eq_true_eq, or_assoc]

/-- Every word has a letter that no decimal has. -/
theorem toLower_ne_of_isNumeralChar {c : Char} (char : isNumeralChar c = true) :
    c.toLower ≠ 'n' := by
  have small : c.toNat < 102 := by
    rcases isNumeralChar_iff.mp char with digit | rfl | (rfl | rfl) | sign
    · have most : c.toNat ≤ '9'.toNat := (of_decide_eq_true (Bool.and_eq_true_iff.mp digit).2)
      exact Nat.lt_of_le_of_lt most (by decide)
    · decide
    · decide
    · decide
    · rcases isSign_iff.mp sign with rfl | rfl <;> decide
  have table : ∀ n < 102, isNumeralChar (Char.ofNat n) = true → (Char.ofNat n).toLower ≠ 'n' := by
    decide
  have entry := table c.toNat small
  rw [Char.ofNat_toNat] at entry
  exact entry char

theorem not_isWord_of_all {cs : List Char} (chars : cs.all isNumeralChar = true) : ¬IsWord cs := by
  intro word
  have letter : 'n' ∈ cs.map Char.toLower := by
    rcases isWord_iff.mp word with (word | word) | word <;> rw [word] <;> decide
  obtain ⟨c, mem, lower⟩ := List.mem_map.mp letter
  exact toLower_ne_of_isNumeralChar (List.all_eq_true.mp chars c mem) lower

theorem IsWord.unsigned {cs : List Char} (word : IsWord cs) :
    ∀ c ∈ cs.head?, isSign c = false := by
  intro c first
  have lower : (cs.map Char.toLower).head? = some c.toLower := by
    rw [List.head?_map, Option.mem_def.mp first]
    rfl
  have letter : c.toLower = 'i' ∨ c.toLower = 'n' := by
    rcases isWord_iff.mp word with (spelled | spelled) | spelled
    · rw [spelled] at lower
      exact .inl (Option.some.inj lower).symm
    · rw [spelled] at lower
      exact .inl (Option.some.inj lower).symm
    · rw [spelled] at lower
      exact .inr (Option.some.inj lower).symm
  rw [← Bool.not_eq_true, isSign_iff]
  rintro (rfl | rfl)
  · exact absurd letter (by decide)
  · exact absurd letter (by decide)

theorem all_of_isDigit {cs : List Char} (digits : ∀ c ∈ cs, c.isDigit = true) :
    cs.all isNumeralChar = true := by
  rw [List.all_eq_true]
  intro c mem
  exact isNumeralChar_iff.mpr (.inl (digits c mem))

theorem Sign.all {cs : List Char} (signed : Sign cs) : cs.all isNumeralChar = true := by
  cases signed <;> rfl

theorem Mantissa.all {cs : List Char} (decimal : Mantissa cs) : cs.all isNumeralChar = true := by
  rcases mantissa_iff.mp decimal with digits | ⟨ds, fs, rfl, digits, places, -⟩
  · exact all_of_isDigit digits.2
  · rw [List.all_append, List.all_cons, all_of_isDigit digits, all_of_isDigit places]
    rfl

theorem Exponent.all {cs : List Char} (scaled : Exponent cs) : cs.all isNumeralChar = true := by
  cases scaled with
  | absent => rfl
  | scaled letter signed digits =>
    rw [List.all_cons, List.all_append, signed.all, all_of_isDigit digits.2]
    rcases letter with rfl | rfl <;> rfl

/-- The reader behind the screens accepts the decimals and all spellings of the words. -/
theorem isSome_readAny_iff {cs : List Char} : (readAny cs).isSome ↔ IsAnyNumeral cs := by
  have front : (readAny cs).isSome ↔
      IsWord (takeSign cs).2 ∨ (readUnsigned (takeSign cs).2).isSome := by
    rw [isWord_iff, readAny]
    split
    · next infinite => simp only [infinite, true_or, Option.isSome_some]
    · split
      · next noNumber => simp only [noNumber, or_true, true_or, Option.isSome_some]
      · next infinite noNumber =>
        simp only [infinite, noNumber, or_self, false_or, Option.isSome_map]
  rw [front, isSome_readUnsigned_iff]
  constructor
  · intro read
    obtain ⟨sign, signed, parts⟩ := takeSign_sound cs
    rw [parts]
    rcases read with word | ⟨mantissa, exponent, decimal, scaled, unsigned⟩
    · exact .word signed word
    · rw [unsigned]
      exact .decimal signed decimal scaled
  · intro numeral
    cases numeral with
    | word signed spelled =>
      rw [takeSign_append signed spelled.unsigned]
      exact .inl spelled
    | decimal signed decimal scaled =>
      rw [takeSign_append signed decimal.unsigned]
      exact .inr ⟨_, _, decimal, scaled, rfl⟩

/-- A decimal is made of its characters only. -/
theorem readUnsigned_of_chars {cs : List Char} (other : ¬cs.all isNumeralChar = true) :
    readUnsigned cs = none := by
  rw [← Option.not_isSome_iff_eq_none, isSome_readUnsigned_iff]
  rintro ⟨mantissa, exponent, decimal, scaled, rfl⟩
  apply other
  rw [List.all_append, decimal.all, scaled.all]
  rfl

theorem readUnsigned_of_isSign {cs : List Char} {c : Char} (first : c ∈ cs.head?)
    (sign : isSign c = true) : readUnsigned cs = none := by
  rw [← Option.not_isSome_iff_eq_none, isSome_readUnsigned_iff]
  rintro ⟨mantissa, exponent, decimal, -, rfl⟩
  have unsigned := decimal.unsigned c first
  rw [sign] at unsigned
  exact Bool.noConfusion unsigned

/-- Where one sign was taken, the screens and the direct reading agree. -/
theorem readSigned_eq_readScreened_of_unsigned {cs : List Char}
    (dropped : cs.dropWhile isSign = (takeSign cs).2)
    (once : cs.length - (takeSign cs).2.length ≤ 1)
    (sign : decide (cs.head? = some '-') = (takeSign cs).1) : readSigned cs = readScreened cs := by
  rw [readSigned_eq, readScreened, dropped, if_neg (Nat.not_lt.mpr once), sign]
  split
  · rfl
  · split
    · next chars =>
      have noWord := not_isWord_of_all chars
      rw [isWord_iff, not_or] at noWord
      rw [readAny, if_neg noWord.1, if_neg noWord.2]
      cases readUnsigned (takeSign cs).2 with
      | none => rfl
      | some decimal =>
        have number : decimal.toDouble (takeSign cs).1 ≠ .nan := Double.ofDecimal_ne_nan _ _ _
        rw [Option.map_some, Option.filter_some, if_pos (decide_eq_true number)]
    · next chars =>
      rw [readUnsigned_of_chars chars]
      rfl

/-- A second sign is counted by the screens, and it is nothing that a decimal begins with. -/
theorem readSigned_eq_readScreened_of_twice {c d : Char} {rest : List Char}
    (first : isSign c = true) (second : isSign d = true) :
    readSigned (c :: d :: rest) = readScreened (c :: d :: rest) := by
  have taken : (takeSign (c :: d :: rest)).2 = d :: rest := by
    rcases isSign_iff.mp first with rfl | rfl <;> rfl
  have word : d :: rest ≠ "Infinity".toList := by
    rintro ⟨⟩
    exact absurd second (by decide)
  have twice : 1 < (c :: d :: rest).length - ((c :: d :: rest).dropWhile isSign).length := by
    have shorter := (List.dropWhile_sublist isSign (l := rest)).length_le
    rw [List.dropWhile_cons_of_pos first, List.dropWhile_cons_of_pos second]
    simp only [List.length_cons]
    omega
  rw [readSigned_eq, taken, if_neg word, readUnsigned_of_isSign rfl second, readScreened,
    if_pos twice]
  rfl

/-- The screens take away what the reader behind them accepts beyond the numerals. -/
theorem readSigned_eq_readScreened (cs : List Char) : readSigned cs = readScreened cs := by
  cases cs with
  | nil => rfl
  | cons c rest =>
    by_cases sign : isSign c = true
    · have taken : (takeSign (c :: rest)).2 = rest := by
        rcases isSign_iff.mp sign with rfl | rfl <;> rfl
      have negative : decide ((c :: rest).head? = some '-') = (takeSign (c :: rest)).1 := by
        rcases isSign_iff.mp sign with rfl | rfl <;> rfl
      have once : (c :: rest).length - (takeSign (c :: rest)).2.length ≤ 1 := by
        rw [taken, List.length_cons]
        omega
      cases rest with
      | nil =>
        apply readSigned_eq_readScreened_of_unsigned _ once negative
        rw [List.dropWhile_cons_of_pos sign, taken]
        rfl
      | cons d rest =>
        by_cases again : isSign d = true
        · exact readSigned_eq_readScreened_of_twice sign again
        · apply readSigned_eq_readScreened_of_unsigned _ once negative
          rw [List.dropWhile_cons_of_pos sign, List.dropWhile_cons_of_neg again, taken]
    · have unsigned : takeSign (c :: rest) = (false, c :: rest) := by
        apply takeSign_of_unsigned
        rintro _ ⟨⟩
        exact Bool.eq_false_iff.mpr sign
      have positive : ¬(c :: rest).head? = some '-' := by
        rintro ⟨⟩
        exact sign rfl
      apply readSigned_eq_readScreened_of_unsigned
      · rw [List.dropWhile_cons_of_neg sign, unsigned]
      · rw [unsigned, Nat.sub_self]
        exact Nat.zero_le 1
      · rw [unsigned, decide_eq_false positive]

/-- Nothing with the mark of a radix gets through the screens. -/
theorem readScreened_of_marks {radix : Nat} {cs rest : List Char} (marked : Marks radix cs rest) :
    readScreened cs = none := by
  obtain ⟨mark, rfl, announced⟩ := marked
  have letter : isNumeralChar mark = false := by
    cases announced with
    | hexadecimal letter => rcases letter with rfl | rfl <;> rfl
    | octal letter => rcases letter with rfl | rfl <;> rfl
    | binary letter => rcases letter with rfl | rfl <;> rfl
  have chars : ¬('0' :: mark :: rest).all isNumeralChar = true := by
    rw [List.all_cons, List.all_cons, letter, Bool.false_and, Bool.and_false]
    exact Bool.false_ne_true
  have unsigned : ('0' :: mark :: rest).dropWhile isSign = '0' :: mark :: rest := rfl
  have word : '0' :: mark :: rest ≠ "Infinity".toList := by
    rintro ⟨⟩
  rw [readScreened, unsigned, Nat.sub_self, if_neg (Nat.not_lt_zero 1), if_neg word, if_neg chars]

/-- A radix literal is tried first, and what is none falls through to the screens. -/
theorem readTrimmed_eq {cs : List Char} (nonempty : cs ≠ []) :
    readTrimmed cs =
      ((radixMark cs).bind fun mark => readRadix mark.1 mark.2).or (readScreened cs) := by
  rw [readTrimmed, if_neg nonempty]
  cases marked : radixMark cs with
  | none => exact readSigned_eq_readScreened cs
  | some mark =>
    obtain ⟨radix, rest⟩ := mark
    rw [readScreened_of_marks (radixMark_eq_some_iff.mp marked), Option.or_none]
    rfl

/-- Between its blanks, a text without a radix mark shows a number exactly if it is a numeral. No
word is one, in any spelling that is not `Infinity`. The number is the one that is let through the
screens by a reader that accepts the words as well. -/
theorem read_decimal {text : String} {body : List Char} (trimmed : TrimsTo text.toList body)
    (unmarked : ∀ radix rest, ¬Marks radix body rest) :
    ((read text).isSome ↔ IsNumeral body) ∧
      (∀ sign word, Sign sign → body = sign ++ word → IsWord word → word ≠ "Infinity".toList →
        read text = none) ∧
      ((body ≠ [] → read text = readScreened body) ∧
        ((readAny body).isSome ↔ IsAnyNumeral body)) := by
  have unradixed : radixMark body = none := by
    cases found : radixMark body with
    | none => rfl
    | some mark =>
      obtain ⟨radix, rest⟩ := mark
      exact absurd (radixMark_eq_some_iff.mp found) (unmarked radix rest)
  have shown (nonempty : body ≠ []) : read text = readSigned body := by
    rw [read, trimmed.trimBlanks_eq, readTrimmed, if_neg nonempty, unradixed]
  refine ⟨?_, ?_, ?_, isSome_readAny_iff⟩
  · by_cases empty : body = []
    · subst empty
      constructor
      · intro _
        exact .empty
      · intro _
        rw [read, trimmed.trimBlanks_eq]
        rfl
    · rw [shown empty]
      exact isSome_readSigned_iff empty
  · rintro sign word signed rfl spelled other
    have nonempty : sign ++ word ≠ [] := by
      rintro empty
      rw [(List.append_eq_nil_iff.mp empty).2] at spelled
      exact absurd spelled (by simp [IsWord])
    rw [shown nonempty, readSigned_eq, takeSign_append signed spelled.unsigned, if_neg other]
    rw [readUnsigned_of_chars fun chars => not_isWord_of_all chars spelled]
    rfl
  · intro nonempty
    rw [read, trimmed.trimBlanks_eq, readTrimmed_eq nonempty, unradixed]
    rfl

/-- A decimal with all its parts is shown, and a word for an infinity is not. -/
theorem read_decimal_scaled :
    (TrimsTo "\t-12.5e+3 ".toList "-12.5e+3".toList ∧
      (∀ radix rest, ¬Marks radix "-12.5e+3".toList rest) ∧ (read "\t-12.5e+3 ").isSome) ∧
    (TrimsTo "+Inf".toList "+Inf".toList ∧ (∀ radix rest, ¬Marks radix "+Inf".toList rest) ∧
      IsWord "Inf".toList ∧ read "+Inf" = none) := by
  have trimmed : TrimsTo "\t-12.5e+3 ".toList "-12.5e+3".toList :=
    trimBlanks_eq_iff.mp (by decide)
  have unmarked : ∀ radix rest, ¬Marks radix "-12.5e+3".toList rest := by
    rintro radix rest ⟨mark, shape, -⟩
    exact absurd (List.cons.inj shape).1 (by decide)
  have whole : Digits "12".toList := ⟨by decide, List.all_eq_true.mp rfl⟩
  have places : Digits "5".toList := ⟨by decide, List.all_eq_true.mp rfl⟩
  have thousand : Digits "3".toList := ⟨by decide, List.all_eq_true.mp rfl⟩
  have numeral : IsNumeral "-12.5e+3".toList :=
    .decimal .minus (.fraction whole places) (.scaled (.inl rfl) .plus thousand)
  have infinite : TrimsTo "+Inf".toList "+Inf".toList := trimBlanks_eq_iff.mp (by decide)
  have plain : ∀ radix rest, ¬Marks radix "+Inf".toList rest := by
    rintro radix rest ⟨mark, shape, -⟩
    exact absurd (List.cons.inj shape).1 (by decide)
  have word : IsWord "Inf".toList := by
    unfold IsWord
    decide
  have refused := (read_decimal infinite plain).2.1 ['+'] "Inf".toList .plus rfl word (by decide)
  exact ⟨⟨trimmed, unmarked, (read_decimal trimmed unmarked).1.mpr numeral⟩, infinite, plain, word,
    refused⟩

end Numeral

end BoardRollup
