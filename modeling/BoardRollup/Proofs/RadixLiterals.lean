import BoardRollup.Proofs.NearestRanks
import BoardRollup.Proofs.TrimmedTexts
import Mathlib.Data.List.Forall2
import Mathlib.Data.Nat.Digits.Defs

/-!
# Radix literals

A zero and a letter announce a radix, and what follows is read as digits of this radix with the
most significant one first. A literal is accepted when it has a digit, a plus may stand before the
digits, and the number has at most 64 bits. What it shows is the finite number nearest to the
number that is written.

A numeral with a sign after the mark is therefore accepted where only digits should stand, and one
of more than 64 bits is refused however plain it is.
-/

namespace BoardRollup

namespace Numeral

inductive Announces : Char → Nat → Prop where
  | hexadecimal {mark : Char} (letter : mark = 'x' ∨ mark = 'X') : Announces mark 16
  | octal {mark : Char} (letter : mark = 'o' ∨ mark = 'O') : Announces mark 8
  | binary {mark : Char} (letter : mark = 'b' ∨ mark = 'B') : Announces mark 2

/-- Characters begin with the mark of a radix and go on with `rest`. -/
def Marks (radix : Nat) (cs rest : List Char) : Prop :=
  ∃ mark, cs = '0' :: mark :: rest ∧ Announces mark radix

theorem radixMark_eq_some_iff {cs rest : List Char} {radix : Nat} :
    radixMark cs = some (radix, rest) ↔ Marks radix cs rest := by
  constructor
  · intro found
    unfold radixMark at found
    split at found
    · next mark after =>
      split at found <;> cases found
      · exact ⟨_, rfl, .hexadecimal (.inl rfl)⟩
      · exact ⟨_, rfl, .hexadecimal (.inr rfl)⟩
      · exact ⟨_, rfl, .octal (.inl rfl)⟩
      · exact ⟨_, rfl, .octal (.inr rfl)⟩
      · exact ⟨_, rfl, .binary (.inl rfl)⟩
      · exact ⟨_, rfl, .binary (.inr rfl)⟩
    · cases found
  · rintro ⟨mark, rfl, announced⟩
    cases announced with
    | hexadecimal letter => rcases letter with rfl | rfl <;> rfl
    | octal letter => rcases letter with rfl | rfl <;> rfl
    | binary letter => rcases letter with rfl | rfl <;> rfl

theorem Marks.radix_le {radix : Nat} {cs rest : List Char} (marked : Marks radix cs rest) :
    radix ≤ 16 := by
  obtain ⟨mark, -, announced⟩ := marked
  cases announced <;> decide

/-- A character is the digit of a value in a radix up to sixteen; a letter may be of either case. -/
def IsDigitOf (radix : Nat) (c : Char) (d : Nat) : Prop :=
  d < radix ∧ (c = d.digitChar ∨ c = d.digitChar.toUpper)

/-- Characters write a number in a radix: one digit or more, the most significant one first. -/
def Writes (radix : Nat) (cs : List Char) (n : Nat) : Prop :=
  cs ≠ [] ∧ ∃ values, List.Forall₂ (IsDigitOf radix) cs values ∧
    n = Nat.ofDigits radix values.reverse

theorem digitValue_eq_some_iff {c : Char} {d : Nat} :
    digitValue c = some d ↔ IsDigitOf 16 c d := by
  constructor
  · intro value
    have small : c.toNat < 103 := by
      unfold digitValue at value
      simp only [Char.isDigit, Bool.and_eq_true, decide_eq_true_eq, Char.le_def] at value
      have upper (d : Char) (h : c.val ≤ d.val) : c.toNat ≤ d.toNat := h
      split at value
      · next h => exact Nat.lt_of_le_of_lt (upper '9' h.2) (by decide)
      · split at value
        · next h => exact Nat.lt_of_le_of_lt (upper 'f' h.2) (by decide)
        · split at value
          · next h => exact Nat.lt_of_le_of_lt (upper 'F' h.2) (by decide)
          · cases value
    have table : ∀ n < 103, ∀ e ∈ (digitValue (Char.ofNat n)).toList,
        e < 16 ∧ (Char.ofNat n = e.digitChar ∨ Char.ofNat n = e.digitChar.toUpper) := by
      decide
    have entry := table c.toNat small d
    rw [Char.ofNat_toNat, value] at entry
    exact entry (List.mem_singleton.mpr rfl)
  · rintro ⟨small, digit⟩
    have table : ∀ e < 16, digitValue e.digitChar = some e ∧
        digitValue e.digitChar.toUpper = some e := by
      decide
    rcases digit with rfl | rfl
    · exact (table d small).1
    · exact (table d small).2

section
variable {radix : Nat}

theorem pushDigit_eq_some_iff (most : radix ≤ 16) {n m : Nat} {c : Char} :
    pushDigit radix n c = some m ↔ ∃ d, IsDigitOf radix c d ∧ radix * n + d = m := by
  simp only [pushDigit, Option.bind_eq_bind, Option.bind_eq_some_iff, digitValue_eq_some_iff]
  constructor
  · rintro ⟨d, ⟨-, digit⟩, pushed⟩
    split at pushed
    · next small => exact ⟨d, ⟨small, digit⟩, Option.some.inj pushed⟩
    · cases pushed
  · rintro ⟨d, ⟨small, digit⟩, rfl⟩
    exact ⟨d, ⟨Nat.lt_of_lt_of_le small most, digit⟩, if_pos small⟩

/-- Digit by digit, a number is read exactly from characters that are digits. -/
theorem foldlM_pushDigit_eq_some_iff (most : radix ≤ 16) {start n : Nat} {cs : List Char} :
    cs.foldlM (pushDigit radix) start = some n ↔
      ∃ values, List.Forall₂ (IsDigitOf radix) cs values ∧
        values.foldl (fun n d => radix * n + d) start = n := by
  induction cs generalizing start with
  | nil =>
    constructor
    · rintro ⟨⟩
      exact ⟨[], .nil, rfl⟩
    · rintro ⟨_, ⟨⟩, rfl⟩
      rfl
  | cons c cs ih =>
    rw [List.foldlM_cons, Option.bind_eq_bind, Option.bind_eq_some_iff]
    constructor
    · rintro ⟨m, pushed, read⟩
      obtain ⟨d, digit, rfl⟩ := (pushDigit_eq_some_iff most).mp pushed
      obtain ⟨values, digits, value⟩ := ih.mp read
      exact ⟨d :: values, .cons digit digits, value⟩
    · rintro ⟨_, digits, value⟩
      cases digits with
      | cons digit digits =>
        exact ⟨_, (pushDigit_eq_some_iff most).mpr ⟨_, digit, rfl⟩, ih.mpr ⟨_, digits, value⟩⟩

theorem foldl_eq_ofDigits (values : List Nat) :
    values.foldl (fun n d => radix * n + d) 0 = Nat.ofDigits radix values.reverse := by
  have order : (fun n d => radix * n + d) = fun n d => d + radix * n := by
    funext n d
    exact Nat.add_comm _ _
  rw [Nat.ofDigits_eq_foldr, ← List.foldl_reverse, List.reverse_reverse, order]
  rfl

theorem writes_iff (most : radix ≤ 16) {cs : List Char} {n : Nat} :
    Writes radix cs n ↔ cs ≠ [] ∧ cs.foldlM (pushDigit radix) 0 = some n := by
  simp only [Writes, foldlM_pushDigit_eq_some_iff most, foldl_eq_ofDigits, eq_comm]

theorem Writes.unique (most : radix ≤ 16) {cs : List Char} {n m : Nat}
    (writes : Writes radix cs n) (other : Writes radix cs m) : n = m := by
  have read := ((writes_iff most).mp writes).2
  rw [((writes_iff most).mp other).2] at read
  exact (Option.some.inj read).symm

/-- A plus is no digit. -/
theorem not_writes_plus (most : radix ≤ 16) {digits : List Char} {n : Nat} :
    ¬Writes radix ('+' :: digits) n := by
  rintro ⟨-, values, digits, -⟩
  cases digits with
  | cons digit _ =>
    obtain ⟨small, plus⟩ := digit
    have value := digitValue_eq_some_iff.mpr ⟨Nat.lt_of_lt_of_le small most, plus⟩
    exact absurd value nofun

/-- What is accepted after the mark of a radix: a number of 64 bits, perhaps after a plus. -/
inductive Admits (radix : Nat) : List Char → Nat → Prop where
  | plain {digits : List Char} {n : Nat} (writes : Writes radix digits n)
      (word : n < unsignedLimit) : Admits radix digits n
  | plus {digits : List Char} {n : Nat} (writes : Writes radix digits n)
      (word : n < unsignedLimit) : Admits radix ('+' :: digits) n

/-- The characters after a plus, where there is one. -/
def afterPlus (cs : List Char) : List Char :=
  match cs with
  | '+' :: rest => rest
  | _ => cs

theorem admits_iff (most : radix ≤ 16) {cs : List Char} {n : Nat} :
    Admits radix cs n ↔ Writes radix (afterPlus cs) n ∧ n < unsignedLimit := by
  constructor
  · intro admits
    cases admits with
    | plain writes word =>
      have same : afterPlus cs = cs := by
        unfold afterPlus
        split
        · exact absurd writes (not_writes_plus most)
        · rfl
      rw [same]
      exact ⟨writes, word⟩
    | plus writes word => exact ⟨writes, word⟩
  · rintro ⟨writes, word⟩
    unfold afterPlus at writes
    split at writes
    · exact .plus writes word
    · exact .plain writes word

theorem readRadix_eq_some_iff (most : radix ≤ 16) {cs : List Char} {x : Double} :
    readRadix radix cs = some x ↔ ∃ n, Admits radix cs n ∧ x = .ofNat n := by
  have unfolded : readRadix radix cs =
      if afterPlus cs = [] then none
      else (afterPlus cs).foldlM (pushDigit radix) 0 >>= fun n =>
        if n < unsignedLimit then some (.ofNat n) else none := rfl
  simp only [unfolded, admits_iff most, writes_iff most, and_assoc]
  by_cases empty : afterPlus cs = []
  · rw [if_pos empty]
    constructor
    · nofun
    · rintro ⟨_, nonempty, -⟩
      exact absurd empty nonempty
  · rw [if_neg empty, Option.bind_eq_bind, Option.bind_eq_some_iff]
    constructor
    · rintro ⟨n, value, shown⟩
      split at shown
      · next word => exact ⟨n, empty, value, word, (Option.some.inj shown).symm⟩
      · cases shown
    · rintro ⟨n, -, value, word, rfl⟩
      exact ⟨n, value, if_pos word⟩

end

/-- What a text shows is what the characters after the mark are read as. -/
theorem read_eq_readRadix {text : String} {body rest : List Char} {radix : Nat}
    (trimmed : TrimsTo text.toList body) (marked : Marks radix body rest) :
    read text = readRadix radix rest := by
  have nonempty : body ≠ [] := by
    obtain ⟨_, rfl, _⟩ := marked
    exact List.cons_ne_nil _ _
  rw [read, trimmed.trimBlanks_eq, readTrimmed, if_neg nonempty,
    radixMark_eq_some_iff.mpr marked]

/-- A radix literal is accepted exactly where a number of 64 bits is written in its radix, perhaps
after a plus, and shows the positive number that is nearest to it, which is the number itself if
it has 53 bits. Accepted are hence exactly the plain numerals, unless a numeral stands after a
plus or has more than 64 bits. -/
theorem read_radix {text : String} {body rest : List Char} {radix : Nat}
    (trimmed : TrimsTo text.toList body) (marked : Marks radix body rest) :
    ((read text).isSome ↔ ∃ n, Admits radix rest n) ∧
      (∀ n, Admits radix rest n → ∃ x, read text = some (.finite x) ∧ x.negative = false ∧
        x.IsNearest (n * Binary64.quantaPerUnit : Nat) ∧
          (n < 2 ^ 53 → x.signedQuanta = (n * Binary64.quantaPerUnit : Nat))) ∧
        (((read text).isSome ↔ ∃ n, Writes radix rest n) ↔
          (∀ digits n, rest = '+' :: digits → Writes radix digits n → unsignedLimit ≤ n) ∧
            ∀ n, Writes radix rest n → n < unsignedLimit) := by
  have most := marked.radix_le
  have accepted : (read text).isSome ↔ ∃ n, Admits radix rest n := by
    rw [read_eq_readRadix trimmed marked, Option.isSome_iff_exists]
    simp only [readRadix_eq_some_iff most]
    constructor
    · rintro ⟨_, n, admits, -⟩
      exact ⟨n, admits⟩
    · rintro ⟨n, admits⟩
      exact ⟨_, n, admits, rfl⟩
  refine ⟨accepted, ?_, ?_⟩
  · intro n admits
    have word : n < unsignedLimit := ((admits_iff most).mp admits).2
    obtain ⟨x, value, positive, nearest, exact⟩ := Double.ofNat_nearest word
    refine ⟨x, ?_, positive, nearest, exact⟩
    rw [read_eq_readRadix trimmed marked, ← value]
    exact (readRadix_eq_some_iff most).mpr ⟨n, admits, rfl⟩
  · rw [accepted]
    constructor
    · intro plain
      constructor
      · rintro digits n rfl writes
        apply Nat.le_of_not_lt
        intro word
        obtain ⟨m, written⟩ := plain.mp ⟨n, .plus writes word⟩
        exact not_writes_plus most written
      · intro n writes
        obtain ⟨m, admits⟩ := plain.mpr ⟨n, writes⟩
        cases admits with
        | plain written word => exact writes.unique most written ▸ word
        | plus written word => exact absurd writes (not_writes_plus most)
    · rintro ⟨large, small⟩
      constructor
      · rintro ⟨n, admits⟩
        cases admits with
        | plain writes word => exact ⟨n, writes⟩
        | plus writes word => exact absurd (large _ n rfl writes) (Nat.not_le.mpr word)
      · rintro ⟨n, writes⟩
        exact ⟨n, .plain writes (small n writes)⟩

/-- A hexadecimal literal between blanks shows its number. -/
theorem read_radix_hexadecimal :
    TrimsTo " 0x1F\n".toList "0x1F".toList ∧ Marks 16 "0x1F".toList "1F".toList ∧
      ∃ x, read " 0x1F\n" = some (.finite x) ∧
        x.signedQuanta = (31 * Binary64.quantaPerUnit : Nat) := by
  have trimmed : TrimsTo " 0x1F\n".toList "0x1F".toList := trimBlanks_eq_iff.mp (by decide)
  have marked : Marks 16 "0x1F".toList "1F".toList := ⟨'x', rfl, .hexadecimal (.inl rfl)⟩
  have one : IsDigitOf 16 '1' 1 := ⟨by decide, .inl rfl⟩
  have fifteen : IsDigitOf 16 'F' 15 := ⟨by decide, .inr (by decide)⟩
  have writes : Writes 16 "1F".toList 31 :=
    ⟨by decide, [1, 15], .cons one (.cons fifteen .nil), by decide⟩
  obtain ⟨x, value, -, -, exact⟩ := (read_radix trimmed marked).2.1 31 (.plain writes (by decide))
  exact ⟨trimmed, marked, x, value, exact (by decide)⟩

/-- A numeral after a plus is accepted, and one of 65 bits is refused. -/
theorem read_radix_departs :
    (TrimsTo "0x+1".toList "0x+1".toList ∧ Marks 16 "0x+1".toList "+1".toList ∧
      ¬((read "0x+1").isSome ↔ ∃ n, Writes 16 "+1".toList n)) ∧
    (TrimsTo "0x10000000000000000".toList "0x10000000000000000".toList ∧
      Marks 16 "0x10000000000000000".toList "10000000000000000".toList ∧
      ¬((read "0x10000000000000000").isSome ↔ ∃ n, Writes 16 "10000000000000000".toList n)) := by
  refine ⟨⟨trimBlanks_eq_iff.mp (by decide), ⟨'x', rfl, .hexadecimal (.inl rfl)⟩, ?_⟩,
    trimBlanks_eq_iff.mp (by decide), ⟨'x', rfl, .hexadecimal (.inl rfl)⟩, ?_⟩
  · intro claimed
    have shown : (read "0x+1").isSome = true := rfl
    obtain ⟨n, writes⟩ := claimed.mp shown
    exact not_writes_plus (by decide) writes
  · intro claimed
    have refused : (read "0x10000000000000000").isSome = false := rfl
    have value : "10000000000000000".toList.foldlM (pushDigit 16) 0 = some (2 ^ 64) := rfl
    have writes := (writes_iff (by decide)).mpr ⟨by decide, value⟩
    have shown := claimed.mpr ⟨_, writes⟩
    rw [refused] at shown
    exact Bool.false_ne_true shown

end Numeral

end BoardRollup
