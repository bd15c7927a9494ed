import BoardRollup.Proofs.RereadSums
import BoardRollup.Proofs.WrittenWholeNumbers
import Mathlib.Data.List.Infix

/-!
# Sums of integers

Each integer in decimal digits is read as it is, up to `2 ^ 53`, and a running sum of such integers
stays exact for as long as it stays within this bound, whatever texts and blanks stand between
them. The sum is then written in decimal digits: no sum of integers ends in a fraction, an exponent
or a zero with a minus.
-/

namespace BoardRollup

open Binary64

namespace Double

def IsInt (x : Double) (z : Int) : Prop := ∃ y, x = .finite y ∧ y.IsWhole z

/-- An integer is added to an integer without loss. -/
theorem ofInt_add {a z : Int} (small : a.natAbs ≤ 2 * binade) {x : Double} (integer : x.IsInt z) :
    ofInt a + x = ofInt (a + z) := by
  obtain ⟨sum, value, sign, whole⟩ := ofInt_whole small
  obtain ⟨y, rfl, right⟩ := integer
  rw [value, add_whole sign whole right]

/-- A running sum of integers is exact at its end if it is within bounds on the way. -/
theorem foldl_add_ofInt {numbers : List Double} {integers : List Int}
    (each : List.Forall₂ IsInt numbers integers) {start : Int}
    (small : ∀ before, before <+: integers → (start + before.sum).natAbs ≤ 2 * binade) :
    numbers.foldl (· + ·) (ofInt start) = ofInt (start + integers.sum) := by
  induction each generalizing start with
  | nil => rw [List.foldl_nil, List.sum_nil, Int.add_zero]
  | @cons x z numbers integers integer _ ih =>
    have here : start.natAbs ≤ 2 * binade := by
      simpa using small [] List.nil_prefix
    have later : ∀ before, before <+: integers →
        (start + z + before.sum).natAbs ≤ 2 * binade := by
      intro before front
      have longer := small (z :: before) (List.cons_prefix_cons.mpr ⟨rfl, front⟩)
      rwa [List.sum_cons, ← Int.add_assoc] at longer
    rw [List.foldl_cons, ofInt_add here integer, ih later, List.sum_cons, Int.add_assoc]

end Double

namespace Numeral

/-- An integer in decimal digits, perhaps after a minus. -/
inductive IsInteger : List Char → Int → Prop where
  | unsigned {digits : List Char} {n : Nat} (writes : Writes 10 digits n) : IsInteger digits n
  | minus {digits : List Char} {n : Nat} (writes : Writes 10 digits n) :
      IsInteger ('-' :: digits) (-n)

theorem IsInteger.ne_nil {cs : List Char} {z : Int} (integer : IsInteger cs z) : cs ≠ [] := by
  cases integer with
  | unsigned writes => exact writes.1
  | minus _ => exact List.cons_ne_nil _ _

theorem isDigit_of_isDigitOf {c : Char} {d : Nat} (digit : IsDigitOf 10 c d) :
    c.isDigit = true ∧ c.toNat - '0'.toNat = d := by
  obtain ⟨small, same⟩ := digit
  have table : ∀ e < 10, e.digitChar.toUpper = e.digitChar ∧ e.digitChar.isDigit = true ∧
      e.digitChar.toNat - '0'.toNat = e := by
    decide
  obtain ⟨upper, entry⟩ := table d small
  rw [upper, or_self] at same
  rwa [same]

theorem foldl_digits {cs : List Char} {values : List Nat}
    (each : List.Forall₂ (IsDigitOf 10) cs values) (start : Nat) :
    cs.foldl (fun n c => 10 * n + (c.toNat - '0'.toNat)) start =
      values.foldl (fun n d => 10 * n + d) start := by
  induction each generalizing start with
  | nil => rfl
  | cons digit _ ih =>
    rw [List.foldl_cons, List.foldl_cons, (isDigit_of_isDigitOf digit).2]
    exact ih _

/-- Digits of the radix ten are the digits of a decimal, and they have its value. -/
theorem Writes.digits {cs : List Char} {n : Nat} (writes : Writes 10 cs n) :
    Digits cs ∧ Decimal.valueOf cs = n := by
  obtain ⟨nonempty, values, each, rfl⟩ := writes
  have both : List.Forall₂ (fun c d => c.isDigit = true ∧ IsDigitOf 10 c d) cs values :=
    each.imp fun c d digit => ⟨(isDigit_of_isDigitOf digit).1, digit⟩
  refine ⟨⟨nonempty, ((List.forall₂_and_left _ _).mp both).1⟩, ?_⟩
  rw [← foldl_eq_ofDigits]
  exact foldl_digits each 0

theorem readUnsigned_digits {cs : List Char} (digits : Digits cs) :
    readUnsigned cs = some ⟨Decimal.valueOf cs, 0⟩ := by
  have whole : spanDigits cs = (cs, []) := by
    have ends : ∀ c ∈ ([] : List Char).head?, ¬c.isDigit := nofun
    have all := spanDigits_append digits.2 ends
    rwa [List.append_nil] at all
  have noPlaces : takePlaces [] = ([], []) := rfl
  rw [readUnsigned_eq whole noPlaces, if_neg (fun none => digits.1 none.1),
    readScale, Option.map_some, Decimal.ofParts, List.append_nil]
  rfl

/-- Digits of at most `2 ^ 53` are read as the integer that they write. -/
theorem read_minus_digits (negative : Bool) {cs : List Char} {n : Nat} (writes : Writes 10 cs n)
    (small : n ≤ 2 * binade) :
    ∃ x, read (.ofList (Layout.minus negative ++ cs)) = some x ∧
      x.IsInt (if negative then -n else n) := by
  obtain ⟨digits, value⟩ := writes.digits
  obtain ⟨d, rest, rfl⟩ := List.exists_cons_of_ne_nil digits.1
  have first : d ∈ (d :: rest).head? := rfl
  have signed := readSigned_minus negative first (digits.2 d List.mem_cons_self)
  obtain ⟨x, number, sign, quanta⟩ := Double.ofQuanta_whole negative (.inl small)
  have shown : (Decimal.mk n 0).toDouble negative = .finite x := by
    have whole := Decimal.toDouble_whole n 0 negative
    rwa [tenTo_zero, Nat.mul_one, number] at whole
  rw [readUnsigned_digits digits, value, Option.map_some, shown] at signed
  refine ⟨.finite x, ?_, x, rfl, ?_⟩
  · exact read_ofList_of_readSigned (List.append_ne_nil_of_right_ne_nil _ digits.1) signed
  · rw [← sign]
    exact FiniteDouble.isWhole_of_quanta_eq quanta

/-- An integer of at most `2 ^ 53` is read as it is. -/
theorem read_integer {text : String} {z : Int} (integer : IsInteger text.toList z)
    (small : z.natAbs ≤ 2 * binade) : ∃ x, read text = some x ∧ x.IsInt z := by
  rw [← String.ofList_toList (s := text)]
  generalize text.toList = cs at integer
  cases integer with
  | unsigned writes => exact read_minus_digits false writes small
  | minus writes => exact read_minus_digits true writes (by omega)

end Numeral

theorem Layout.eq_of_mem_minus {negative : Bool} {c : Char} (mem : c ∈ minus negative) :
    c = '-' := by
  cases negative with
  | true => exact List.mem_singleton.mp mem
  | false => cases mem

theorem Json.escape_of_isDigit {c : Char} (digit : c.isDigit = true) : escape c = [c] := by
  have most : c.toNat ≤ 57 := of_decide_eq_true (Bool.and_eq_true_iff.mp digit).2
  have table : ∀ n < 58, (Char.ofNat n).isDigit = true → escape (Char.ofNat n) = [.ofNat n] := by
    decide
  have entry := table c.toNat (by omega)
  rw [Char.ofNat_toNat] at entry
  exact entry digit

/-- The JSON text of an integer is its text between quotes. -/
theorem Json.compact_toString (z : Int) :
    (Json.str (toString z)).compact = "\"" ++ toString z ++ "\"" := by
  have plain : ∀ c ∈ (toString z).toList, escape c = [c] := by
    intro c mem
    rw [toList_toString] at mem
    rcases List.mem_append.mp mem with minus | digit
    · rw [Layout.eq_of_mem_minus minus]
      rfl
    · exact escape_of_isDigit (Decimal.isDigit_of_mem_digitChars digit)
  have same : (toString z).toList.flatMap escape = (toString z).toList := by
    rw [List.flatMap_congr plain, List.flatMap_singleton']
  rw [← String.toList_inj, compact, write, writeString, same]
  simp

namespace Contributions

/-- What a cell adds to a sum of integers, if it adds anything. -/
inductive Adds : Option String → Option Int → Prop where
  | missing : Adds none none
  | empty : Adds (some "") none
  | other {text : String} (unread : Numeral.read text = none) : Adds (some text) none
  | integer {text : String} {z : Int} (integer : Numeral.IsInteger text.toList z) :
      Adds (some text) (some z)

theorem numbers_cons (cell : Option String) (cells : List (Option String)) :
    numbers (cell :: cells) = ((shown? cell).bind Numeral.read).toList ++ numbers cells := by
  rw [numbers, counted_cons, List.filterMap_append]
  cases shown? cell with
  | none => rfl
  | some text => cases read : Numeral.read text <;> simp [numbers, read]

/-- The numbers among cells are the integers that are added. -/
theorem numbers_integers {cells : List (Option String)} {adds : List (Option Int)}
    (each : List.Forall₂ Adds cells adds)
    (small : ∀ z ∈ adds.filterMap id, z.natAbs ≤ 2 * binade) :
    List.Forall₂ Double.IsInt (numbers cells) (adds.filterMap id) := by
  induction each with
  | nil => exact .nil
  | cons cell _ ih =>
    rw [numbers_cons]
    cases cell with
    | missing => exact ih small
    | empty => exact ih small
    | @other text unread =>
      have nothing : (shown? (some text)).bind Numeral.read = none := by
        by_cases empty : text = ""
        · subst empty
          rfl
        · rw [shown?_of_ne empty]
          exact unread
      rw [nothing]
      exact ih small
    | @integer text z integer =>
      obtain ⟨first, others⟩ := List.forall_mem_cons.mp small
      obtain ⟨x, read, number⟩ := Numeral.read_integer integer first
      have nonempty : text ≠ "" := by
        rintro rfl
        exact integer.ne_nil rfl
      rw [shown?_of_ne nonempty, Option.bind_some, read]
      exact .cons number (ih others)

/-- Integers that are added up within `2 ^ 53` come to their sum. It is written in decimal digits,
and the texts that add nothing are joined with the others all the same. -/
theorem ofTexts_integers {cells : List (Option String)} {adds : List (Option Int)}
    (each : List.Forall₂ Adds cells adds)
    (small : ∀ z ∈ adds.filterMap id, z.natAbs ≤ 2 ^ 53)
    (running : ∀ before, before <+: adds.filterMap id → before.sum.natAbs ≤ 2 ^ 53) :
    (ofTexts cells).joined = joinedText? (counted cells) ∧
      (ofTexts cells).value =
        if adds.filterMap id = [] then none
        else some (.str ("\"" ++ toString (adds.filterMap id).sum ++ "\"")) := by
  have bound : 2 ^ 53 = 2 * binade := by decide
  rw [bound] at small running
  have integers := numbers_integers each small
  refine ⟨joined_ofTexts cells, ?_⟩
  rw [value_ofTexts, summedValue?]
  change (total? (numbers cells)).map _ = _
  generalize adds.filterMap id = added at integers running
  generalize numbers cells = shown at integers
  cases integers with
  | nil => rfl
  | @cons x z numbers integers number others =>
    have total : total? (x :: numbers) = some (.ofInt (z :: integers).sum) := by
      refine total?_eq_some_iff.mpr ⟨List.cons_ne_nil _ _, ?_⟩
      have within : ∀ before, before <+: z :: integers → (0 + before.sum).natAbs ≤ 2 * binade := by
        simpa only [Int.zero_add] using running
      have sum := Double.foldl_add_ofInt (.cons number others) within
      rwa [Double.ofInt_zero, Int.zero_add] at sum
    have written := Numeral.write_ofInt (running (z :: integers) List.prefix_rfl)
    rw [total, Option.map_some, written, Json.compact_toString, if_neg (List.cons_ne_nil _ _)]

/-- The greatest integer and its negative add up to zero on the way, whatever stands between. -/
theorem ofTexts_integers_opposite :
    let cells := [some "9007199254740992", none, some "n/a", some "-9007199254740992", some "",
      some "-007"]
    let adds := [some 9007199254740992, none, none, some (-9007199254740992), none, some (-7)]
    List.Forall₂ Adds cells adds ∧ (∀ z ∈ adds.filterMap id, z.natAbs ≤ 2 ^ 53) ∧
      (∀ before, before <+: adds.filterMap id → before.sum.natAbs ≤ 2 ^ 53) ∧
        (ofTexts cells).joined =
          some "9007199254740992, n/a, -9007199254740992, -007" ∧
        (ofTexts cells).value = some (.str "\"-7\"") := by
  intro cells adds
  have greatest : Numeral.Writes 10 "9007199254740992".toList 9007199254740992 :=
    (Numeral.writes_iff (by decide)).mpr ⟨by decide, rfl⟩
  have seven : Numeral.Writes 10 "007".toList 7 :=
    (Numeral.writes_iff (by decide)).mpr ⟨by decide, rfl⟩
  have each : List.Forall₂ Adds cells adds :=
    .cons (.integer (.unsigned greatest)) <| .cons .missing <| .cons (.other rfl) <|
      .cons (.integer (.minus greatest)) <| .cons .empty <| .cons (.integer (.minus seven)) .nil
  have small : ∀ z ∈ adds.filterMap id, z.natAbs ≤ 2 ^ 53 := by decide
  have running : ∀ before, before <+: adds.filterMap id → before.sum.natAbs ≤ 2 ^ 53 := by
    have all : ∀ before ∈ (adds.filterMap id).inits, before.sum.natAbs ≤ 2 ^ 53 := by decide
    intro before front
    exact all before ((List.mem_inits _ _).mpr front)
  obtain ⟨joined, value⟩ := ofTexts_integers each small running
  exact ⟨each, small, running, joined, value⟩

end Contributions

end BoardRollup
