import BoardRollup.Column.Mappable
import BoardRollup.Proofs.Rounding
import BoardRollup.Relation.Basic

/-!
# Scalars

Null, false, a zero of either sign and the empty string count as nothing, and every other value
counts as true. An id is a string that is not empty, or a number as it is spelled.
-/

namespace BoardRollup

namespace Json

/-- A value that counts as nothing. -/
inductive CountsAsNothing : Json → Prop where
  | null : CountsAsNothing .null
  | no : CountsAsNothing (.bool false)
  | whole {n : WideInt} (zero : n.val = 0) : CountsAsNothing (.num (.whole n))
  | float {x : FiniteDouble} (zero : x.signedQuanta = 0) : CountsAsNothing (.num (.float x))
  | empty : CountsAsNothing (.str "")

theorem isFalsy_iff {v : Json} : v.isFalsy = true ↔ v.CountsAsNothing := by
  constructor
  · intro falsy
    cases v with
    | null => exact .null
    | bool b =>
      cases b with
      | true => cases falsy
      | false => exact .no
    | num n =>
      cases n with
      | whole n => exact .whole (of_decide_eq_true falsy)
      | float x => exact .float (FiniteDouble.signedQuanta_eq_zero_iff.mpr falsy)
    | str s =>
      obtain rfl : s = "" := of_decide_eq_true falsy
      exact .empty
    | arr _ | obj _ => cases falsy
  · rintro (_ | _ | zero | zero | _)
    · rfl
    · rfl
    · exact decide_eq_true zero
    · exact FiniteDouble.signedQuanta_eq_zero_iff.mp zero
    · rfl

/-- What does not count as nothing counts as true. -/
theorem isTruthy_iff {v : Json} : v.isTruthy = true ↔ ¬ v.CountsAsNothing := by
  have opposite : v.isTruthy = !v.isFalsy := by
    cases v with
    | str s => exact decide_not
    | bool b => cases b <;> rfl
    | null | num _ | arr _ | obj _ => rfl
  rw [← isFalsy_iff, opposite, Bool.not_eq_true', Bool.not_eq_true]

theorem asId_eq_some_iff {v : Json} {id : String} :
    v.asId = some id ↔ v = .str id ∧ id ≠ "" ∨ ∃ n, v = .num n ∧ n.spelling = id := by
  cases v with
  | str s =>
    rw [asId]
    by_cases empty : s = ""
    · simp only [if_pos empty, str.injEq, reduceCtorEq, false_and, exists_false, or_false,
        false_iff]
      rintro ⟨rfl, shown⟩
      exact shown empty
    · simp only [if_neg empty, Option.some.injEq, str.injEq, reduceCtorEq, false_and,
        exists_false, or_false]
      exact ⟨fun same => ⟨same, same ▸ empty⟩, And.left⟩
  | num n => simp [asId]
  | null | bool _ | arr _ | obj _ => simp [asId]

end Json

end BoardRollup
