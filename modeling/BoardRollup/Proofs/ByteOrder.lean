/-!
# Texts in the order of their bytes

Texts are compared character by character. The bytes that UTF-8 encodes a text in are
compared alike: of two characters the one with the smaller code has the smaller first
byte, or it has as many bytes and the smaller ones where they first differ.
-/

namespace BoardRollup

def utf8Bytes (s : String) : List UInt8 := s.toByteArray.data.toList

theorem utf8Bytes_eq (s : String) : utf8Bytes s = s.toList.flatMap String.utf8EncodeChar := by
  rw [utf8Bytes, ← String.utf8Encode_toList, List.utf8Encode]
  simp

/-- The first byte in which two characters differ decides, whatever follows. -/
theorem utf8EncodeChar_append_lt {a b : Char} (h : a < b) (as bs : List UInt8) :
    String.utf8EncodeChar a ++ as < String.utf8EncodeChar b ++ bs := by
  have codes : a.val.toNat < b.val.toNat := UInt32.lt_iff_toNat_lt.mp h
  have top : b.val.toNat < 0x110000 := by
    rcases b.valid with low | ⟨_, high⟩
    · exact Nat.lt_trans low (by decide)
    · exact high
  unfold String.utf8EncodeChar
  generalize a.val.toNat = v at codes
  generalize b.val.toNat = w at codes top
  dsimp only
  -- One case for each number of bytes on either side; a shorter code comes first.
  repeat' split
  all_goals
    simp only [List.cons_append, List.nil_append, List.cons_lt_cons_iff,
      UInt8.lt_iff_toNat_lt, ← UInt8.toNat_inj, UInt8.toNat_ofNat']
    simp (disch := omega) only [Nat.mod_eq_of_lt]
    omega

theorem append_lt_append_left {xs ys : List UInt8} (front : List UInt8) (h : xs < ys) :
    front ++ xs < front ++ ys := by
  induction front with
  | nil => exact h
  | cons x front ih => exact List.cons_lt_cons_iff.mpr (.inr ⟨rfl, ih⟩)

theorem flatMap_utf8EncodeChar_lt {as bs : List Char} (h : as < bs) :
    as.flatMap String.utf8EncodeChar < bs.flatMap String.utf8EncodeChar := by
  induction as generalizing bs with
  | nil =>
    cases bs with
    | nil => cases h
    | cons b bs =>
      obtain ⟨byte, rest, encoded⟩ :=
        List.exists_cons_of_ne_nil (String.utf8EncodeChar_ne_nil (c := b))
      rw [List.flatMap_nil, List.flatMap_cons, encoded]
      exact List.nil_lt_cons _ _
  | cons a as ih =>
    cases bs with
    | nil => cases h
    | cons b bs =>
      rw [List.flatMap_cons, List.flatMap_cons]
      rcases List.cons_lt_cons_iff.mp h with less | ⟨rfl, less⟩
      · exact utf8EncodeChar_append_lt less _ _
      · exact append_lt_append_left _ (ih less)

theorem utf8Bytes_lt {s t : String} (h : s < t) : utf8Bytes s < utf8Bytes t := by
  rw [utf8Bytes_eq, utf8Bytes_eq]
  exact flatMap_utf8EncodeChar_lt h

end BoardRollup
