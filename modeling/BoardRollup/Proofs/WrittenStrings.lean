import BoardRollup.Column.Contents
import BoardRollup.Json.Printer

/-!
# Written strings read back

A string is written character by character, and the reader undoes each character's
escape and stops at the closing quote. So the text of a string is a document that
holds that string, whatever its characters are.
-/

namespace BoardRollup

namespace Json

theorem hexValue_hexChar {n : Nat} (h : n < 16) : hexValue (hexChar n) = some n := by
  have all : ∀ n < 16, hexValue (hexChar n) = some n := by decide
  exact all n h

/-- Of a control character the two last digits of the escape say which one it is. -/
theorem codeUnit_control {n : Nat} (h : n < 0x20) :
    codeUnit '0' '0' (hexChar (n / 16)) (hexChar (n % 16)) = some n := by
  have zero : hexValue '0' = some 0 := rfl
  have high : hexValue (hexChar (n / 16)) = some (n / 16) := hexValue_hexChar (by omega)
  have low : hexValue (hexChar (n % 16)) = some (n % 16) :=
    hexValue_hexChar (Nat.mod_lt _ (by decide))
  have whole : ((0 * 16 + 0) * 16 + n / 16) * 16 + n % 16 = n := by omega
  simp only [codeUnit, zero, high, low, Option.bind_eq_bind, Option.bind_some, whole]

theorem readChars_control {c : Char} (h : c.toNat < 0x20) (rest : List Char) :
    readChars ('\\' :: 'u' :: '0' :: '0' :: hexChar (c.toNat / 16) :: hexChar (c.toNat % 16)
      :: rest) = push c (readChars rest) := by
  have low : isLowSurrogate c.toNat = false := by
    simp only [isLowSurrogate, Bool.and_eq_false_iff, decide_eq_false_iff_not]
    omega
  have high : isHighSurrogate c.toNat = false := by
    simp only [isHighSurrogate, Bool.and_eq_false_iff, decide_eq_false_iff_not]
    omega
  rw [readChars]
  simp only [codeUnit_control h, low, high, Bool.false_eq_true, ↓reduceIte, Char.ofNat_toNat]

theorem readChars_plain {c : Char} (quote : c ≠ '"') (backslash : c ≠ '\\')
    (shown : ¬ c.toNat < 0x20) (rest : List Char) :
    readChars (c :: rest) = push c (readChars rest) := by
  rw [readChars, if_neg shown]
  · exact quote
  · exact fun _ _ _ _ _ eq => absurd eq backslash
  · exact fun _ _ eq => absurd eq backslash

theorem readChars_escape (c : Char) (rest : List Char) :
    readChars (escape c ++ rest) = push c (readChars rest) := by
  unfold escape
  split
  case h_8 quote backslash _ _ _ _ _ =>
    split
    · next control => exact readChars_control control rest
    · next shown => exact readChars_plain quote backslash shown rest
  all_goals rfl

theorem readChars_flatMap_escape (cs rest : List Char) :
    readChars (cs.flatMap escape ++ '"' :: rest) = some (cs, rest) := by
  induction cs with
  | nil => rfl
  | cons c cs ih =>
    rw [List.flatMap_cons, List.append_assoc, readChars_escape, ih]
    rfl

theorem readString_escaped (s : String) (rest : List Char) :
    readString (s.toList.flatMap escape ++ '"' :: rest) = some (s, rest) := by
  simp only [readString, readChars_flatMap_escape, Option.map_some, String.ofList_toList]

/-- A string is read off the front of a text at any depth. -/
theorem readValue_writeString (depth : Nat) (s : String) (rest : List Char) :
    readValue depth (writeString s ++ rest) = some (.str s, rest) := by
  have scalar : readValue depth (writeString s ++ rest) =
      (readString (s.toList.flatMap escape ++ '"' :: rest)).map
        fun found => (.str found.1, found.2) := by
    rw [writeString, List.append_assoc, List.singleton_append]
    cases depth with
    | zero => rfl
    | succ depth => rfl
  rw [scalar, readString_escaped, Option.map_some]

/-- The text of a string is a document that holds the string. -/
theorem read?_compact_str (s : String) : read? (compact (.str s)) = some (.str s) := by
  have text : (compact (.str s)).toList = writeString s ++ [] := by
    rw [compact, write, String.toList_ofList, List.append_nil]
  rw [read?, text, readValue_writeString]
  rfl

end Json

/-- A value that is the text of a string holds that string. -/
theorem Contents.ofString_compact_str (s : String) :
    ofString (Json.str s).compact = .text s := by
  rw [ofString, Json.read?_compact_str]

end BoardRollup
