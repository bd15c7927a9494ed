import BoardRollup.Linked.References
import BoardRollup.Proofs.ByteOrder
import BoardRollup.Proofs.WrittenDecimals

/-!
# References of columns

Which ids a column refers to, said as a relation: those of its own list that are not
empty, and those that the entries of `linkedPulseIds` give where its value is a
string that holds an object. No such id is empty, also not one that is spelled from a
number.

An id set is strictly ascending, by characters and by bytes, and so repeats nothing.
-/

namespace BoardRollup

/-- A column refers to an id. -/
inductive Column.Refers (c : Column) : String → Prop
  /-- The id is on the column's own list. -/
  | listed {ids : List String} {id : String} (own : c.linkedIds = some ids) (mem : id ∈ ids)
      (shown : id ≠ "") : c.Refers id
  /-- The id is given by an entry of `linkedPulseIds` in the object that the value holds. -/
  | embedded {s : String} {fields : List (String × Json)} {entries : List Json}
      {entry given : Json} {id : String} (value : c.value = .str s)
      (holds : Json.read? s = some (.obj fields))
      (pulses : fields.lookup "linkedPulseIds" = some (.arr entries)) (mem : entry ∈ entries)
      (field : entry.field? "linkedPulseId" = some given) (scalar : given.asId = some id) :
      c.Refers id

theorem JsonNumber.spelling_ne_empty (n : JsonNumber) : n.spelling ≠ "" := by
  cases n with
  | whole n =>
    have digits : Decimal.digitChars n.val.natAbs ≠ [] := Nat.toDigits_ne_nil
    intro empty
    have nothing := String.ofList_eq_empty_iff.mp empty
    exact digits (List.append_eq_nil_iff.mp nothing).2
  | float x =>
    intro empty
    exact Layout.write_ne_nil _ (.inl rfl) x (String.ofList_eq_empty_iff.mp empty)

theorem Json.asId_ne_empty {v : Json} {id : String} (h : v.asId = some id) : id ≠ "" := by
  cases v with
  | str s =>
    by_cases empty : s = ""
    · simp [asId, empty] at h
    · have same : s = id := by simpa [asId, empty] using h
      exact same ▸ empty
  | num n =>
    have same : n.spelling = id := Option.some.inj h
    exact same ▸ n.spelling_ne_empty
  | null | bool _ | arr _ | obj _ => cases h

/-- A value holds a field where it is a string of JSON with an object in it. -/
theorem Contents.field?_ofValue_eq_some {v w : Json} {key : String} :
    (Contents.ofValue v).field? key = some w ↔
      ∃ s fields, v = .str s ∧ Json.read? s = some (.obj fields) ∧
        fields.lookup key = some w := by
  constructor
  · intro found
    cases v with
    | str s =>
      rw [ofValue_str, ofString] at found
      split at found
      · next fields holds => exact ⟨s, fields, rfl, holds, found⟩
      all_goals cases found
    | null | bool _ | num _ | arr _ | obj _ => cases found
  · rintro ⟨s, fields, rfl, holds, found⟩
    rw [ofValue_str, ofString, holds]
    exact found

theorem mem_embeddedIds {value : Json} {id : String} :
    id ∈ embeddedIds value ↔
      ∃ entries entry given, (Contents.ofValue value).field? "linkedPulseIds" =
          some (.arr entries) ∧ entry ∈ entries ∧
        entry.field? "linkedPulseId" = some given ∧ given.asId = some id := by
  rw [embeddedIds, List.mem_filterMap]
  constructor
  · rintro ⟨entry, mem, scalar⟩
    obtain ⟨given, field, scalar⟩ := Option.bind_eq_some_iff.mp scalar
    cases pulses : (Contents.ofValue value).field? "linkedPulseIds" with
    | none => simp [pulses] at mem
    | some v =>
      cases v with
      | arr entries =>
        have mem : entry ∈ entries := by simpa [pulses, Json.items?] using mem
        exact ⟨entries, entry, given, rfl, mem, field, scalar⟩
      | null | bool _ | num _ | str _ | obj _ => simp [pulses, Json.items?] at mem
  · rintro ⟨entries, entry, given, pulses, mem, field, scalar⟩
    refine ⟨entry, ?_, ?_⟩
    · simpa [pulses, Json.items?] using mem
    · rw [field, Option.bind_some, scalar]

namespace Column

variable {c : Column} {id : String}

theorem mem_references : id ∈ c.references ↔ c.Refers id := by
  rw [references, List.mem_append, List.mem_filter]
  constructor
  · rintro (⟨mem, shown⟩ | mem)
    · cases own : c.linkedIds with
      | none => simp [own] at mem
      | some ids => exact .listed own (by simpa [own] using mem) (of_decide_eq_true shown)
    · obtain ⟨entries, entry, given, pulses, mem, field, scalar⟩ := mem_embeddedIds.mp mem
      obtain ⟨s, fields, value, holds, pulses⟩ := Contents.field?_ofValue_eq_some.mp pulses
      exact .embedded value holds pulses mem field scalar
  · rintro (⟨own, mem, shown⟩ | ⟨value, holds, pulses, mem, field, scalar⟩)
    · exact .inl ⟨by simpa [own] using mem, decide_eq_true shown⟩
    · have pulses := Contents.field?_ofValue_eq_some.mpr ⟨_, _, value, holds, pulses⟩
      exact .inr (mem_embeddedIds.mpr ⟨_, _, _, pulses, mem, field, scalar⟩)

theorem Refers.ne_empty (h : c.Refers id) : id ≠ "" := by
  cases h with
  | listed own mem shown => exact shown
  | embedded value holds pulses mem field scalar => exact Json.asId_ne_empty scalar

end Column

namespace IdSet

variable {id : String} {ids : List String}

theorem insert_ascending (ascending : ids.Pairwise (· < ·)) :
    (insert id ids).Pairwise (· < ·) := by
  induction ids with
  | nil => exact List.pairwise_singleton _ _
  | cons other rest ih =>
    obtain ⟨least, tail⟩ := List.pairwise_cons.mp ascending
    by_cases same : id = other
    · rw [insert, if_pos same]
      exact ascending
    · by_cases less : id < other
      · rw [insert, if_neg same, if_pos less]
        refine List.pairwise_cons.mpr ⟨?_, ascending⟩
        intro a mem
        rcases List.mem_cons.mp mem with rfl | mem
        · exact less
        · exact String.lt_trans less (least a mem)
      · rw [insert, if_neg same, if_neg less]
        have greater : other < id := by
          refine String.not_le.mp fun le => same ?_
          exact String.le_antisymm le (String.not_lt.mp less)
        refine List.pairwise_cons.mpr ⟨?_, ih tail⟩
        intro a mem
        rcases mem_insert.mp mem with rfl | mem
        · exact greater
        · exact least a mem

theorem ofList_ascending (ids : List String) : (ofList ids).Pairwise (· < ·) := by
  induction ids with
  | nil => exact .nil
  | cons id rest ih => exact insert_ascending ih

/-- The order is that of the bytes. -/
theorem ofList_ascending_bytes (ids : List String) :
    (ofList ids).Pairwise fun a b => utf8Bytes a < utf8Bytes b :=
  (ofList_ascending ids).imp utf8Bytes_lt

end IdSet

end BoardRollup
