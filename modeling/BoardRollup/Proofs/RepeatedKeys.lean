import BoardRollup.Proofs.DistinctKeys

/-!
# Keys that are written again

A text may write a key of an object more than once. A written value has all fields of a text, in
their order; the value that it stands for has a key in its first place, with what is written for
it last, in every object inside. Reading a text comes to the same as taking it as it is written
and merging the fields of its objects.
-/

namespace BoardRollup

namespace Fields

variable {α β : Type}

/-- Entries with changed values have the keys that they had. -/
theorem keys_map (f : α → β) (entries : List (String × α)) :
    keys (entries.map (Prod.map id f)) = keys entries := by
  rw [keys, keys, List.map_map]
  rfl

theorem lookup_map (f : α → β) (entries : List (String × α)) (key : String) :
    (entries.map (Prod.map id f)).lookup key = (entries.lookup key).map f := by
  induction entries with
  | nil => rfl
  | cons entry rest ih =>
    obtain ⟨k, v⟩ := entry
    have first : Prod.map id f (k, v) = (k, f v) := rfl
    rw [List.map_cons, first, lookup_cons, lookup_cons, ih]
    split <;> rfl

/-- What is written last for a key. -/
def last? (entries : List (String × α)) (key : String) : Option α := entries.reverse.lookup key

theorem last?_map (f : α → β) (entries : List (String × α)) (key : String) :
    last? (entries.map (Prod.map id f)) key = (last? entries key).map f := by
  rw [last?, last?, ← List.map_reverse, lookup_map]

end Fields

def Reader.map {α β : Type} (f : α → β) (read : Reader α) : Reader β :=
  fun cs => (read cs).map (Prod.map f id)

namespace Json

mutual

/-- The value that a written value stands for. -/
def merge : Json → Json
  | .arr items => .arr (mergeItems items)
  | .obj fields => .obj (Fields.ofList (mergeFields fields))
  | v => v

def mergeItems : List Json → List Json
  | [] => []
  | v :: rest => merge v :: mergeItems rest

def mergeFields : List (String × Json) → List (String × Json)
  | [] => []
  | (key, v) :: rest => (key, merge v) :: mergeFields rest

end

theorem mergeItems_eq (items : List Json) : mergeItems items = items.map merge := by
  induction items with
  | nil => rfl
  | cons v rest ih => rw [mergeItems, ih, List.map_cons]

theorem mergeFields_eq (fields : List (String × Json)) :
    mergeFields fields = fields.map (Prod.map id merge) := by
  induction fields with
  | nil => rfl
  | cons field rest ih =>
    obtain ⟨key, v⟩ := field
    rw [mergeFields, ih]
    rfl

end Json

namespace Fields

/-- The fields that written fields stand for. -/
def merged (fields : List (String × Json)) : List (String × Json) :=
  ofList (fields.map (Prod.map id Json.merge))

theorem lookup_merged (fields : List (String × Json)) (key : String) :
    (merged fields).lookup key = (last? fields key).map Json.merge := by
  rw [merged, lookup_ofList, ← last?, last?_map]

/-- A key that is written again keeps its first place. -/
theorem keys_merged (fields : List (String × Json)) :
    keys (merged fields) = (keys fields).eraseDups := by
  rw [merged, keys_ofList, keys_map]

end Fields

namespace Json

theorem merge_obj (fields : List (String × Json)) :
    merge (.obj fields) = .obj (Fields.merged fields) := by
  rw [merge, mergeFields_eq, Fields.merged]

/-- Reads a value as it is written: an object has all fields of the text, in their order. -/
def readWritten : Nat → Reader Json
  | 0, cs => readScalar (skipSpace cs)
  | depth + 1, cs =>
    match skipSpace cs with
    | '[' :: rest =>
      (readBracket (readWritten depth) ']' rest).map fun (items, rest) => (.arr items, rest)
    | '\x7b' :: rest =>
      (readBracket (readField (readWritten depth)) '\x7d' rest).map fun (fields, rest) =>
        (.obj fields, rest)
    | cs => readScalar cs

/-- The value of a document as it is written. -/
def written? (text : String) : Option Json :=
  match readWritten maxDepth text.toList with
  | some (v, rest) => if skipSpace rest = [] then some v else none
  | none => none

section
variable {α β : Type}

theorem readEntries_map (f : α → β) (entry : Reader α) (close : Char) (fuel : Nat)
    (cs : List Char) : readEntries (entry.map f) close fuel cs =
      (readEntries entry close fuel).map (List.map f) cs := by
  induction fuel generalizing cs with
  | zero => rfl
  | succ fuel ih =>
    rw [Reader.map, readEntries, readEntries, Reader.map]
    cases entry cs with
    | none => rfl
    | some found =>
      obtain ⟨a, rest⟩ := found
      simp only [Option.map_some, Option.bind_eq_bind, Option.bind_some, Prod.map, id_eq]
      cases skipSpace rest with
      | nil => rfl
      | cons c rest =>
        by_cases comma : c = ','
        · subst comma
          simp only [ih, Reader.map]
          cases readEntries entry close fuel rest <;> rfl
        · by_cases closing : c = close
          · subst closing
            simp
          · simp [closing]

theorem readBracket_map (f : α → β) (entry : Reader α) (close : Char) (cs : List Char) :
    readBracket (entry.map f) close cs = (readBracket entry close).map (List.map f) cs := by
  rw [Reader.map, readBracket, readBracket]
  cases skipSpace cs with
  | nil => rfl
  | cons c rest =>
    by_cases closing : c = close
    · simp [closing]
    · simp only [if_neg closing, readEntries_map]
      rfl

end

theorem readField_map (f : Json → Json) (value : Reader Json) (cs : List Char) :
    readField (value.map f) cs = (readField value).map (Prod.map id f) cs := by
  rw [Reader.map, readField, readField]
  split
  · next rest _ =>
    cases readString rest with
    | none => rfl
    | some found =>
      obtain ⟨key, rest⟩ := found
      simp only [Option.bind_eq_bind, Option.bind_some]
      split
      · rw [Reader.map]
        cases value _ <;> rfl
      · rfl
  · rfl

theorem merge_of_readScalar : Gives readScalar fun v => merge v = v := by
  intro cs v rest read
  unfold readScalar at read
  split at read
  case h_1 | h_2 | h_3 =>
    cases read
    rfl
  case h_4 | h_5 =>
    obtain ⟨_, _, same⟩ := Option.map_eq_some_iff.mp read
    cases same
    rfl

/-- A scalar stands for itself. -/
theorem readScalar_map_merge (cs : List Char) : readScalar.map merge cs = readScalar cs := by
  rw [Reader.map]
  cases read : readScalar cs with
  | none => rfl
  | some found =>
    obtain ⟨v, rest⟩ := found
    rw [Option.map_some, Prod.map_apply, merge_of_readScalar cs v rest read]
    rfl

/-- Reading a value comes to the same as merging it after it is read as it is written. -/
theorem readValue_eq (depth : Nat) : readValue depth = (readWritten depth).map merge := by
  induction depth with
  | zero =>
    funext cs
    rw [readValue, ← readScalar_map_merge]
    rfl
  | succ depth ih =>
    funext cs
    have fields : readField ((readWritten depth).map merge) =
        (readField (readWritten depth)).map (Prod.map id merge) := funext (readField_map _ _)
    rw [readValue, Reader.map, readWritten]
    cases skipSpace cs with
    | nil => exact (readScalar_map_merge []).symm
    | cons c rest =>
      by_cases array : c = '['
      · subst array
        simp only [ih, readBracket_map, Reader.map]
        cases readBracket (readWritten depth) ']' rest with
        | none => rfl
        | some found => simp [merge, mergeItems_eq]
      · by_cases object : c = '\x7b'
        · subst object
          simp only [ih, fields, readBracket_map, Reader.map]
          cases readBracket (readField (readWritten depth)) '\x7d' rest with
          | none => rfl
          | some found => simp [merge_obj, Fields.merged]
        · have scalar : readScalar (c :: rest) = readScalar.map merge (c :: rest) :=
            (readScalar_map_merge _).symm
          simpa [array, object, Reader.map] using scalar

theorem read?_eq_map_merge (text : String) : read? text = (written? text).map merge := by
  rw [read?, written?, readValue_eq, Reader.map]
  cases readWritten maxDepth text.toList with
  | none => rfl
  | some found =>
    obtain ⟨v, rest⟩ := found
    by_cases ended : skipSpace rest = [] <;> simp [ended]

end Json

end BoardRollup
