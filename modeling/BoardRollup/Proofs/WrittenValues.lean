import BoardRollup.Proofs.DistinctKeys
import BoardRollup.Proofs.WrittenNumbers
import BoardRollup.Proofs.WrittenStrings

/-!
# Written values read back

A value is written so that a reader finds its end: entries are parted by commas, brackets
close what they open, and numbers stand before something that no number goes on with.
Where the blanks of a style are blanks, a value that repeats no key reads back from
its text at every depth that is left, as long as the value nests no deeper. Its floats come back
as the numbers that are read from their texts, and all the rest as it was.
-/

namespace BoardRollup

namespace Json

def Blank (gap : List Char) : Prop := ∀ c ∈ gap, isSpace c

theorem eq_of_isSpace {c : Char} (space : isSpace c) : c = ' ' ∨ c = '\t' ∨ c = '\n' ∨ c = '\r' := by
  simpa [isSpace, or_assoc] using space

theorem blank_nil : Blank [] := List.forall_mem_nil _

theorem skipSpace_append {gap : List Char} (blank : Blank gap) (rest : List Char) :
    skipSpace (gap ++ rest) = skipSpace rest :=
  List.dropWhile_append_of_pos blank

theorem skipSpace_cons {c : Char} (shown : ¬ isSpace c) (rest : List Char) :
    skipSpace (c :: rest) = c :: rest :=
  List.dropWhile_cons_of_neg shown

/-- A blank goes on with no number. -/
theorem numberEnds_append {gap : List Char} (blank : Blank gap) {rest : List Char}
    (ends : NumberEnds rest) : NumberEnds (gap ++ rest) := by
  cases gap with
  | nil => exact ends
  | cons c gap =>
    rintro _ ⟨⟩
    rcases eq_of_isSpace (blank c List.mem_cons_self) with rfl | rfl | rfl | rfl <;> decide

theorem numberEnds_close {close : Char} (closing : close = ']' ∨ close = '\x7d')
    (tail : List Char) : NumberEnds (close :: tail) := by
  rintro _ ⟨⟩
  rcases closing with rfl | rfl <;> decide

/-- A text that an entry starts with: neither a blank nor a closing bracket. -/
def Starts (text : List Char) : Prop :=
  ∃ c rest, text = c :: rest ∧ ¬ isSpace c ∧ c ≠ ']' ∧ c ≠ '\x7d'

/-- A reader takes a value from a text, after any blanks and before any end of numbers. -/
structure ReadsBack {α : Type} (read : Reader α) (text : List Char) (a : α) : Prop where
  starts : Starts text
  read {gap rest : List Char} (blank : Blank gap) (ends : NumberEnds rest) :
    read (gap ++ (text ++ rest)) = some (a, rest)

section Entries

variable {α β : Type} {entry : Reader β} {text : α → List Char} {value : α → β}
  {gap last : List Char} {close : Char} (tail : List Char)

def further (text : α → List Char) (gap : List Char) (entries : List α) : List Char :=
  entries.flatMap fun a => ',' :: (gap ++ text a)

theorem further_cons_append (a : α) (entries : List α) (rest : List Char) :
    further text gap (a :: entries) ++ rest =
      ',' :: (gap ++ (text a ++ (further text gap entries ++ rest))) := by
  simp only [further, List.flatMap_cons, List.cons_append, List.append_assoc]

theorem numberEnds_further (lastBlank : Blank last) (closing : close = ']' ∨ close = '\x7d')
    (entries : List α) : NumberEnds (further text gap entries ++ (last ++ close :: tail)) := by
  cases entries with
  | nil => exact numberEnds_append lastBlank (numberEnds_close closing tail)
  | cons a entries =>
    rintro _ ⟨⟩
    decide

theorem length_le_further (entries : List α) :
    entries.length ≤ (further text gap entries).length := by
  induction entries with
  | nil => exact Nat.zero_le _
  | cons a entries ih =>
    simp only [further, List.flatMap_cons, List.length_append, List.length_cons] at ih ⊢
    omega

theorem readEntries_written (blank : Blank gap) (lastBlank : Blank last)
    (closing : close = ']' ∨ close = '\x7d')
    {a : α} {entries : List α} (back : ∀ b ∈ a :: entries, ReadsBack entry (text b) (value b))
    {before : List Char} (beforeBlank : Blank before) {fuel : Nat} (enough : entries.length < fuel) :
    readEntries entry close fuel
        (before ++ (text a ++ (further text gap entries ++ (last ++ close :: tail)))) =
      some (value a :: entries.map value, tail) := by
  induction entries generalizing a before fuel with
  | nil =>
    obtain ⟨fuel, rfl⟩ := Nat.exists_eq_add_of_lt enough
    have first := (back a List.mem_cons_self).read beforeBlank
      (numberEnds_append lastBlank (numberEnds_close closing tail))
    have after : skipSpace (last ++ close :: tail) = close :: tail := by
      rw [skipSpace_append lastBlank]
      rcases closing with rfl | rfl <;> rfl
    simp only [further, List.flatMap_nil, List.nil_append, readEntries, first,
      Option.bind_eq_bind, Option.bind_some, after, List.map_nil]
    rcases closing with rfl | rfl <;> rfl
  | cons b entries ih =>
    obtain ⟨fuel, rfl⟩ := Nat.exists_eq_add_of_lt enough
    have ends : NumberEnds (further text gap (b :: entries) ++ (last ++ close :: tail)) :=
      numberEnds_further tail lastBlank closing (b :: entries)
    have first := (back a List.mem_cons_self).read beforeBlank ends
    have fewer : entries.length < (b :: entries).length + fuel := by
      rw [List.length_cons]
      omega
    have others := ih (fun c mem => back c (List.mem_cons_of_mem a mem)) blank fewer
    rw [further_cons_append] at first ⊢
    have comma (rest : List Char) : skipSpace (',' :: rest) = ',' :: rest := rfl
    simp only [readEntries, first, Option.bind_eq_bind, Option.bind_some, comma, others,
      List.map_cons]

/-- What stands between two brackets reads back up to and with the closing one. -/
theorem readBracket_written (blank : Blank gap) (lastBlank : Blank last)
    (closing : close = ']' ∨ close = '\x7d')
    {a : α} {entries : List α} (back : ∀ b ∈ a :: entries, ReadsBack entry (text b) (value b)) :
    readBracket entry close
        (gap ++ (text a ++ (further text gap entries ++ (last ++ close :: tail)))) =
      some (value a :: entries.map value, tail) := by
  obtain ⟨c, rest, shape, shown, array, object⟩ := (back a List.mem_cons_self).starts
  have other : c ≠ close := by
    rcases closing with rfl | rfl
    · exact array
    · exact object
  have enough : entries.length <
      (rest ++ (further text gap entries ++ (last ++ close :: tail))).length + 1 := by
    have shorter : entries.length ≤ (further text gap entries).length := length_le_further entries
    simp only [List.length_append]
    omega
  have entries := readEntries_written tail blank lastBlank closing back blank_nil enough
  rw [shape, List.nil_append, List.cons_append] at entries
  rw [readBracket, skipSpace_append blank, shape, List.cons_append, skipSpace_cons shown]
  simp only [if_neg other, entries]

end Entries

/-- What a style puts between the parts of a value is blank, apart from the colon. -/
structure Style.Blank (style : Style) : Prop where
  lineBreak (depth : Nat) : Json.Blank (style.lineBreak depth)
  colon : ∃ gap, style.colon = ':' :: gap ∧ Json.Blank gap

theorem Style.blank_compact : Style.compact.Blank where
  lineBreak _ := blank_nil
  colon := ⟨[], rfl, blank_nil⟩

theorem Style.blank_pretty : Style.pretty.Blank where
  lineBreak depth := by
    intro c mem
    rcases List.mem_cons.mp mem with rfl | mem
    · rfl
    · rw [List.eq_of_mem_replicate mem]
      rfl
  colon := by
    refine ⟨[' '], rfl, fun c mem => ?_⟩
    rw [List.mem_singleton.mp mem]
    rfl

theorem readValue_of_scalar {c : Char} (shown : ¬ isSpace c) (array : c ≠ '[')
    (object : c ≠ '\x7b') {gap : List Char} (blank : Blank gap) (limit : Nat)
    (rest : List Char) : readValue limit (gap ++ c :: rest) = readScalar (c :: rest) := by
  have first : skipSpace (gap ++ c :: rest) = c :: rest := by
    rw [skipSpace_append blank, skipSpace_cons shown]
  cases limit with
  | zero => rw [readValue, first]
  | succ limit => simp [readValue, first, array, object]

theorem readsBack_of_scalar {text : List Char} {v : Json} {c : Char} {more : List Char}
    (shape : text = c :: more) (shown : ¬ isSpace c) (array : c ≠ '[' ∧ c ≠ ']')
    (object : c ≠ '\x7b' ∧ c ≠ '\x7d') (limit : Nat)
    (scalar : ∀ rest, NumberEnds rest → readScalar (text ++ rest) = some (v, rest)) :
    ReadsBack (readValue limit) text v where
  starts := ⟨c, more, shape, shown, array.2, object.2⟩
  read blank ends := by
    have read := readValue_of_scalar shown array.1 object.1 blank limit
    have value := scalar _ ends
    subst shape
    rw [List.cons_append, read, ← List.cons_append, value]

theorem readScalar_of_number {c : Char} (first : c.isDigit ∨ c = '-') (rest : List Char) :
    readScalar (c :: rest) = (readNumber (c :: rest)).map fun (n, rest) => (.num n, rest) := by
  unfold readScalar
  split
  case h_5 => rfl
  all_goals
    next shape =>
      obtain ⟨rfl, -⟩ := List.cons.inj shape
      exact absurd first (by decide)

theorem readsBack_writeNumber (n : JsonNumber) (limit : Nat) :
    ReadsBack (readValue limit) (writeNumber n) (.num (n.mapFloats .reread)) := by
  obtain ⟨c, more, shape, first⟩ := exists_writeNumber_eq n
  have other : ∀ d, ¬ (d.isDigit ∨ d = '-') → c ≠ d := by
    rintro d none rfl
    exact none first
  have shown : ¬ isSpace c := by
    intro space
    rcases eq_of_isSpace space with rfl | rfl | rfl | rfl <;> exact other _ (by decide) rfl
  refine readsBack_of_scalar shape shown ⟨other _ (by decide), other _ (by decide)⟩
    ⟨other _ (by decide), other _ (by decide)⟩ limit fun rest ends => ?_
  have read := readNumber_writeNumber n ends
  rw [shape, List.cons_append] at read ⊢
  rw [readScalar_of_number first, read, Option.map_some]

theorem readsBack_writeString (s : String) (limit : Nat) :
    ReadsBack (readValue limit) (writeString s) (.str s) := by
  refine readsBack_of_scalar rfl (by decide) (by decide) (by decide) limit fun rest _ => ?_
  have read := readString_escaped s rest
  have shape : writeString s ++ rest = '"' :: (s.toList.flatMap escape ++ '"' :: rest) := by
    rw [writeString, List.append_assoc, List.singleton_append, List.cons_append]
  change readScalar (writeString s ++ rest) = _
  rw [shape, readScalar, read, Option.map_some]

/-- What is read from the text of a value: the value with its floats read from theirs. -/
def reread (v : Json) : Json := v.mapFloats .reread

theorem reread_arr (items : List Json) : (arr items).reread = .arr (items.map reread) :=
  congrArg arr (mapFloatsItems_eq_map items)

def rereadField (field : String × Json) : String × Json := (field.1, field.2.reread)

theorem reread_obj (fields : List (String × Json)) :
    (obj fields).reread = .obj (fields.map rereadField) :=
  congrArg obj (mapFloatsFields_eq_map fields)

theorem keys_map_rereadField (fields : List (String × Json)) :
    Fields.keys (fields.map rereadField) = Fields.keys fields := by
  rw [← keys_mapFloatsFields (f := .reread) fields, mapFloatsFields_eq_map]
  rfl

section Bracketed

variable {style : Style} {limit : Nat}

theorem writeItems_eq_further (style : Style) (depth : Nat) (items : List Json) :
    writeItems style depth items = further (write style depth) (style.lineBreak depth) items := by
  induction items with
  | nil => rfl
  | cons v rest ih =>
    rw [writeItems, ih]
    simp only [further, List.flatMap_cons, List.cons_append, List.append_assoc]

def writeField (style : Style) (depth : Nat) (field : String × Json) : List Char :=
  writeString field.1 ++ style.colon ++ write style depth field.2

theorem writeFields_eq_further (style : Style) (depth : Nat) (fields : List (String × Json)) :
    writeFields style depth fields =
      further (writeField style depth) (style.lineBreak depth) fields := by
  induction fields with
  | nil => rfl
  | cons field rest ih =>
    obtain ⟨k, v⟩ := field
    rw [writeFields, ih]
    simp only [further, writeField, List.flatMap_cons, List.cons_append, List.append_assoc]

theorem readsBack_writeField (blank : style.Blank) {depth : Nat} {field : String × Json}
    (value : ReadsBack (readValue limit) (write style depth field.2) field.2.reread) :
    ReadsBack (readField (readValue limit)) (writeField style depth field)
      (rereadField field) := by
  obtain ⟨k, v⟩ := field
  obtain ⟨colonGap, colon, colonBlank⟩ := blank.colon
  refine ⟨⟨'"', _, rfl, by decide, by decide, by decide⟩, ?_⟩
  intro gap rest gapBlank ends
  have shape : writeField style depth (k, v) ++ rest =
      '"' :: (k.toList.flatMap escape ++ '"' :: ':' :: (colonGap ++ (write style depth v ++ rest))) := by
    simp only [writeField, writeString, colon, List.cons_append, List.append_assoc,
      List.nil_append]
  have quote (rest : List Char) : skipSpace ('"' :: rest) = '"' :: rest := rfl
  have mark (rest : List Char) : skipSpace (':' :: rest) = ':' :: rest := rfl
  have found := value.read colonBlank ends
  rw [readField, skipSpace_append gapBlank, shape, quote]
  simp only [readString_escaped, Option.bind_eq_bind, Option.bind_some, mark, found, rereadField]

theorem readsBack_arr (blank : style.Blank) (depth : Nat) {items : List Json}
    (back : ∀ v ∈ items, ReadsBack (readValue limit) (write style (depth + 1) v) v.reread) :
    ReadsBack (readValue (limit + 1)) (write style depth (.arr items)) (arr items).reread := by
  rw [reread_arr]
  have opening (rest : List Char) : skipSpace ('[' :: rest) = '[' :: rest := rfl
  cases items with
  | nil =>
    refine ⟨⟨'[', _, rfl, by decide, by decide, by decide⟩, ?_⟩
    intro gap rest gapBlank ends
    rw [readValue, skipSpace_append gapBlank]
    rfl
  | cons v items =>
    refine ⟨⟨'[', _, rfl, by decide, by decide, by decide⟩, ?_⟩
    intro gap rest gapBlank ends
    have inner := readBracket_written rest (blank.lineBreak (depth + 1))
      (blank.lineBreak depth) (.inl rfl) back
    have shape : write style depth (.arr (v :: items)) ++ rest =
        '[' :: (style.lineBreak (depth + 1) ++ (write style (depth + 1) v ++
          (further (write style (depth + 1)) (style.lineBreak (depth + 1)) items ++
            (style.lineBreak depth ++ ']' :: rest)))) := by
      simp only [write, writeItems_eq_further, List.cons_append, List.append_assoc,
        List.nil_append]
    rw [readValue, skipSpace_append gapBlank, shape, opening]
    simp only [inner, Option.map_some, List.map_cons]

theorem readsBack_obj (blank : style.Blank) (depth : Nat) {fields : List (String × Json)}
    (nodup : (Fields.keys fields).Nodup)
    (back : ∀ field ∈ fields,
      ReadsBack (readValue limit) (write style (depth + 1) field.2) field.2.reread) :
    ReadsBack (readValue (limit + 1)) (write style depth (.obj fields)) (obj fields).reread := by
  rw [reread_obj]
  have opening (rest : List Char) : skipSpace ('\x7b' :: rest) = '\x7b' :: rest := rfl
  cases fields with
  | nil =>
    refine ⟨⟨'\x7b', _, rfl, by decide, by decide, by decide⟩, ?_⟩
    intro gap rest gapBlank ends
    rw [readValue, skipSpace_append gapBlank]
    rfl
  | cons field fields =>
    refine ⟨⟨'\x7b', _, rfl, by decide, by decide, by decide⟩, ?_⟩
    intro gap rest gapBlank ends
    have inner := readBracket_written rest (blank.lineBreak (depth + 1))
      (blank.lineBreak depth) (.inr rfl)
      (fun other mem => readsBack_writeField blank (back other mem))
    have shape : write style depth (.obj (field :: fields)) ++ rest =
        '\x7b' :: (style.lineBreak (depth + 1) ++ (writeField style (depth + 1) field ++
          (further (writeField style (depth + 1)) (style.lineBreak (depth + 1)) fields ++
            (style.lineBreak depth ++ '\x7d' :: rest)))) := by
      obtain ⟨k, v⟩ := field
      simp only [write, writeField, writeFields_eq_further, List.cons_append, List.append_assoc,
        List.nil_append]
    rw [readValue, skipSpace_append gapBlank, shape, opening]
    rw [← keys_map_rereadField, List.map_cons] at nodup
    simp only [inner, Option.map_some, List.map_cons, Fields.ofList_of_nodup nodup]

end Bracketed

mutual

/-- A value is read from its text. -/
theorem readsBack_write {style : Style} (blank : style.Blank) :
    (v : Json) → (limit depth : Nat) → v.Distinct → v.depth ≤ limit →
      ReadsBack (readValue limit) (write style depth v) v.reread
  | .null, limit, _, _, _ =>
    readsBack_of_scalar rfl (by decide) (by decide) (by decide) limit fun _ _ => rfl
  | .bool true, limit, _, _, _ =>
    readsBack_of_scalar rfl (by decide) (by decide) (by decide) limit fun _ _ => rfl
  | .bool false, limit, _, _, _ =>
    readsBack_of_scalar rfl (by decide) (by decide) (by decide) limit fun _ _ => rfl
  | .num n, limit, _, _, _ => readsBack_writeNumber n limit
  | .str s, limit, _, _, _ => readsBack_writeString s limit
  | .arr items, limit, depth, distinct, within => by
    obtain ⟨limit, rfl⟩ := Nat.exists_eq_add_of_le' (Nat.le_trans (Nat.le_add_left 1 _) within)
    exact readsBack_arr blank depth
      (readsBack_items blank items limit (depth + 1) distinct (Nat.le_of_succ_le_succ within))
  | .obj fields, limit, depth, distinct, within => by
    obtain ⟨limit, rfl⟩ := Nat.exists_eq_add_of_le' (Nat.le_trans (Nat.le_add_left 1 _) within)
    exact readsBack_obj blank depth distinct.1
      (readsBack_fields blank fields limit (depth + 1) distinct.2 (Nat.le_of_succ_le_succ within))

theorem readsBack_items {style : Style} (blank : style.Blank) :
    (items : List Json) → (limit depth : Nat) → DistinctItems items →
      depthItems items ≤ limit →
      ∀ v ∈ items, ReadsBack (readValue limit) (write style depth v) v.reread
  | [], _, _, _, _ => List.forall_mem_nil _
  | v :: rest, limit, depth, distinct, within =>
    List.forall_mem_cons.mpr
      ⟨readsBack_write blank v limit depth distinct.1 (Nat.le_trans (Nat.le_max_left _ _) within),
        readsBack_items blank rest limit depth distinct.2
          (Nat.le_trans (Nat.le_max_right _ _) within)⟩

theorem readsBack_fields {style : Style} (blank : style.Blank) :
    (fields : List (String × Json)) → (limit depth : Nat) → DistinctFields fields →
      depthFields fields ≤ limit →
      ∀ field ∈ fields, ReadsBack (readValue limit) (write style depth field.2) field.2.reread
  | [], _, _, _, _ => List.forall_mem_nil _
  | (_, v) :: rest, limit, depth, distinct, within =>
    List.forall_mem_cons.mpr
      ⟨readsBack_write blank v limit depth distinct.1 (Nat.le_trans (Nat.le_max_left _ _) within),
        readsBack_fields blank rest limit depth distinct.2
          (Nat.le_trans (Nat.le_max_right _ _) within)⟩

end

/-- The text of a value is a document. It holds this value with its floats reread. -/
theorem read?_write {style : Style} (blank : style.Blank) {v : Json} (distinct : v.Distinct)
    (within : v.depth ≤ maxDepth) : read? (.ofList (write style 0 v)) = some v.reread := by
  have ends : NumberEnds [] := nofun
  have back := (readsBack_write blank v maxDepth 0 distinct within).read blank_nil ends
  rw [List.nil_append, List.append_nil] at back
  rw [read?, String.toList_ofList, back]
  rfl

theorem read?_compact {v : Json} (distinct : v.Distinct) (within : v.depth ≤ maxDepth) :
    read? v.compact = some v.reread := read?_write Style.blank_compact distinct within

theorem read?_pretty {v : Json} (distinct : v.Distinct) (within : v.depth ≤ maxDepth) :
    read? v.pretty = some v.reread := read?_write Style.blank_pretty distinct within

end Json

end BoardRollup
