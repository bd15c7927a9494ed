import BoardRollup.Output.Items
import BoardRollup.Proofs.WrittenValues

/-!
# Written items are the data

Items repeat no key in their JSON where none of the values they carry does and no two of their
mappable values share an id. A list of such items is written as one array with the items in it,
line by line, and reads back as the array of their JSON, also where the list is empty.

All but the floats comes back as it was. A float comes back as the number that is read from its
text, so the array is the JSON of the items exactly where each float in it is read as itself.
-/

namespace BoardRollup

namespace Json

theorem distinct_ofText? (text : Option String) : (ofText? text).Distinct := by
  cases text <;> trivial

theorem distinct_ofTexts (texts : List String) : (ofTexts texts).Distinct := by
  refine distinctItems_iff.mpr fun v mem => ?_
  obtain ⟨s, _, rfl⟩ := List.mem_map.mp mem
  trivial

theorem distinct_arr_map {α : Type} {entries : List α} {write : α → Json}
    (distinct : ∀ a ∈ entries, (write a).Distinct) : (arr (entries.map write)).Distinct := by
  refine distinctItems_iff.mpr fun v mem => ?_
  obtain ⟨a, entry, rfl⟩ := List.mem_map.mp mem
  exact distinct a entry

theorem distinct_obj {fields : List (String × Json)} (nodup : (Fields.keys fields).Nodup)
    (distinct : ∀ field ∈ fields, field.2.Distinct) : (obj fields).Distinct :=
  ⟨nodup, distinctFields_iff.mpr distinct⟩

end Json

/-- No value that is carried through in a header repeats a key. -/
def ItemHeader.Distinct (header : ItemHeader) : Prop :=
  ∀ v ∈ [header.createdAt, header.updatedAt, header.state, header.board, header.creatorId,
    header.group], v.Distinct

/-- No two mappable values share an id, and none repeats a key. -/
structure Mappables.Distinct (mappables : Mappables) : Prop where
  nodup : (Fields.keys mappables).Nodup
  values : ∀ entry ∈ mappables, entry.2.toJson.Distinct

structure Subitem.Distinct (subitem : Subitem) : Prop where
  header : subitem.header.Distinct
  columns : ∀ c ∈ subitem.columns, c.value.Distinct
  mappables : subitem.mappables.Distinct

structure ParentItem.Distinct (parent : ParentItem) : Prop where
  header : parent.header.Distinct
  columns : ∀ c ∈ parent.columns, c.value.Distinct

structure Item.Distinct (item : Item) : Prop where
  header : item.header.Distinct
  email : item.email.Distinct
  columns : ∀ c ∈ item.columns, c.value.Distinct
  mappables : item.mappables.Distinct
  assets : ∀ v ∈ item.assets, v.Distinct
  parent : ∀ parent ∈ item.parent, parent.Distinct
  subitems : ∀ subitem ∈ item.subitems, subitem.Distinct

theorem Column.distinct_toJson {c : Column} (value : c.value.Distinct) : c.toJson.Distinct := by
  have texts : ∀ text, (Json.ofText? text).Distinct := Json.distinct_ofText?
  have id : (Json.str c.id).Distinct := trivial
  unfold toJson
  cases c.linkedIds with
  | none => exact Json.distinct_obj (by simp [Fields.keys]) (by simp [id, value, texts])
  | some ids =>
    have links : (Json.ofTexts ids).Distinct := Json.distinct_ofTexts ids
    exact Json.distinct_obj (by simp [Fields.keys]) (by simp [id, value, texts, links])

theorem Mappables.Distinct.toJson {mappables : Mappables} (h : mappables.Distinct) :
    mappables.toJson.Distinct := by
  have keys : Fields.keys (mappables.map fun entry => (entry.1, entry.2.toJson)) =
      Fields.keys mappables := by
    rw [Fields.keys, List.map_map]
    rfl
  refine Json.distinct_obj (keys ▸ h.nodup) fun field mem => ?_
  obtain ⟨entry, entry_mem, rfl⟩ := List.mem_map.mp mem
  exact h.values entry entry_mem

theorem ItemHeader.Distinct.toFields {header : ItemHeader} (h : header.Distinct) :
    ∀ field ∈ header.toFields, field.2.Distinct := by
  have texts : ∀ text, (Json.ofText? text).Distinct := Json.distinct_ofText?
  have id : (Json.str header.id).Distinct := trivial
  simpa [ItemHeader.toFields, id, texts, ItemHeader.Distinct] using h

theorem Subitem.Distinct.toJson {subitem : Subitem} (h : subitem.Distinct) :
    subitem.toJson.Distinct := by
  have columns := Json.distinct_arr_map fun c mem => Column.distinct_toJson (h.columns c mem)
  refine Json.distinct_obj (by simp [Fields.keys, ItemHeader.toFields]) ?_
  refine List.forall_mem_append.mpr ⟨h.header.toFields, ?_⟩
  simp [columns, h.mappables.toJson]

theorem ParentItem.Distinct.toJson {parent : ParentItem} (h : parent.Distinct) :
    parent.toJson.Distinct := by
  have columns := Json.distinct_arr_map fun c mem => Column.distinct_toJson (h.columns c mem)
  refine Json.distinct_obj (by simp [Fields.keys, ItemHeader.toFields]) ?_
  refine List.forall_mem_append.mpr ⟨h.header.toFields, ?_⟩
  simp [columns]

/-- The JSON of an item names each of its fields once. -/
theorem Item.Distinct.toJson {item : Item} (h : item.Distinct) : item.toJson.Distinct := by
  have columns := Json.distinct_arr_map fun c mem => Column.distinct_toJson (h.columns c mem)
  have assets : (Json.arr item.assets).Distinct := Json.distinctItems_iff.mpr h.assets
  have subitems := Json.distinct_arr_map fun subitem mem => (h.subitems subitem mem).toJson
  have header := h.header.toFields
  unfold Item.toJson
  cases parent : item.parent with
  | none =>
    refine Json.distinct_obj (by simp [Fields.keys, ItemHeader.toFields]) ?_
    simp only [List.append_nil, List.forall_mem_append]
    refine ⟨⟨header, ?_⟩, ?_⟩
    · simp [h.email, columns, h.mappables.toJson, assets]
    · simp [subitems]
  | some parentItem =>
    refine Json.distinct_obj (by simp [Fields.keys, ItemHeader.toFields]) ?_
    simp only [List.forall_mem_append]
    refine ⟨⟨⟨header, ?_⟩, ?_⟩, ?_⟩
    · simp [h.email, columns, h.mappables.toJson, assets]
    · simp [(h.parent parentItem parent).toJson]
    · simp [subitems]

namespace Json

/-- Values that stand one after the other, with a comma and a line break between them. -/
theorem toList_intercalate_pretty (v : Json) (values : List Json) :
    (",\n".intercalate ((v :: values).map pretty)).toList =
      write .pretty 0 v ++ further (write .pretty 0) ['\n'] values := by
  induction values generalizing v with
  | nil =>
    rw [List.map_singleton, String.intercalate_singleton, pretty, String.toList_ofList]
    exact (List.append_nil _).symm
  | cons next values ih =>
    rw [List.map_cons, List.map_cons, String.intercalate_cons_cons, ← List.map_cons,
      String.toList_append, String.toList_append, ih next, pretty, String.toList_ofList,
      List.append_assoc]
    rfl

/-- An array whose items are written apart, each on lines of its own. -/
def framed (values : List Json) : String := "[\n" ++ ",\n".intercalate (values.map pretty) ++ "\n]"

variable {v : Json} {values : List Json}

theorem readValue_framed {limit : Nat}
    (back : ∀ w ∈ v :: values, ReadsBack (readValue limit) (write .pretty 0 w) w.reread)
    (tail : List Char) :
    readValue (limit + 1) ((framed (v :: values)).toList ++ tail) =
      some (.arr ((v :: values).map reread), tail) := by
  have newline : Blank ['\n'] := by
    intro c mem
    rw [List.mem_singleton.mp mem]
    rfl
  have inner := readBracket_written tail newline newline (.inl rfl) back
  have shape : (framed (v :: values)).toList ++ tail =
      '[' :: (['\n'] ++ (write .pretty 0 v ++
        (further (write .pretty 0) ['\n'] values ++ (['\n'] ++ ']' :: tail)))) := by
    rw [framed, String.toList_append, String.toList_append, toList_intercalate_pretty]
    simp only [List.append_assoc]
    rfl
  have opening (rest : List Char) : skipSpace ('[' :: rest) = '[' :: rest := rfl
  rw [shape, readValue, opening]
  simp only [inner, Option.map_some, List.map_cons]

/-- The array is the value of a document that holds nothing else but blanks. -/
theorem read?_of_framed (distinct : ∀ w ∈ v :: values, w.Distinct)
    (within : ∀ w ∈ v :: values, w.depth ≤ 126) {s : String} {gap : List Char}
    (text : s.toList = (framed (v :: values)).toList ++ gap) (blank : skipSpace gap = []) :
    read? s = some (.arr ((v :: values).map reread)) := by
  have back : ∀ w ∈ v :: values, ReadsBack (readValue 126) (write .pretty 0 w) w.reread :=
    fun w mem => readsBack_write Style.blank_pretty w 126 0 (distinct w mem) (within w mem)
  have read : readValue maxDepth ((framed (v :: values)).toList ++ gap) =
      some (.arr ((v :: values).map reread), gap) := readValue_framed back gap
  rw [read?, text, read]
  simp only [blank, ↓reduceIte]

end Json

section

variable {items : List Item} (distinct : ∀ item ∈ items, item.Distinct)
  (within : ∀ item ∈ items, item.toJson.depth ≤ 126)
include distinct within

/-- The JSON of a list is a document and a line break, and with the line break it is a document
too. Both hold the JSON of the items with its floats reread. -/
theorem exists_document :
    ∃ text, renderItems .json items = text ++ "\n" ∧
      Json.read? text = some (.arr (items.map fun item => item.toJson.reread)) ∧
      Json.read? (renderItems .json items) =
        some (.arr (items.map fun item => item.toJson.reread)) := by
  cases items with
  | nil => exact ⟨"[]", rfl, rfl, rfl⟩
  | cons item items =>
    have written : renderItems .json (item :: items) =
        Json.framed ((item :: items).map Item.toJson) ++ "\n" := by
      have ending : "\n]\n" = "\n]" ++ "\n" := rfl
      rw [Json.framed, List.map_map, String.append_assoc, ← ending]
      rfl
    have distinct : ∀ v ∈ (item :: items).map Item.toJson, v.Distinct := by
      intro v mem
      obtain ⟨other, other_mem, rfl⟩ := List.mem_map.mp mem
      exact (distinct other other_mem).toJson
    have within : ∀ v ∈ (item :: items).map Item.toJson, v.depth ≤ 126 := by
      intro v mem
      obtain ⟨other, other_mem, rfl⟩ := List.mem_map.mp mem
      exact within other other_mem
    have line : (renderItems .json (item :: items)).toList =
        (Json.framed ((item :: items).map Item.toJson)).toList ++ ['\n'] := by
      rw [written, String.toList_append]
      rfl
    have values : (item :: items).map (fun item => item.toJson.reread) =
        ((item :: items).map Item.toJson).map Json.reread := List.map_map.symm
    rw [values]
    refine ⟨_, written, ?_, ?_⟩
    · exact Json.read?_of_framed distinct within (List.append_nil _).symm rfl
    · exact Json.read?_of_framed distinct within line rfl

/-- The JSON of a list is one document and a line break. The document holds an array with one
element for each item, in order: the JSON of that item, in which each float is the one that is read
from its text. It is the JSON of the items itself exactly where each of these floats is the one that
was written.

The text of a float spells a decimal of at most seventeen digits that the float is nearest to. What
is read scales the digits by the power of ten. That is the float itself as long as the digits make a
number of at most `2 ^ 53` and the power is at most 22 either way. -/
theorem read?_renderItems_json :
    (∃ text, renderItems .json items = text ++ "\n" ∧
      Json.read? text = some (.arr (items.map fun item => item.toJson.reread)) ∧
      Json.read? (renderItems .json items) =
        some (.arr (items.map fun item => item.toJson.reread)) ∧
      (Json.read? text = some (.arr (items.map Item.toJson)) ↔
        ∀ item ∈ items, ∀ x ∈ item.toJson.floats, x.reread = x)) ∧
    ∀ x : FiniteDouble, ∃ s, x.RereadsBy s ∧
      (s.decimal.digits ≤ 2 * Binary64.binade → s.decimal.exponent.natAbs ≤ 22 → x.reread = x) := by
  constructor
  · obtain ⟨text, written, document, line⟩ := exists_document distinct within
    refine ⟨text, written, document, line, ?_⟩
    rw [document, Option.some.injEq, Json.arr.injEq]
    exact Json.map_mapFloats_eq_self_iff items Item.toJson
  · intro x
    obtain ⟨s, reads⟩ := x.exists_rereadsBy
    exact ⟨s, reads, reads.reread_eq⟩

end

/-- An item whose name, keys and values are written with escapes, brackets and an exponent. -/
def quotedItem : Item where
  header := { ItemHeader.empty with id := "1", name := some "a \"b\"\n", group := .obj [] }
  email := .num (.float ⟨true, ⟨1, by decide⟩⟩)
  columns := [{ Column.ofRaw .empty with id := "c", value := .obj [("k]", .arr [.null])] }]
  mappables := [("c", .object [("k]", .arr [.null])])]
  assets := []
  parent := none
  subitems := []

theorem quotedItem_distinct : quotedItem.Distinct := by
  refine ⟨?_, trivial, ?_, ⟨by decide, ?_⟩, ?_, ?_, ?_⟩ <;>
    simp [quotedItem, ItemHeader.Distinct, ItemHeader.empty, Column.ofRaw, Mappable.toJson,
      Json.Distinct, Json.DistinctFields, Json.DistinctItems, Fields.keys]

theorem read?_renderItems_json_quoted :
    (∀ item ∈ [quotedItem, quotedItem], item.Distinct) ∧
      (∀ item ∈ [quotedItem, quotedItem], item.toJson.depth ≤ 126) ∧
      ∃ text, renderItems .json [quotedItem, quotedItem] = text ++ "\n" ∧
        Json.read? text = some (.arr [quotedItem.toJson, quotedItem.toJson]) := by
  have distinct : ∀ item ∈ [quotedItem, quotedItem], item.Distinct := by
    simp [quotedItem_distinct]
  have within : ∀ item ∈ [quotedItem, quotedItem], item.toJson.depth ≤ 126 := by decide
  have kept : ∀ item ∈ [quotedItem, quotedItem], ∀ x ∈ item.toJson.floats, x.reread = x := by
    decide +kernel
  obtain ⟨⟨text, written, _, _, same⟩, _⟩ := read?_renderItems_json distinct within
  exact ⟨distinct, within, text, written, same.mpr kept⟩

/-- An item that was created at `2 ^ 53 - 1`, as a float. -/
def datedItem : Item :=
  { quotedItem with
    header := { ItemHeader.empty with
      id := "1"
      createdAt := .num (.float ⟨false, ⟨1076 * Binary64.binade - 1, by decide⟩⟩) } }

/-- Its text ends in `1.0`, and what is read ends in `0.0`. -/
theorem read?_renderItems_json_dated :
    datedItem.Distinct ∧ datedItem.toJson.depth ≤ 126 ∧
      ¬ ∃ text, renderItems .json [datedItem] = text ++ "\n" ∧
        Json.read? text = some (.arr [datedItem.toJson]) := by
  have distinct : datedItem.Distinct :=
    { quotedItem_distinct with
      header := by simp [datedItem, ItemHeader.Distinct, ItemHeader.empty, Json.Distinct] }
  have within : datedItem.toJson.depth ≤ 126 := by decide
  have all : ∀ item ∈ [datedItem], item.Distinct := by simpa using distinct
  have deep : ∀ item ∈ [datedItem], item.toJson.depth ≤ 126 := by simpa using within
  refine ⟨distinct, within, ?_⟩
  rintro ⟨text, written, same⟩
  obtain ⟨document, line, read, _⟩ := exists_document all deep
  obtain rfl : text = document := (String.append_left_inj _).mp (written.symm.trans line)
  rw [read, Option.some.injEq, Json.arr.injEq] at same
  have kept := (Json.map_mapFloats_eq_self_iff [datedItem] Item.toJson).mp same
  have changed : ¬ ∀ item ∈ [datedItem], ∀ x ∈ item.toJson.floats, x.reread = x := by
    decide +kernel
  exact changed kept

end BoardRollup
