import BoardRollup.Item.Wire
import BoardRollup.Proofs.Runs
import BoardRollup.Proofs.Schema

/-!
# What is written out is read back

Normalized items are read back from their JSON as they were. Headers, columns, subitems and
parents say all of themselves under names of their own. A mappable value is told by the
kind of its JSON, so it is read back if what is kept as it is holds a number, a boolean or
an array; and mappable values are sorted by id when they are read, so they are read back if
they stand in that order.

Both are true of the mappable values of raw columns, and no pass changes either.
-/

namespace BoardRollup

namespace Mappable

/-- What is kept as it is is neither null, a string nor an object. -/
def Proper : Mappable → Prop
  | .other .null | .other (.str _) | .other (.obj _) => False
  | _ => True

theorem proper_other_iff {v : Json} :
    (Mappable.other v).Proper ↔ v ≠ .null ∧ (∀ s, v ≠ .str s) ∧ ∀ fields, v ≠ .obj fields := by
  cases v <;> simp [Proper]

theorem Proper.ofJson_toJson {m : Mappable} (h : m.Proper) : ofJson m.toJson = m := by
  cases m with
  | object fields => rfl
  | text s => rfl
  | null => rfl
  | other v =>
    cases v with
    | null => cases h
    | str s => cases h
    | obj fields => cases h
    | bool b => rfl
    | num n => rfl
    | arr items => rfl

/-- What a string holds, other than an object or a string, is neither. -/
theorem proper_of_ofString_other {s : String} {v : Json} (h : Contents.ofString s = .other v)
    (shown : v ≠ .null) : (Mappable.other v).Proper := by
  rw [Contents.ofString] at h
  refine proper_other_iff.mpr ⟨shown, ?_, ?_⟩
  · rintro inner rfl
    split at h <;> simp_all
  · rintro fields rfl
    split at h <;> simp_all

theorem proper_ofContents (raw : RawColumn) : (ofContents raw).Proper := by
  unfold ofContents
  split
  · trivial
  · trivial
  · trivial
  · split <;> trivial
  · split <;> trivial
  · next v shown held =>
    split
    · trivial
    · cases text : raw.value with
      | str s =>
        rw [text, Contents.ofValue_str] at held
        exact proper_of_ofString_other held shown
      | null | bool _ | num _ | arr _ | obj _ =>
        rw [text] at held
        cases held

theorem proper_ofRaw (raw : RawColumn) : (ofRaw raw).Proper := by
  unfold ofRaw
  split
  · trivial
  · exact proper_ofContents raw

theorem Frame.proper {a b : Mappable} (frame : Frame a b) (h : a.Proper) : b.Proper := by
  cases frame with
  | object _ => trivial
  | text s => trivial
  | null => trivial
  | other v => exact h

end Mappable

namespace Mappables

/-- Mappable values that are read back as they are. -/
structure WellFormed (mappables : Mappables) : Prop where
  ascending : Fields.Ascending mappables
  proper : ∀ entry ∈ mappables, entry.2.Proper

def toFields (mappables : Mappables) : List (String × Json) :=
  mappables.map fun (id, m) => (id, m.toJson)

theorem WellFormed.ofFields_toFields {mappables : Mappables} (h : mappables.WellFormed) :
    ofFields mappables.toFields = mappables := by
  have back : mappables.map (fun entry => (entry.1, Mappable.ofJson entry.2.toJson)) =
      mappables := by
    calc mappables.map (fun entry => (entry.1, Mappable.ofJson entry.2.toJson))
        = mappables.map fun entry => entry := by
          refine List.map_congr_left fun entry mem => ?_
          rw [(h.proper entry mem).ofJson_toJson]
      _ = mappables := List.map_id' mappables
  rw [ofFields, toFields, List.map_map]
  exact (congrArg Fields.sorted back).trans (Fields.sorted_of_ascending h.ascending)

theorem wellFormed_ofRaw (columns : List RawColumn) : (ofRaw columns).WellFormed where
  ascending := Fields.sorted_ascending _
  proper := by
    intro entry mem
    obtain ⟨raw, _, rfl⟩ := List.mem_map.mp (Fields.mem_of_mem_sorted mem)
    exact Mappable.proper_ofRaw raw

theorem Frame.proper {before after : Mappables} (frame : Frame before after)
    (h : ∀ entry ∈ before, entry.2.Proper) : ∀ entry ∈ after, entry.2.Proper := by
  induction frame with
  | nil => exact h
  | cons head _ ih =>
    intro entry mem
    rcases List.mem_cons.mp mem with rfl | mem
    · exact head.2.proper (h _ List.mem_cons_self)
    · exact ih (fun other later => h other (List.mem_cons_of_mem _ later)) entry mem

theorem Frame.wellFormed {before after : Mappables} (frame : Frame before after)
    (h : before.WellFormed) : after.WellFormed where
  ascending := by
    rw [Fields.Ascending, frame.keys_eq]
    exact h.ascending
  proper := frame.proper h.proper

end Mappables

theorem Field.nullable_ofTexts (texts : List String) :
    nullable (strictList Field.text) (.ofTexts texts) = .ok (some texts) := by
  change some <$> strictList Field.text (.ofTexts texts) = _
  rw [strictList_text_ofTexts]
  rfl

namespace Column

/-- The list of linked ids is left out where a column has none. -/
theorem reads_linkedIds (c : Column) :
    schema.Reads
      (match c.linkedIds with
        | some ids => [("linked_item_ids", .ofTexts ids)]
        | none => [])
      { c with linkedIds := none } c := by
  obtain ⟨id, value, text, displayValue, title, settings, linkedIds⟩ := c
  cases linkedIds with
  | none => exact .nil
  | some ids => exact .cons rfl (bind_pure_of_eq_ok (Field.nullable_ofTexts ids) _) .nil

theorem read_toJson (c : Column) : read c.toJson = .ok c := by
  have own : schema.Reads
      [("id", .str c.id), ("value", c.value), ("text", .ofText? c.text),
        ("display_value", .ofText? c.displayValue), ("title", .ofText? c.title),
        ("additional_info", .ofText? c.settings)]
      schema.empty { c with linkedIds := none } :=
    .cons rfl rfl <| .cons rfl rfl <|
    .cons rfl (bind_pure_of_eq_ok (Field.nullable_text_ofText? _) _) <|
    .cons rfl (bind_pure_of_eq_ok (Field.nullable_text_ofText? _) _) <|
    .cons rfl (bind_pure_of_eq_ok (Field.nullable_text_ofText? _) _) <|
    .cons rfl (bind_pure_of_eq_ok (Field.nullable_text_ofText? _) _) .nil
  exact Schema.ofFields_of_reads (own.append c.reads_linkedIds) rfl

theorem strictList_read_toJson (columns : List Column) :
    Field.strictList read (.arr (columns.map toJson)) = .ok columns :=
  Field.strictList_map fun c _ => c.read_toJson

end Column

theorem ItemHeader.reads_toFields (header : ItemHeader) :
    schema.Reads header.toFields schema.empty header :=
  .cons rfl rfl <| .cons rfl (bind_pure_of_eq_ok (Field.nullable_text_ofText? _) _) <|
  .cons rfl rfl <| .cons rfl rfl <| .cons rfl rfl <| .cons rfl rfl <| .cons rfl rfl <|
  .cons rfl rfl .nil

/-- A record that says nothing of itself under the names of a header is read back with its
header. -/
theorem Schema.readHeaded_of_reads {ρ : Type} {schema : Schema ρ} {own : List (String × Json)}
    {record whole : ρ} {withHeader : ρ → ItemHeader → ρ} (header : ItemHeader)
    (reads : schema.Reads own schema.empty record)
    (apart : (Fields.keys header.toFields).all fun name => (schema.fields.lookup name).isNone)
    (apart' : (Fields.keys own).all fun name => (ItemHeader.schema.fields.lookup name).isNone)
    (complete : schema.required.all fun name => ((header.toFields ++ own).lookup name).isSome)
    (headed : withHeader record header = whole) :
    schema.readHeaded withHeader (.obj (header.toFields ++ own)) = .ok whole := by
  have record_read : schema.ofFields (header.toFields ++ own) = .ok record :=
    ofFields_of_reads ((Reads.of_unknown apart).append reads) complete
  have header_read : ItemHeader.schema.ofFields (header.toFields ++ own) = .ok header :=
    ofFields_of_reads (header.reads_toFields.append (Reads.of_unknown apart')) rfl
  rw [← headed]
  simp only [readHeaded, record_read, header_read]
  rfl

theorem Subitem.read_toJson {subitem : Subitem} (h : subitem.mappables.WellFormed) :
    read subitem.toJson = .ok subitem := by
  have own : schema.Reads
      [("column_values", .arr (subitem.columns.map Column.toJson)),
        ("mappable_column_values", subitem.mappables.toJson)]
      schema.empty
      { subitem with header := .empty, mappables := .ofFields subitem.mappables.toFields } :=
    .cons rfl (bind_pure_of_eq_ok (Column.strictList_read_toJson _) _) <|
    .cons rfl (bind_pure_of_eq_ok rfl _) .nil
  rw [h.ofFields_toFields] at own
  exact Schema.readHeaded_of_reads subitem.header own rfl rfl rfl rfl

theorem ParentItem.read_toJson (parent : ParentItem) : read parent.toJson = .ok parent := by
  have own : schema.Reads [("column_values", .arr (parent.columns.map Column.toJson))]
      schema.empty { parent with header := .empty } :=
    .cons rfl (bind_pure_of_eq_ok (Column.strictList_read_toJson _) _) .nil
  exact Schema.readHeaded_of_reads parent.header own rfl rfl rfl rfl

theorem Field.nullable_parent (parent : ParentItem) :
    nullable ParentItem.read parent.toJson = .ok (some parent) := by
  change some <$> ParentItem.read parent.toJson = _
  rw [parent.read_toJson]
  rfl

namespace Item

/-- The mappable values of an item and of its subitems are read back as they are. -/
structure WellFormed (item : Item) : Prop where
  mappables : item.mappables.WellFormed
  subitems : ∀ subitem ∈ item.subitems, subitem.mappables.WellFormed

/-- The field of the parent, left out where an item has none. -/
def parentFields (item : Item) : List (String × Json) :=
  match item.parent with
  | some parent => [("parent_item", parent.toJson)]
  | none => []

/-- The fields of an item beside its header. -/
def ownFields (item : Item) : List (String × Json) :=
  [("email", item.email), ("column_values", .arr (item.columns.map Column.toJson)),
    ("mappable_column_values", item.mappables.toJson), ("assets", .arr item.assets)]
  ++ item.parentFields ++ [("subitems", .arr (item.subitems.map Subitem.toJson))]

theorem toJson_eq (item : Item) : item.toJson = .obj (item.header.toFields ++ item.ownFields) := by
  have regroup (header own parent last : List (String × Json)) :
      header ++ own ++ parent ++ last = header ++ (own ++ parent ++ last) := by
    simp only [List.append_assoc]
  exact congrArg Json.obj (regroup item.header.toFields _ item.parentFields _)

theorem reads_parentFields (item : Item) :
    schema.Reads item.parentFields { item with header := .empty, parent := none, subitems := [] }
      { item with header := .empty, subitems := [] } := by
  obtain ⟨header, email, columns, mappables, assets, parent, subitems⟩ := item
  cases parent with
  | none => exact .nil
  | some parent => exact .cons rfl (bind_pure_of_eq_ok (Field.nullable_parent parent) _) .nil

variable {item : Item}

theorem WellFormed.reads_ownFields (h : item.WellFormed) :
    schema.Reads item.ownFields schema.empty { item with header := .empty } := by
  have first : schema.Reads
      [("email", item.email), ("column_values", .arr (item.columns.map Column.toJson)),
        ("mappable_column_values", item.mappables.toJson), ("assets", .arr item.assets)]
      schema.empty
      { item with
        header := .empty, mappables := .ofFields item.mappables.toFields, parent := none,
        subitems := [] } :=
    .cons rfl rfl <|
    .cons rfl (bind_pure_of_eq_ok (Column.strictList_read_toJson _) _) <|
    .cons rfl (bind_pure_of_eq_ok rfl _) <|
    .cons rfl (bind_pure_of_eq_ok (Field.strictList_ok _) _) .nil
  have subitems : Field.strictList Subitem.read (.arr (item.subitems.map Subitem.toJson)) =
      .ok item.subitems :=
    Field.strictList_map fun subitem mem => Subitem.read_toJson (h.subitems subitem mem)
  have last : schema.Reads [("subitems", .arr (item.subitems.map Subitem.toJson))]
      { item with header := .empty, subitems := [] } { item with header := .empty } :=
    .cons rfl (bind_pure_of_eq_ok subitems _) .nil
  rw [h.mappables.ofFields_toFields] at first
  exact (first.append item.reads_parentFields).append last

theorem WellFormed.read_toJson (h : item.WellFormed) : read item.toJson = .ok item := by
  have apart : (Fields.keys item.ownFields).all fun name =>
      (ItemHeader.schema.fields.lookup name).isNone := by
    unfold ownFields parentFields
    cases item.parent <;> rfl
  rw [toJson_eq]
  exact Schema.readHeaded_of_reads item.header h.reads_ownFields rfl apart rfl rfl

theorem wellFormed_copyRaw (raw : RawItem) : (copyRaw raw).WellFormed where
  mappables := Mappables.wellFormed_ofRaw raw.columns
  subitems := by
    intro subitem mem
    obtain ⟨inner, _, rfl⟩ := List.mem_map.mp mem
    exact Mappables.wellFormed_ofRaw inner.columns

theorem Frame.wellFormed {before after : Item} (frame : before.Frame after)
    (h : before.WellFormed) : after.WellFormed where
  mappables := frame.mappables.wellFormed h.mappables
  subitems := by
    rw [frame.subitems]
    exact h.subitems

/-- Whatever passes have run over a normalized item, it is read back from its JSON, since no
mappable value that is kept as it is holds null, a string or an object. -/
theorem read_toJson_run (raw : RawItem) (calls : List Aggregation) :
    read ((ofRaw raw).run calls).toJson = .ok ((ofRaw raw).run calls) ∧
      (∀ id v, (id, Mappable.other v) ∈ ((ofRaw raw).run calls).mappables →
        v ≠ .null ∧ (∀ s, v ≠ .str s) ∧ ∀ fields, v ≠ .obj fields) ∧
      ∀ subitem ∈ ((ofRaw raw).run calls).subitems,
        ∀ id v, (id, Mappable.other v) ∈ subitem.mappables →
          v ≠ .null ∧ (∀ s, v ≠ .str s) ∧ ∀ fields, v ≠ .obj fields := by
  have formed : ((ofRaw raw).run calls).WellFormed :=
    (frame_run_copyRaw raw calls).wellFormed (wellFormed_copyRaw raw)
  refine ⟨formed.read_toJson, ?_, ?_⟩
  · intro id v mem
    exact Mappable.proper_other_iff.mp (formed.mappables.proper _ mem)
  · intro subitem mem id v mem'
    exact Mappable.proper_other_iff.mp ((formed.subitems subitem mem).proper _ mem')

/-- An item and a subitem of it, with a column each whose value is kept as it is. -/
def markedItem : RawItem where
  header := .empty
  email := .null
  columns := [{ RawColumn.empty with id := "done", value := .str "true" }]
  assets := []
  parent := none
  subitems := [{ RawItem.empty with
    columns := [{ RawColumn.empty with id := "tags", value := .str "[false]" }] }]

/-- What both keep is no string, and so it is read back as what it was. -/
theorem read_toJson_run_marked :
    ("done", Mappable.other (.bool true)) ∈
        ((ofRaw markedItem).run [.rollUp, .gather .empty]).mappables ∧
      (∃ subitem ∈ ((ofRaw markedItem).run [.rollUp, .gather .empty]).subitems,
        ("tags", Mappable.other (.arr [.bool false])) ∈ subitem.mappables ∧
          ∀ s, Json.arr [.bool false] ≠ .str s) ∧
      read ((ofRaw markedItem).run [.rollUp, .gather .empty]).toJson =
        .ok ((ofRaw markedItem).run [.rollUp, .gather .empty]) ∧
      ∀ s, Json.bool true ≠ .str s := by
  obtain ⟨back, kept, kept_inside⟩ := read_toJson_run markedItem [.rollUp, .gather .empty]
  have marked : ("done", Mappable.other (.bool true)) ∈
      ((ofRaw markedItem).run [.rollUp, .gather .empty]).mappables := by decide +kernel
  have tagged : ∃ subitem ∈ ((ofRaw markedItem).run [.rollUp, .gather .empty]).subitems,
      ("tags", Mappable.other (.arr [.bool false])) ∈ subitem.mappables := by decide +kernel
  obtain ⟨subitem, mem, tagged⟩ := tagged
  exact ⟨marked, ⟨subitem, mem, tagged, (kept_inside subitem mem _ _ tagged).2.1⟩, back,
    (kept _ _ marked).2.1⟩

end Item

end BoardRollup
