import BoardRollup.Item.Raw
import BoardRollup.Linked.Item
import BoardRollup.Proofs.RecordShape

/-!
# What loads as an item

A field of an item is read from any value that stands there, with two exceptions: the entries of
a column list and those of a subitem list are records that have to load. So whether a value loads
as an item can be told from its structure: it is an object, or an array that has no more entries
than an item has fields, and so are its columns and, in turn, its subitems. A parent that is no
item is dropped. The same is true of linked items, their cells and their boards.

An item is read with the depth of its value as a bound. The values inside nest less deep, so the
bound is never met, and reading is as if there was none.
-/

namespace BoardRollup

theorem RawColumn.loads_iff {v : Json} : Loads RawColumn.read v ↔ RecordShape 6 v := by
  refine Schema.loads_read_iff_of_total rfl ?_
  intro entry mem w record
  simp only [schema, List.mem_cons, List.not_mem_nil, or_false] at mem
  rcases mem with rfl | rfl | rfl | rfl | rfl | rfl
  iterate 6 exact ⟨_, rfl⟩

namespace RawItem

def fieldNames : List String :=
  ["id", "name", "email", "created_at", "updated_at", "state", "board", "creator_id", "group",
    "column_values", "assets", "parent_item", "subitems"]

section
variable {read other : Json → Except Fault RawItem}

/-- Only the two lists of records can keep a field from being read. -/
theorem exists_assign_iff (field : String × Json) (record : RawItem) :
    (∃ after, (schema read).assign record field = .ok after) ↔
      (field.1 = "column_values" → Loads (Field.list RawColumn.read) field.2) ∧
        (field.1 = "subitems" → Loads (Field.list read) field.2) := by
  obtain ⟨name, v⟩ := field
  by_cases columns : name = "column_values"
  · subst columns
    have listed : (∃ after, (schema read).assign record ("column_values", v) = .ok after) ↔
        Loads (Field.list RawColumn.read) v := exists_return_iff
    simp [listed]
  · by_cases subitems : name = "subitems"
    · subst subitems
      have listed : (∃ after, (schema read).assign record ("subitems", v) = .ok after) ↔
          Loads (Field.list read) v := exists_return_iff
      simp [listed]
    · refine iff_of_true (Schema.exists_assign_of_total ?_ record)
        ⟨fun same => absurd same columns, fun same => absurd same subitems⟩
      intro entry mem same record
      simp only [schema, List.mem_cons, List.not_mem_nil, or_false] at mem
      rcases mem with rfl | rfl | rfl | rfl | rfl | rfl | rfl | rfl | rfl | rfl | rfl | rfl | rfl
      iterate 9 exact ⟨_, rfl⟩
      · exact absurd same.symm columns
      · exact ⟨_, rfl⟩
      · exact ⟨_, rfl⟩
      · exact absurd same.symm subitems

/-- Only the parent and the subitems are read with the reader for the items inside an item. -/
theorem assign_congr {field : String × Json} (parent : read field.2 = other field.2)
    (subitems : ∀ entries, field.2 = .arr entries → ∀ entry ∈ entries, read entry = other entry)
    (record : RawItem) :
    (schema read).assign record field = (schema other).assign record field := by
  obtain ⟨name, w⟩ := field
  have lenient : Field.lenient read w = Field.lenient other w := by
    rw [Field.lenient, Field.lenient, parent]
  have list : Field.list read w = Field.list other w := Field.list_congr subitems
  by_cases isParent : name = "parent_item"
  · subst isParent
    change Except.ok { record with parent := Field.lenient read w } = _
    rw [lenient]
    rfl
  · by_cases isSubitems : name = "subitems"
    · subst isSubitems
      change (do return { record with subitems := ← Field.list read w }) = _
      rw [list]
      rfl
    · simp only [Schema.assign, schema, Fields.lookup_cons, if_neg (Ne.symm isParent),
        if_neg (Ne.symm isSubitems)]

/-- The items inside an item nest less deep than it does. -/
theorem schema_read_congr {v : Json} (same : ∀ w : Json, w.depth < v.depth → read w = other w) :
    (schema read).read v = (schema other).read v := by
  refine Schema.read_congr rfl rfl ?_
  intro field mem record
  have inside : field.2.depth < v.depth := Json.depth_lt_of_mem_given mem
  apply assign_congr (same field.2 inside)
  intro entries list entry mem
  have deeper : entry.depth < field.2.depth := by
    rw [list]
    exact Json.depth_lt_of_mem mem
  exact same entry (Nat.lt_trans deeper inside)

end

theorem readWithin_eq {depth : Nat} {v : Json} (h : v.depth ≤ depth) :
    readWithin depth v = (schema read).read v := by
  induction depth using Nat.strongRecOn generalizing v with
  | ind depth ih =>
    cases depth with
    | zero =>
      cases v with
      | null | bool _ | num _ | str _ => rfl
      | arr _ | obj _ => exact absurd h (Nat.not_succ_le_zero _)
    | succ depth =>
      rw [readWithin]
      refine schema_read_congr fun w deeper => ?_
      have within : w.depth ≤ depth := Nat.le_of_lt_succ (Nat.lt_of_lt_of_le deeper h)
      calc readWithin depth w
          = (schema read).read w := ih depth (Nat.lt_succ_self depth) within
        _ = read w := (ih w.depth (Nat.lt_succ_of_le within) (Nat.le_refl _)).symm

/-- The depth that an item is read with does not show. -/
theorem read_eq (v : Json) : read v = (schema read).read v := readWithin_eq (Nat.le_refl _)

/-- A value is an item by its structure: so are its columns, if it has a list of them, and its
subitems, if it has a list of them. -/
inductive Valid : Json → Prop
  | intro {v : Json} (shape : RecordShape 13 v)
      (columns : ∀ entries, ("column_values", Json.arr entries) ∈ v.given fieldNames →
        ∀ entry ∈ entries, RecordShape 6 entry)
      (subitems : ∀ entries, ("subitems", Json.arr entries) ∈ v.given fieldNames →
        ∀ entry ∈ entries, Valid entry) : Valid v

theorem valid_iff {v : Json} :
    Valid v ↔ RecordShape 13 v ∧
      (∀ entries, ("column_values", Json.arr entries) ∈ v.given fieldNames →
        ∀ entry ∈ entries, RecordShape 6 entry) ∧
      ∀ entries, ("subitems", Json.arr entries) ∈ v.given fieldNames →
        ∀ entry ∈ entries, Valid entry := by
  constructor
  · rintro ⟨shape, columns, subitems⟩
    exact ⟨shape, columns, subitems⟩
  · rintro ⟨shape, columns, subitems⟩
    exact .intro shape columns subitems

/-- An item loads by its shape and by what its two lists of records hold. -/
theorem loads_iff {v : Json} :
    Loads read v ↔ RecordShape 13 v ∧
      (∀ entries, ("column_values", Json.arr entries) ∈ v.given fieldNames →
        ∀ entry ∈ entries, RecordShape 6 entry) ∧
      ∀ entries, ("subitems", Json.arr entries) ∈ v.given fieldNames →
        ∀ entry ∈ entries, Loads read entry := by
  have loads : Loads read v ↔ Loads (schema read).read v := by
    rw [Loads, read_eq, Loads]
  rw [loads, Schema.loads_read_iff rfl exists_assign_iff]
  simp only [Field.loads_list_iff, RawColumn.loads_iff, forall_and]
  exact and_congr Iff.rfl (and_congr forall_given_iff forall_given_iff)

theorem loads_iff_valid (v : Json) : Loads read v ↔ Valid v := by
  induction depth : v.depth using Nat.strongRecOn generalizing v with
  | ind limit ih =>
    rw [loads_iff, valid_iff]
    refine and_congr_right fun _ => and_congr_right fun _ => ?_
    refine forall_congr' fun entries => forall_congr' fun mem => ?_
    refine forall_congr' fun entry => forall_congr' fun mem' => ?_
    have deeper : entry.depth < limit := by
      calc entry.depth
          < (Json.arr entries).depth := Json.depth_lt_of_mem mem'
        _ < v.depth := Json.depth_lt_of_mem_given mem
        _ = limit := depth
    exact ih entry.depth deeper entry rfl

/-- An item has the parent that is read from the last value under the parent's name. -/
theorem parent_of_read {v : Json} {item : RawItem} (loaded : read v = .ok item) :
    item.parent = (v.lastGiven fieldNames "parent_item").bind (Field.lenient read) := by
  rw [read_eq] at loaded
  refine Schema.part_of_read RawItem.parent rfl rfl ?own ?other loaded
  case own =>
    intro w record after set
    cases set
    rfl
  case other =>
    intro entry mem apart w record after put
    simp only [schema, List.mem_cons, List.not_mem_nil, or_false] at mem
    rcases mem with rfl | rfl | rfl | rfl | rfl | rfl | rfl | rfl | rfl | rfl | rfl | rfl | rfl
    iterate 9 cases put; rfl
    · obtain ⟨_, _, rfl⟩ := return_eq_ok_iff.mp put
      rfl
    · cases put
      rfl
    · exact absurd rfl apart
    · obtain ⟨_, _, rfl⟩ := return_eq_ok_iff.mp put
      rfl

end RawItem

theorem LinkedCell.loads_iff {v : Json} : Loads LinkedCell.read v ↔ RecordShape 3 v := by
  refine Schema.loads_read_iff_of_total rfl ?_
  intro entry mem w record
  simp only [schema, List.mem_cons, List.not_mem_nil, or_false] at mem
  rcases mem with rfl | rfl | rfl
  iterate 3 exact ⟨_, rfl⟩

namespace LinkedItem

def fieldNames : List String := ["id", "name", "board", "column_values"]

theorem loads_board_iff (v : Json) : Loads boardSchema.read v ↔ RecordShape 1 v := by
  refine Schema.loads_read_iff_of_total rfl ?_
  intro entry mem w record
  simp only [boardSchema, List.mem_cons, List.not_mem_nil, or_false] at mem
  subst mem
  exact ⟨_, rfl⟩

/-- Only the list of cells can keep a field from being read. -/
theorem exists_assign_iff (field : String × Json) (record : LinkedItem) :
    (∃ after, schema.assign record field = .ok after) ↔
      (field.1 = "column_values" → Loads (Field.list LinkedCell.read) field.2) := by
  obtain ⟨name, v⟩ := field
  by_cases cells : name = "column_values"
  · subst cells
    have listed : (∃ after, schema.assign record ("column_values", v) = .ok after) ↔
        Loads (Field.list LinkedCell.read) v := exists_return_iff
    simp [listed]
  · refine iff_of_true (Schema.exists_assign_of_total ?_ record) fun same => absurd same cells
    intro entry mem same record
    simp only [schema, List.mem_cons, List.not_mem_nil, or_false] at mem
    rcases mem with rfl | rfl | rfl | rfl
    iterate 3 exact ⟨_, rfl⟩
    exact absurd same.symm cells

/-- A linked item loads by its shape and by that of its cells. -/
theorem loads_iff (v : Json) :
    Loads read v ↔ RecordShape 4 v ∧
      ∀ entries, ("column_values", Json.arr entries) ∈ v.given fieldNames →
        ∀ entry ∈ entries, RecordShape 3 entry := by
  have loads : Loads read v ↔ Loads schema.read v := Iff.rfl
  rw [loads, Schema.loads_read_iff rfl exists_assign_iff]
  simp only [Field.loads_list_iff, LinkedCell.loads_iff]
  exact and_congr Iff.rfl forall_given_iff

/-- A linked item is on the board that is read from the last value under the board's name. -/
theorem board_of_read {v : Json} {item : LinkedItem} (loaded : read v = .ok item) :
    item.board = (v.lastGiven fieldNames "board").bind (Field.lenient boardSchema.read) := by
  refine Schema.part_of_read LinkedItem.board rfl rfl ?own ?other loaded
  case own =>
    intro w record after set
    cases set
    rfl
  case other =>
    intro entry mem apart w record after put
    simp only [schema, List.mem_cons, List.not_mem_nil, or_false] at mem
    rcases mem with rfl | rfl | rfl | rfl
    iterate 2 cases put; rfl
    · exact absurd rfl apart
    · obtain ⟨_, _, rfl⟩ := return_eq_ok_iff.mp put
      rfl

end LinkedItem

/-- A value loads as an item exactly if it is one by its structure, and the item keeps its parent
exactly if the parent is one. A value loads as a linked item exactly if it has the shape of one
and so have its cells, and the item keeps its board exactly if the board has the shape of one.
Nothing else in a value matters. -/
theorem loads_iff_structure (v : Json) :
    (Loads RawItem.read v ↔ RawItem.Valid v) ∧
      (∀ item, RawItem.read v = .ok item →
        KeptIfValid RawItem.read RawItem.Valid
          (v.lastGiven RawItem.fieldNames "parent_item") item.parent) ∧
      (Loads LinkedItem.read v ↔
        RecordShape 4 v ∧
          ∀ entries, ("column_values", Json.arr entries) ∈ v.given LinkedItem.fieldNames →
            ∀ entry ∈ entries, RecordShape 3 entry) ∧
      ∀ item, LinkedItem.read v = .ok item →
        KeptIfValid LinkedItem.boardSchema.read (RecordShape 1)
          (v.lastGiven LinkedItem.fieldNames "board") item.board := by
  refine ⟨RawItem.loads_iff_valid v, ?parent, LinkedItem.loads_iff v, ?board⟩
  case parent =>
    intro item loaded
    rw [RawItem.parent_of_read loaded]
    exact keptIfValid_of_loads_iff RawItem.loads_iff_valid _
  case board =>
    intro item loaded
    rw [LinkedItem.board_of_read loaded]
    exact keptIfValid_of_loads_iff LinkedItem.loads_board_iff _

/-- An item as an array of all its fields: it has a column as an array and another as an object, a
parent that is no item, and a subitem as an array without entries. -/
def positionalItem : Json :=
  .arr [.str "1", .null, .null, .null, .null, .null, .null, .null, .null,
    .arr [.arr [.str "total"], .obj []], .null, .str "2", .arr [.arr []]]

theorem loads_iff_structure_positional :
    ∃ item, RawItem.read positionalItem = .ok item ∧
      KeptIfValid RawItem.read RawItem.Valid (some (.str "2")) item.parent := by
  have inner : RawItem.Valid (.arr []) :=
    .intro (.array (Nat.zero_le _)) (fun _ mem => by cases mem) (fun _ mem => by cases mem)
  have valid : RawItem.Valid positionalItem := by
    refine .intro (.array (Nat.le_refl _)) ?columns ?subitems
    case columns =>
      intro entries mem
      have list : entries = [.arr [.str "total"], .obj []] := by
        simpa [positionalItem, Json.given, RawItem.fieldNames] using mem
      rw [list]
      intro entry mem
      rcases List.mem_cons.mp mem with rfl | mem
      · exact .array (by decide)
      · rw [List.mem_singleton.mp mem]
        exact .object []
    case subitems =>
      intro entries mem
      have list : entries = [.arr []] := by
        simpa [positionalItem, Json.given, RawItem.fieldNames] using mem
      rw [list]
      intro entry mem
      rw [List.mem_singleton.mp mem]
      exact inner
  obtain ⟨item, loaded⟩ := (loads_iff_structure positionalItem).1.mpr valid
  exact ⟨item, loaded, (loads_iff_structure positionalItem).2.1 item loaded⟩

end BoardRollup
