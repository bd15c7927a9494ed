import BoardRollup.Proofs.CrossBoard
import BoardRollup.Proofs.References
import Mathlib.Data.List.Basic

/-!
# What a pass looks up

A cross-board pass asks the index for the ids on a column's own list, whose names may
fill its text in, and for the ids that its relation narrows the linked items to. Each
of them is empty, or some column of the item refers to it.

Where every relation with a target narrows to some id, an item depends on the index only
at the ids that it looks up, and so two indexes that agree there give the same item.
-/

namespace BoardRollup

namespace Column

/-- The ids under which a pass over an item looks linked items up for a column. -/
def lookups (item : Item) (c : Column) : List String :=
  match c.relation? .crossBoard with
  | none => []
  | some relation => c.linkedIds.getD [] ++ relation.narrowedIds (.ofColumns item.columns)

/-- A column of an item that does not read the whole index: if it has a target on another
board, its flagged columns refer to some id. -/
def Narrowed (item : Item) (c : Column) : Prop :=
  ∀ relation ∈ c.relation? .crossBoard, relation.target? ≠ none →
    relation.narrowedIds (.ofColumns item.columns) ≠ []

instance (item : Item) (c : Column) : Decidable (c.Narrowed item) :=
  inferInstanceAs (Decidable (∀ relation ∈ c.relation? .crossBoard, _))

end Column

/-- An item none of whose columns reads the whole index. -/
def Item.Narrowed (item : Item) : Prop := ∀ c ∈ item.columns, c.Narrowed item

instance (item : Item) : Decidable item.Narrowed :=
  inferInstanceAs (Decidable (∀ c ∈ item.columns, c.Narrowed item))

namespace Item

variable {item : Item} {relation : Relation} {id : String}

/-- The ids that narrow a relation are those that the first columns under its flags refer to. -/
theorem mem_flaggedIds :
    id ∈ item.flaggedIds relation ↔
      ∃ flag ∈ relation.flagged, ∃ d, item.column? flag = some d ∧ d.Refers id := by
  rw [flaggedIds, List.mem_eraseDups, List.mem_flatMap]
  refine exists_congr fun flag => and_congr_right fun _ => ?_
  cases found : item.column? flag with
  | none => simp
  | some d => simp [Column.mem_references]

/-- Only columns of the item narrow its relations. -/
theorem refers_of_mem_flaggedIds (h : id ∈ item.flaggedIds relation) :
    ∃ c ∈ item.columns, c.Refers id := by
  obtain ⟨_, _, c, found, refers⟩ := mem_flaggedIds.mp h
  exact ⟨c, List.mem_of_find?_eq_some found, refers⟩

theorem refers_of_mem_lookups {c : Column} (mem : c ∈ item.columns)
    (h : id ∈ c.lookups item) (shown : id ≠ "") : ∃ d ∈ item.columns, d.Refers id := by
  unfold Column.lookups at h
  split at h
  · cases h
  · rcases List.mem_append.mp h with own | narrowed
    · cases listed : c.linkedIds with
      | none => simp [listed] at own
      | some ids => exact ⟨c, mem, .listed listed (by simpa [listed] using own) shown⟩
    · rw [Relation.narrowedIds_ofColumns] at narrowed
      exact refers_of_mem_flaggedIds narrowed

end Item

namespace LinkedIndex

/-- Two indexes give the same items for some ids. -/
def AgreeOn (ids : List String) (index other : LinkedIndex) : Prop :=
  ∀ id ∈ ids, index.get? id = other.get? id

variable {index other : LinkedIndex} {ids more : List String}

theorem AgreeOn.of_subset (h : AgreeOn more index other) (sub : ids ⊆ more) :
    AgreeOn ids index other := fun id mem => h id (sub mem)

/-- Under the empty id there is nothing to agree on in indexes that are built from lists. -/
theorem agreeOn_ofItems {first second : List LinkedItem}
    (h : ∀ id ∈ ids, id ≠ "" → (ofItems first).get? id = (ofItems second).get? id) :
    AgreeOn ids (ofItems first) (ofItems second) := by
  intro id mem
  by_cases empty : id = ""
  · rw [empty, get?_ofItems_empty, get?_ofItems_empty]
  · exact h id mem empty

theorem AgreeOn.linkedNames (h : AgreeOn ids index other) :
    Column.linkedNames index ids = Column.linkedNames other ids := by
  have items : ids.filterMap index.get? = ids.filterMap other.get? :=
    List.filterMap_congr h
  rw [Column.linkedNames, Column.linkedNames, items]

theorem AgreeOn.textsFor (h : AgreeOn ids index other) (target : Target) :
    index.textsFor target ids = other.textsFor target ids := by
  refine List.filterMap_congr fun id mem => ?_
  rw [textFor?, textFor?, h id mem]

end LinkedIndex

namespace Column

variable {c : Column} {item : Item} {index other : LinkedIndex}

theorem fillText_congr (h : LinkedIndex.AgreeOn (c.linkedIds.getD []) index other) :
    c.fillText index = c.fillText other := by
  have standIn : c.standIn? index = c.standIn? other := by
    refine standIn?_congr fun _ ids listed => LinkedIndex.AgreeOn.linkedNames ?_
    simpa [listed] using h
  rw [fillText, fillText, standIn]

/-- What a pass makes of a narrowed column is settled by what it looks up. -/
theorem gathered_congr (narrowed : c.Narrowed item)
    (h : LinkedIndex.AgreeOn (c.lookups item) index other) :
    c.gathered item index = c.gathered item other := by
  cases found : c.relation? .crossBoard with
  | none => rw [gathered_of_none found, gathered_of_none found]
  | some relation =>
    have lookups : c.lookups item =
        c.linkedIds.getD [] ++ relation.narrowedIds (.ofColumns item.columns) := by
      rw [Column.lookups, found]
    rw [lookups] at h
    have filled : c.fillText index = c.fillText other :=
      fillText_congr (h.of_subset (List.subset_append_left _ _))
    cases targeted : relation.target? with
    | none =>
      rw [gathered_of_no_target found targeted, gathered_of_no_target found targeted, filled]
    | some target =>
      have some_id : relation.narrowedIds (.ofColumns item.columns) ≠ [] :=
        narrowed relation found (by simp [targeted])
      rw [Relation.narrowedIds_ofColumns] at h some_id
      have sources : ∀ index, item.sourceIds relation index = item.flaggedIds relation :=
        fun index => if_neg some_id
      have texts : index.textsFor target (item.flaggedIds relation) =
          other.textsFor target (item.flaggedIds relation) :=
        (h.of_subset (List.subset_append_right _ _)).textsFor target
      rw [gathered_of_target found targeted, gathered_of_target found targeted, filled,
        sources, sources, texts]

end Column

/-- What a pass makes of a narrowed item is settled by what it looks up. -/
theorem Item.gather_congr {item : Item} {index other : LinkedIndex} (narrowed : item.Narrowed)
    (h : ∀ c ∈ item.columns, LinkedIndex.AgreeOn (c.lookups item) index other) :
    item.gather index = item.gather other := by
  have each : ∀ c ∈ item.columns, c.gathered item index = c.gathered item other :=
    fun c mem => Column.gathered_congr (narrowed c mem) (h c mem)
  have columns : item.columns.map (Column.gathered item index) =
      item.columns.map (Column.gathered item other) :=
    List.map_congr_left each
  have texts : item.crossTexts index = item.crossTexts other := by
    refine List.map_congr_left fun c mem => ?_
    rw [each c (List.mem_filter.mp mem).1]
  rw [gather_eq, gather_eq, gatheredAtOnce, gatheredAtOnce, columns, texts]

end BoardRollup
