import BoardRollup.Proofs.Batching
import BoardRollup.Proofs.Indexes

/-!
# Positions in an index

An index can be kept as a list of items beside a map from ids to positions in the list. Both are
written in lockstep: an item with a new id goes to the end of the list and its position into the
map, and an item with an id that the map has is written over the one at its position. So the
place of an id comes from the first item that had it and the content from the last.

As long as the map is the inverse of the list of ids, this is the same as writing the items
under their ids. What is found under an id, and in which order the ids stand, can then be told
from the items themselves; and an index of the items that were asked for is the part of the whole
index under these ids.
-/

namespace BoardRollup

namespace Fields

variable {α : Type}

/-- Leaving keys out before or after the entries are written comes to the same. -/
theorem filter_ofList (entries : List (String × α)) (p : String → Bool) :
    (ofList entries).filter (fun entry => p entry.1) =
      ofList (entries.filter fun entry => p entry.1) := by
  induction entries using List.reverseRecOn with
  | nil => rfl
  | append_singleton before entry ih =>
    rw [ofList_concat, filter_set, ih, List.filter_append]
    by_cases seen : p entry.1
    · simp [seen, ofList_concat]
    · simp [seen]

theorem lookup_filter (fields : List (String × α)) (p : String → Bool) (key : String) :
    (fields.filter fun entry => p entry.1).lookup key =
      if p key then fields.lookup key else none := by
  induction fields with
  | nil => simp
  | cons entry rest ih =>
    obtain ⟨k, v⟩ := entry
    by_cases same : k = key
    · subst same
      by_cases seen : p k <;> simp [ih, seen]
    · by_cases seen : p k <;> simp [lookup_cons, ih, seen, same]

end Fields

theorem getElem?_concat_eq_some_iff {α : Type} {as : List α} {a b : α} {position : Nat} :
    (as ++ [b])[position]? = some a ↔
      as[position]? = some a ∨ position = as.length ∧ b = a := by
  rcases Nat.lt_trichotomy position as.length with inside | rfl | outside
  · rw [List.getElem?_append_left inside]
    simp [Nat.ne_of_lt inside]
  · simp
  · rw [List.getElem?_eq_none (by simp; omega), List.getElem?_eq_none (Nat.le_of_lt outside)]
    simp [Nat.ne_of_gt outside]

/-- Linked items, and the position of each id among them. -/
structure PlacedIndex where
  items : List LinkedItem
  positions : List (String × Nat)

namespace PlacedIndex

def empty : PlacedIndex := ⟨[], []⟩

/-- Adds an item, at the end or over the one that has its id. Without an id it is left out. -/
def push (index : PlacedIndex) (item : LinkedItem) : PlacedIndex :=
  if item.id = "" then index
  else
    match index.positions.lookup item.id with
    | some position => { index with items := index.items.set position item }
    | none =>
      { items := index.items ++ [item]
        positions := Fields.set item.id index.items.length index.positions }

def ofItems (items : List LinkedItem) : PlacedIndex := items.foldl push empty

def ids (index : PlacedIndex) : List String := index.items.map (·.id)

def get? (index : PlacedIndex) (id : String) : Option LinkedItem :=
  (index.positions.lookup id).bind (index.items[·]?)

/-- The items under their ids, without positions. -/
def toIndex (index : PlacedIndex) : LinkedIndex :=
  ⟨index.items.map fun item => (item.id, item)⟩

/-- The map takes the id of each item to the position of the item, and nothing else anywhere. No
id comes twice, in the list or in the map, and the empty id not at all. -/
structure Coherent (index : PlacedIndex) : Prop where
  positions (id : String) (position : Nat) :
    index.positions.lookup id = some position ↔ index.ids[position]? = some id
  once : index.ids.Nodup
  keys : (Fields.keys index.positions).Nodup
  named : "" ∉ index.ids

variable {index : PlacedIndex} {item : LinkedItem} {position : Nat}

theorem push_unnamed (unnamed : item.id = "") : index.push item = index := by
  rw [push, if_pos unnamed]

theorem push_known (named : item.id ≠ "")
    (known : index.positions.lookup item.id = some position) :
    index.push item = { index with items := index.items.set position item } := by
  rw [push, if_neg named, known]

theorem push_new (named : item.id ≠ "") (new : index.positions.lookup item.id = none) :
    index.push item =
      { items := index.items ++ [item]
        positions := Fields.set item.id index.items.length index.positions } := by
  rw [push, if_neg named, new]

theorem coherent_empty : empty.Coherent where
  positions id position := by simp [empty, ids]
  once := List.nodup_nil
  keys := List.nodup_nil
  named := List.not_mem_nil

namespace Coherent

variable (coherent : index.Coherent)
include coherent

/-- An id that is not in the map is no item's. -/
theorem fresh (new : index.positions.lookup item.id = none) : item.id ∉ index.ids := by
  intro mem
  obtain ⟨position, found⟩ := List.mem_iff_getElem?.mp mem
  rw [(coherent.positions item.id position).mpr found] at new
  cases new

/-- Writing over the item that has the same id leaves the ids as they are. -/
theorem ids_overwritten (known : index.positions.lookup item.id = some position) :
    (index.items.set position item).map (·.id) = index.ids := by
  have found : index.ids[position]? = some item.id :=
    (coherent.positions item.id position).mp known
  obtain ⟨inside, same⟩ := List.getElem?_eq_some_iff.mp found
  rw [List.map_set]
  change index.ids.set position item.id = index.ids
  rw [← same]
  exact List.set_getElem_self inside

theorem overwritten (known : index.positions.lookup item.id = some position) :
    Coherent { index with items := index.items.set position item } := by
  have same : PlacedIndex.ids { index with items := index.items.set position item } =
      index.ids := coherent.ids_overwritten known
  constructor
  case positions =>
    intro id other
    rw [same]
    exact coherent.positions id other
  case once => exact same ▸ coherent.once
  case keys => exact coherent.keys
  case named => exact same ▸ coherent.named

theorem extended (named : item.id ≠ "") (new : index.positions.lookup item.id = none) :
    Coherent
      { items := index.items ++ [item]
        positions := Fields.set item.id index.items.length index.positions } := by
  have fresh : item.id ∉ index.ids := coherent.fresh new
  have ids : (index.items ++ [item]).map (·.id) = index.ids ++ [item.id] := List.map_append
  have length : index.ids.length = index.items.length := List.length_map _
  constructor
  case positions =>
    intro id other
    rw [PlacedIndex.ids, ids, getElem?_concat_eq_some_iff, length, Fields.lookup_set]
    by_cases same : item.id = id
    · subst same
      have absent : index.ids[other]? ≠ some item.id := fun there =>
        fresh (List.mem_of_getElem? there)
      simp [absent, eq_comm]
    · simp [same, coherent.positions id other]
  case once =>
    rw [PlacedIndex.ids, ids]
    exact (List.perm_append_singleton _ _).nodup_iff.mpr
      (List.nodup_cons.mpr ⟨fresh, coherent.once⟩)
  case keys => exact Fields.nodup_set coherent.keys _ _
  case named =>
    rw [PlacedIndex.ids, ids, List.mem_append, List.mem_singleton, not_or]
    exact ⟨coherent.named, named.symm⟩

theorem push (item : LinkedItem) : (index.push item).Coherent := by
  by_cases unnamed : item.id = ""
  · rw [push_unnamed unnamed]
    exact coherent
  · cases found : index.positions.lookup item.id with
    | some position =>
      rw [push_known unnamed found]
      exact coherent.overwritten found
    | none =>
      rw [push_new unnamed found]
      exact coherent.extended unnamed found

/-- What is found at the position of an id is the item that has it. -/
theorem get?_eq (id : String) : index.get? id = index.items.find? (·.id = id) := by
  ext item
  rw [LinkedItem.find?_eq_some_iff coherent.once, get?, Option.bind_eq_some_iff,
    List.mem_iff_getElem?]
  constructor
  · rintro ⟨position, found, there⟩
    have own : index.ids[position]? = some item.id := by
      rw [ids, List.getElem?_map, there, Option.map_some]
    have same : index.ids[position]? = some id := (coherent.positions id position).mp found
    exact ⟨⟨position, there⟩, Option.some.inj (own.symm.trans same)⟩
  · rintro ⟨⟨position, there⟩, rfl⟩
    refine ⟨position, (coherent.positions item.id position).mpr ?_, there⟩
    rw [ids, List.getElem?_map, there, Option.map_some]

theorem get?_toIndex (id : String) : index.toIndex.get? id = index.get? id := by
  rw [coherent.get?_eq, LinkedIndex.get?, toIndex, LinkedIndex.lookup_map_id]

end Coherent

theorem ids_toIndex (index : PlacedIndex) : index.toIndex.ids = index.ids := List.map_map

/-- Writing over the item that has an id is the same in a list of items and under their ids. -/
theorem set_under_ids {items : List LinkedItem} (once : (items.map (·.id)).Nodup)
    (found : (items.map (·.id))[position]? = some item.id) :
    ((items.set position item).map fun item => (item.id, item)) =
      Fields.set item.id item (items.map fun item => (item.id, item)) := by
  induction items generalizing position with
  | nil => cases found
  | cons first rest ih =>
    obtain ⟨fresh, once⟩ := List.nodup_cons.mp once
    cases position with
    | zero =>
      have same : first.id = item.id := Option.some.inj found
      simp [Fields.set, same]
    | succ position =>
      have later : (rest.map (·.id))[position]? = some item.id := found
      have mem : item.id ∈ rest.map (·.id) := List.mem_of_getElem? later
      have other : first.id ≠ item.id := by
        intro same
        rw [← same] at mem
        exact fresh mem
      simp only [List.set_cons_succ, List.map_cons, Fields.set, if_neg other, ih once later]

/-- In step with the list and the map, the items are written under their ids. -/
theorem Coherent.toIndex_push (coherent : index.Coherent) (named : item.id ≠ "") :
    (index.push item).toIndex = ⟨Fields.set item.id item index.toIndex.entries⟩ := by
  cases found : index.positions.lookup item.id with
  | some position =>
    have known : index.ids[position]? = some item.id :=
      (coherent.positions item.id position).mp found
    rw [push_known named found, toIndex, set_under_ids coherent.once known]
    rfl
  | none =>
    have fresh : item.id ∉ index.toIndex.ids := by
      rw [ids_toIndex]
      exact coherent.fresh found
    rw [push_new named found, Fields.set_of_notMem fresh, toIndex, List.map_append]
    rfl

theorem ofItems_concat (items : List LinkedItem) (item : LinkedItem) :
    ofItems (items ++ [item]) = (ofItems items).push item := by
  rw [ofItems, List.foldl_append]
  rfl

theorem coherent_ofItems (items : List LinkedItem) : (ofItems items).Coherent := by
  induction items using List.reverseRecOn with
  | nil => exact coherent_empty
  | append_singleton before item ih =>
    rw [ofItems_concat]
    exact ih.push item

theorem toIndex_ofItems (items : List LinkedItem) :
    (ofItems items).toIndex = LinkedIndex.ofItems items := by
  induction items using List.reverseRecOn with
  | nil => rfl
  | append_singleton before item ih =>
    rw [ofItems_concat]
    by_cases unnamed : item.id = ""
    · have skipped : (before ++ [item]).filter (·.id ≠ "") = before.filter (·.id ≠ "") := by
        simp [unnamed]
      rw [push_unnamed unnamed, ih, LinkedIndex.ofItems, LinkedIndex.ofItems, skipped]
    · have kept : (before ++ [item]).filter (·.id ≠ "") =
          before.filter (·.id ≠ "") ++ [item] := by
        simp [unnamed]
      rw [(coherent_ofItems before).toIndex_push unnamed, ih, LinkedIndex.ofItems,
        LinkedIndex.ofItems, kept, List.map_append, List.map_singleton, Fields.ofList_concat]

end PlacedIndex

namespace LinkedIndex

def restrict (index : LinkedIndex) (ids : List String) : LinkedIndex :=
  ⟨index.entries.filter fun entry => ids.contains entry.1⟩

/-- An index holds what a list of linked items says: the ids in the order in which they first
come, without the empty one, and under each of them its last entry. -/
structure Reads (index : LinkedIndex) (items : List LinkedItem) : Prop where
  ids : index.ids = ((items.map (·.id)).filter (· ≠ "")).eraseDups
  get? (id : String) :
    index.get? id = if id = "" then none else LinkedItem.last? items id

/-- An index holds of another what is under some ids, in the same order. -/
structure RestrictedTo (whole : LinkedIndex) (request : List String) (part : LinkedIndex) :
    Prop where
  ids : part.ids = whole.ids.filter (· ∈ request)
  get? (id : String) : part.get? id = if id ∈ request then whole.get? id else none

theorem reads_ofItems (items : List LinkedItem) : (ofItems items).Reads items where
  ids := by
    rw [LinkedIndex.ids, ofItems, Fields.keys_ofList, Fields.keys, List.map_map, List.filter_map]
    rfl
  get? id := by
    by_cases unnamed : id = ""
    · rw [if_pos unnamed, unnamed, get?_ofItems_empty]
    · rw [if_neg unnamed, get?_ofItems_of_ne unnamed]

theorem restrictedTo_restrict (index : LinkedIndex) (ids : List String) :
    index.RestrictedTo ids (index.restrict ids) where
  ids := by
    simp [LinkedIndex.ids, restrict, Fields.keys, List.filter_map, Function.comp_def]
  get? id := by
    rw [LinkedIndex.get?, restrict, Fields.lookup_filter index.entries ids.contains id]
    by_cases asked : id ∈ ids <;> simp [asked, LinkedIndex.get?]

/-- Only the items with some ids give an index only the part under these ids. -/
theorem ofItems_select (items : List LinkedItem) (ids : List String) :
    ofItems (LinkedItem.select items ids) = (ofItems items).restrict ids := by
  have entries : ((LinkedItem.select items ids).filter (·.id ≠ "")).map
        (fun item => (item.id, item)) =
      ((items.filter (·.id ≠ "")).map fun item => (item.id, item)).filter
        fun entry => ids.contains entry.1 := by
    rw [LinkedItem.select, List.filter_map, List.filter_filter, List.filter_filter]
    congr 2
    funext item
    exact Bool.and_comm ..
  rw [restrict, ofItems, ofItems, entries, Fields.filter_ofList]

/-- An index that is built by writing a list and a map in lockstep has both coherent at any time,
and is the index of the items under their ids. It holds what the items say; and what a list
of items answers a request with is the part of its index under the ids of the request. -/
theorem ofItems_coherent (items : List LinkedItem) :
    (PlacedIndex.ofItems items).Coherent ∧
      (PlacedIndex.ofItems items).toIndex = ofItems items ∧
      (PlacedIndex.ofItems items).ids = (ofItems items).ids ∧
      (∀ id, (PlacedIndex.ofItems items).get? id = (ofItems items).get? id) ∧
      (ofItems items).Reads items ∧
      ∀ ids, (ofItems items).RestrictedTo ids
        (resolve (m := Id) (Fetch.ofItems items) ids).run := by
  have coherent := PlacedIndex.coherent_ofItems items
  have same := PlacedIndex.toIndex_ofItems items
  refine ⟨coherent, same, ?ids, ?get, reads_ofItems items, ?request⟩
  case ids => rw [← same, PlacedIndex.ids_toIndex]
  case get =>
    intro id
    rw [← same, coherent.get?_toIndex]
  case request =>
    intro ids
    rw [resolve_ofItems, Id.run_pure, ofItems_select]
    exact restrictedTo_restrict _ ids

end LinkedIndex

end BoardRollup
