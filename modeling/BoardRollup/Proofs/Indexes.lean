import BoardRollup.Linked.Index
import BoardRollup.Proofs.DistinctKeys
import Mathlib.Data.List.Nodup

/-!
# What an index holds

An index that is built from a list of linked items holds each item under its own id and no two
items under one. Looking an id up is then finding the one item that has it, among all items or
among those of its board. What is found is the last entry that the list has under the id.
-/

namespace BoardRollup

namespace LinkedItem

def last? (items : List LinkedItem) (id : String) : Option LinkedItem :=
  (items.filter (·.id = id)).getLast?

theorem last?_append (before after : List LinkedItem) (id : String) :
    last? (before ++ after) id = (last? after id).or (last? before id) := by
  rw [last?, List.filter_append, List.getLast?_append]
  rfl

theorem last?_eq_find? (items : List LinkedItem) (id : String) :
    last? items id = items.reverse.find? (·.id = id) := by
  rw [last?, List.getLast?_eq_head?_reverse, ← List.filter_reverse, List.head?_filter]

theorem last?_cons (entry : LinkedItem) (rest : List LinkedItem) (id : String) :
    last? (entry :: rest) id = (last? rest id).or (if entry.id = id then some entry else none) := by
  rw [← List.singleton_append, last?_append]
  by_cases same : entry.id = id <;> simp [last?, same]

theorem last?_eq_none_iff {items : List LinkedItem} {id : String} :
    last? items id = none ↔ id ∉ items.map (·.id) := by
  rw [last?, List.getLast?_eq_none_iff, List.filter_eq_nil_iff, List.mem_map, not_exists]
  refine forall_congr' fun item => ?_
  rw [decide_eq_true_eq, not_and]

/-- Where no id is repeated, the item that has an id is the one that is found. -/
theorem find?_eq_some_iff {items : List LinkedItem} (once : (items.map (·.id)).Nodup)
    {id : String} {item : LinkedItem} :
    items.find? (·.id = id) = some item ↔ item ∈ items ∧ item.id = id := by
  constructor
  · intro found
    exact ⟨List.mem_of_find?_eq_some found, by simpa using List.find?_some found⟩
  · rintro ⟨mem, rfl⟩
    have some_item : (items.find? (·.id = item.id)).isSome :=
      List.find?_isSome.mpr ⟨item, mem, by simp⟩
    obtain ⟨other, found⟩ := Option.isSome_iff_exists.mp some_item
    have same_id : other.id = item.id := by simpa using List.find?_some found
    rw [found, List.inj_on_of_nodup_map once (List.mem_of_find?_eq_some found) mem same_id]

/-- Where no id is repeated, the order does not matter. -/
theorem last?_perm {items items' : List LinkedItem} (once : (items.map (·.id)).Nodup)
    (perm : items.Perm items') (id : String) : last? items id = last? items' id := by
  have once' : (items'.map (·.id)).Nodup := (perm.map _).nodup_iff.mp once
  have reversed {items : List LinkedItem} (once : (items.map (·.id)).Nodup) :
      (items.reverse.map (·.id)).Nodup := by
    rw [List.map_reverse]
    exact List.nodup_reverse.mpr once
  ext item
  rw [last?_eq_find?, last?_eq_find?, find?_eq_some_iff (reversed once),
    find?_eq_some_iff (reversed once'), List.mem_reverse, List.mem_reverse, perm.mem_iff]

end LinkedItem

namespace LinkedIndex

def items (index : LinkedIndex) : List LinkedItem := index.entries.map Prod.snd

def itemsOn (index : LinkedIndex) (boardId : String) : List LinkedItem :=
  index.items.filter (·.boardId = boardId)

theorem mem_ids_of_get? {index : LinkedIndex} {id : String} {source : LinkedItem}
    (found : index.get? id = some source) : id ∈ index.ids := by
  obtain ⟨before, after, entries, _⟩ := List.lookup_eq_some_iff.mp found
  rw [ids, entries]
  simp [Fields.keys]

/-- Each item stands under its own id, and no id comes twice. -/
structure Keyed (index : LinkedIndex) : Prop where
  own : ∀ entry ∈ index.entries, entry.1 = entry.2.id
  once : index.ids.Nodup

theorem keyed_ofItems (items : List LinkedItem) : (ofItems items).Keyed where
  own entry mem := by
    obtain ⟨item, _, rfl⟩ := List.mem_map.mp (Fields.mem_of_mem_ofList mem)
    rfl
  once := Fields.nodup_ofList _

/-- Under an id that is not empty, the last entry of the list is indexed. -/
theorem get?_ofItems_of_ne {id : String} (shown : id ≠ "") (items : List LinkedItem) :
    (ofItems items).get? id = LinkedItem.last? items id := by
  rw [get?_ofItems, LinkedItem.last?_eq_find?]
  congr 1
  funext item
  refine decide_eq_decide.mpr (and_iff_right_of_imp fun same => ?_)
  rwa [same]

namespace Keyed

variable {index : LinkedIndex} (keyed : index.Keyed)
include keyed

theorem entries_eq : index.entries = index.items.map fun item => (item.id, item) := by
  rw [items, List.map_map]
  refine (List.map_id _).symm.trans (List.map_congr_left fun entry mem => ?_)
  exact Prod.ext (keyed.own entry mem) rfl

theorem ids_eq : index.ids = index.items.map (·.id) := by
  rw [ids, keyed.entries_eq, Fields.keys, List.map_map]
  rfl

theorem nodup_items : (index.items.map (·.id)).Nodup := keyed.ids_eq ▸ keyed.once

theorem nodup_itemsOn (boardId : String) : ((index.itemsOn boardId).map (·.id)).Nodup :=
  keyed.nodup_items.sublist (List.filter_sublist.map _)

theorem get?_eq_some_iff {id : String} {item : LinkedItem} :
    index.get? id = some item ↔ item ∈ index.items ∧ item.id = id := by
  rw [get?, keyed.entries_eq, lookup_map_id, LinkedItem.find?_eq_some_iff keyed.nodup_items]

/-- An id that is looked up on a board needs the items of this board only. -/
theorem filter_get? (id boardId : String) :
    (index.get? id).filter (·.boardId = boardId) =
      (index.itemsOn boardId).find? (·.id = id) := by
  ext item
  rw [Option.filter_eq_some_iff, keyed.get?_eq_some_iff, decide_eq_true_eq,
    LinkedItem.find?_eq_some_iff (keyed.nodup_itemsOn boardId), itemsOn, List.mem_filter,
    decide_eq_true_eq]
  exact and_right_comm

end Keyed

end LinkedIndex

end BoardRollup
