import BoardRollup.Fields
import BoardRollup.Linked.Item

/-!
# The index of linked items

The linked items of a batch under their ids, built once. A repeated id keeps its first
place and its last item, and an item without an id is left out.
-/

namespace BoardRollup

/-- Linked items under their ids. -/
structure LinkedIndex where
  entries : List (String × LinkedItem)
  deriving DecidableEq

namespace LinkedIndex

def empty : LinkedIndex := ⟨[]⟩

def ofItems (items : List LinkedItem) : LinkedIndex :=
  ⟨Fields.ofList ((items.filter (·.id ≠ "")).map fun item => (item.id, item))⟩

def get? (index : LinkedIndex) (id : String) : Option LinkedItem := index.entries.lookup id

/-- The ids in the order in which they first came. -/
def ids (index : LinkedIndex) : List String := Fields.keys index.entries

def size (index : LinkedIndex) : Nat := index.entries.length

@[simp] theorem get?_empty (id : String) : empty.get? id = none := rfl

@[simp] theorem ids_empty : empty.ids = [] := rfl

@[simp] theorem ofItems_nil : ofItems [] = empty := rfl

theorem lookup_map_id (items : List LinkedItem) (id : String) :
    (items.map fun item => (item.id, item)).lookup id = items.find? (·.id = id) := by
  induction items with
  | nil => rfl
  | cons item rest ih =>
    rw [List.map_cons, Fields.lookup_cons, ih, List.find?_cons]
    by_cases h : item.id = id <;> simp [h]

/-- The last item of an id is indexed, and none of an empty id. -/
theorem get?_ofItems (items : List LinkedItem) (id : String) :
    (ofItems items).get? id = items.reverse.find? fun item => item.id ≠ "" ∧ item.id = id := by
  rw [get?, ofItems, Fields.lookup_ofList, ← List.map_reverse, lookup_map_id,
    ← List.filter_reverse, List.find?_filter]
  congr 1
  funext item
  simp

end LinkedIndex

def LinkedItem.select (items : List LinkedItem) (ids : List String) : List LinkedItem :=
  items.filter fun item => ids.contains item.id

namespace LinkedIndex

/-- Leaving items out of a list does not matter for an id that is kept. -/
theorem get?_ofItems_select {items : List LinkedItem} {ids : List String} {id : String}
    (mem : id ∈ ids) :
    (ofItems (LinkedItem.select items ids)).get? id = (ofItems items).get? id := by
  rw [get?_ofItems, get?_ofItems, LinkedItem.select, ← List.filter_reverse, List.find?_filter]
  congr 1
  funext item
  by_cases h : item.id = id
  · subst h
    simp [mem]
  · simp [h]

theorem get?_ofItems_empty (items : List LinkedItem) : (ofItems items).get? "" = none := by
  rw [get?_ofItems, List.find?_eq_none]
  intro item _
  simp

end LinkedIndex

end BoardRollup
