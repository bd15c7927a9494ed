import BoardRollup.Proofs.Requests

/-!
# Batches and their items

Two batches with an item in common ask for different ids, so they index different linked
items. If both are answered from one list, a narrowed item comes out the same: what it looks
up lies in either request, and an index of the answer to a request gives the same
items for the ids in it as an index of the whole list.

An item that is not narrowed reads whatever else its batch has asked for.
-/

namespace BoardRollup

/-- The index that a list of linked items answers a request with. -/
theorem LinkedIndex.resolve_ofItems {m : Type → Type} [Monad m] [LawfulMonad m]
    (linked : List LinkedItem) (ids : List String) :
    resolve (m := m) (Fetch.ofItems linked) ids = pure (ofItems (LinkedItem.select linked ids)) := by
  by_cases none : ids = []
  · have nothing : LinkedItem.select linked [] = [] := by simp [LinkedItem.select]
    rw [resolve, if_pos none, none, nothing, ofItems_nil]
  · rw [resolve, if_neg none, Fetch.ofItems, pure_bind]

namespace Batch

/-- On what an item of a batch looks up, the index of the answer and that of the whole list
agree. -/
theorem agreeOn_lookups {batch : Batch} {item : Item} {c : Column} (mem : item ∈ batch.items)
    (mem' : c ∈ item.columns) (linked : List LinkedItem) :
    LinkedIndex.AgreeOn (c.lookups item)
      (.ofItems (LinkedItem.select linked batch.linkedIds)) (.ofItems linked) :=
  LinkedIndex.agreeOn_ofItems fun _ looked shown =>
    LinkedIndex.get?_ofItems_select (mem_linkedIds_of_mem_lookups mem mem' looked shown)

/-- A narrowed item of a batch comes out as if the whole list were indexed. -/
theorem gather_select {batch : Batch} {item : Item} (mem : item ∈ batch.items)
    (narrowed : item.Narrowed) (linked : List LinkedItem) :
    item.gather (.ofItems (LinkedItem.select linked batch.linkedIds)) =
      item.gather (.ofItems linked) :=
  Item.gather_congr narrowed fun _ mem' => agreeOn_lookups mem mem' linked

/-- A batch of narrowed items that a list answers is computed item by item. -/
theorem aggregate_ofItems {m : Type → Type} [Monad m] [LawfulMonad m] {batch : Batch}
    (narrowed : ∀ item ∈ batch.items, item.Narrowed) (linked : List LinkedItem) :
    batch.aggregate (m := m) (Fetch.ofItems linked) =
      pure (batch.items.map fun item => (item.gather (.ofItems linked)).1) := by
  have each : batch.gather (.ofItems (LinkedItem.select linked batch.linkedIds)) =
      batch.items.map fun item => (item.gather (.ofItems linked)).1 := by
    refine List.map_congr_left fun item mem => ?_
    rw [gather_select mem (narrowed item mem)]
  rw [aggregate, LinkedIndex.resolve_ofItems, pure_bind, each]

/-- Narrowed items come out of one batch as they come out of batches of their own. -/
theorem aggregate_items {items : List Item} (narrowed : ∀ item ∈ items, item.Narrowed)
    (linked : List LinkedItem) :
    (Batch.aggregate (m := Id) ⟨items⟩ (Fetch.ofItems linked)).run.map ([·]) =
      items.map fun item => (Batch.aggregate (m := Id) ⟨[item]⟩ (Fetch.ofItems linked)).run := by
  rw [aggregate_ofItems narrowed, Id.run_pure, List.map_map]
  refine List.map_congr_left fun item mem => ?_
  have alone : ∀ other ∈ [item], other.Narrowed := by
    intro other here
    rw [List.mem_singleton.mp here]
    exact narrowed item mem
  rw [aggregate_ofItems alone]
  rfl

/-- Two items whose columns narrow to different ids, of which one is empty. -/
def twoNarrowed : List Item := [.ofLink (some ["1", ""]) .null, .ofLink (some ["2"]) .null]

/-- Linked items of which two have one id and one has none. -/
def repeatedItems : List LinkedItem :=
  [⟨"1", none, some "9", []⟩, ⟨"", none, some "9", [⟨"price", some "5", .null⟩]⟩,
    ⟨"2", none, some "9", [⟨"price", some "6", .null⟩]⟩,
    ⟨"1", none, some "9", [⟨"price", some "4", .null⟩]⟩]

theorem aggregate_items_two :
    (∀ item ∈ twoNarrowed, item.Narrowed) ∧
      (Batch.aggregate (m := Id) ⟨twoNarrowed⟩ (Fetch.ofItems repeatedItems)).run.map ([·]) =
        twoNarrowed.map fun item =>
          (Batch.aggregate (m := Id) ⟨[item]⟩ (Fetch.ofItems repeatedItems)).run := by
  have narrowed : ∀ item ∈ twoNarrowed, item.Narrowed := by decide +kernel
  exact ⟨narrowed, aggregate_items narrowed repeatedItems⟩

end Batch

end BoardRollup
