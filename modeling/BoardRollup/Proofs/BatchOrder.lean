import BoardRollup.Proofs.Requests
import Mathlib.Data.List.Sort

/-!
# The order of a batch

The items of a batch are told apart by nothing but their positions. A rearranged batch refers to
the same ids and asks for them in the same order, so that it gets the same answer and
indexes the same linked items; and from one index every item is computed for itself. This
holds of columns that read whatever is indexed, too.
-/

namespace BoardRollup

/-- What stands in a list at these positions, in their order. -/
def arrange {α : Type} (order : List Nat) (xs : List α) : List α :=
  order.filterMap fun i => xs[i]?

section
variable {α β : Type} {order : List Nat}

theorem map_arrange (f : α → β) (order : List Nat) (xs : List α) :
    (arrange order xs).map f = arrange order (xs.map f) := by
  rw [arrange, List.map_filterMap, arrange]
  simp only [List.getElem?_map]

theorem arrange_range (xs : List α) : arrange (List.range xs.length) xs = xs := by
  induction xs with
  | nil => rfl
  | cons x rest ih =>
    rw [List.length_cons, List.range_succ_eq_map, arrange]
    simp only [List.filterMap_cons, List.getElem?_cons_zero, List.filterMap_map]
    exact congrArg (x :: ·) ih

/-- A list with its positions rearranged has the entries that it had. -/
theorem arrange_perm {xs : List α} (h : order.Perm (List.range xs.length)) :
    (arrange order xs).Perm xs := by
  have rearranged : (arrange order xs).Perm (arrange (List.range xs.length) xs) :=
    h.filterMap fun i => xs[i]?
  rwa [arrange_range] at rearranged

end

/-- Sets of ids are one list if they have the same members. -/
theorem IdSet.ofList_congr {ids others : List String} (same : ∀ id, id ∈ ids ↔ id ∈ others) :
    ofList ids = ofList others := by
  refine (ofList_ascending ids).eq_of_mem_iff (ofList_ascending others) fun id => ?_
  rw [mem_ofList, mem_ofList, same id]

namespace Batch

variable {items : List Item} {order : List Nat}

/-- What a batch asks for does not depend on the order of its items. -/
theorem linkedIds_of_perm {others : List Item} (perm : items.Perm others) :
    (Batch.mk items).linkedIds = (Batch.mk others).linkedIds :=
  IdSet.ofList_congr fun _ => (perm.flatMap_right _).mem_iff

/-- From one index the items of a batch are computed each for itself. -/
theorem gather_arranged (order : List Nat) (items : List Item) (index : LinkedIndex) :
    (Batch.mk (arrange order items)).gather index = arrange order ((Batch.mk items).gather index) :=
  map_arrange _ order items

/-- A rearranged batch has the effects of the batch, whatever a request may do, and its items come
out rearranged. -/
theorem aggregate_arranged {m : Type → Type} [Monad m] [LawfulMonad m]
    (h : order.Perm (List.range items.length)) (fetch : Fetch m) :
    (Batch.mk (arrange order items)).aggregate fetch =
      arrange order <$> (Batch.mk items).aggregate fetch := by
  have asked : (Batch.mk (arrange order items)).linkedIds = (Batch.mk items).linkedIds :=
    linkedIds_of_perm (arrange_perm h)
  simp only [aggregate, asked, gather_arranged, map_bind, map_pure]

/-- A rearranged batch of raw items makes the same requests, and fails as the batch does or comes
out as it does but rearranged. -/
theorem aggregate_arrange {ε : Type} {n : Type → Type} [Monad n] [LawfulMonad n]
    (raws : List RawItem) {order : List Nat} (h : order.Perm (List.range raws.length))
    (ask : List String → n (Except ε (List LinkedItem))) (log : List (List String)) :
    ((ofRaw (arrange order raws)).aggregate (Fetch.recorded ask)).run.run log = do
      let (answer, calls) ← ((ofRaw raws).aggregate (Fetch.recorded ask)).run.run log
      return (answer.map (arrange order), calls) := by
  have normalized : order.Perm (List.range (ofRaw raws).items.length) := by
    rwa [ofRaw, List.length_map]
  have arranged : ofRaw (arrange order raws) = ⟨arrange order (ofRaw raws).items⟩ :=
    congrArg Batch.mk (map_arrange Item.ofRaw order raws)
  rw [arranged, aggregate_arranged normalized, ExceptT.run_map, StateT.run_map, map_eq_pure_bind]

/-- Items that refer to items 7 and 5, and between them one whose column reads whatever is
indexed. -/
def threeItems : List RawItem :=
  [{ RawItem.empty with columns := [{ RawColumn.empty with linkedIds := some ["7"] }] },
    { RawItem.empty with columns := [{ RawColumn.empty with
      definition := some ⟨none, some ("\x7b\"relation_column\":\x7b\"link\":true\x7d," ++
        "\"displayed_linked_columns\":\x7b\"9\":[\"price\"]\x7d\x7d")⟩ }] },
    { RawItem.empty with columns := [{ RawColumn.empty with linkedIds := some ["5"] }] }]

/-- Every item that is asked for, with its id for a price. -/
def priced (ids : List String) : List LinkedItem :=
  ids.map fun id => ⟨id, none, some "9", [⟨"price", some id, .null⟩]⟩

/-- The middle item gathers prices in the order of the request, wherever it comes out. -/
theorem aggregate_arrange_three :
    [2, 0, 1].Perm (List.range threeItems.length) ∧
      ((ofRaw (arrange [2, 0, 1] threeItems)).aggregate
        (m := ExceptT String (StateT (List (List String)) Id))
        (Fetch.recorded fun ids => pure (.ok (priced ids)))).run.run [] =
          pure (.ok (arrange [2, 0, 1] ((ofRaw threeItems).gather (.ofItems (priced ["5", "7"])))),
            [["5", "7"]]) := by
  have rearranged : [2, 0, 1].Perm (List.range threeItems.length) := by decide
  have ids : (ofRaw threeItems).linkedIds = ["5", "7"] := by decide +kernel
  have asked : (ofRaw threeItems).linkedIds ≠ [] := by simp [ids]
  refine ⟨rearranged, ?_⟩
  rw [aggregate_arrange threeItems rearranged, aggregate_of_ids _ _ asked,
    Fetch.run_recorded_map, ids]
  rfl

end Batch

end BoardRollup
