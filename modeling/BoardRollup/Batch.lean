import BoardRollup.Relation.CrossBoard
import BoardRollup.Relation.Rollup

/-!
# Batches

Items are normalized one by one, and their cross-board columns wait until the linked
items of the whole batch are known. Those are asked for once, or not at all if no column
of the batch refers to any.
-/

namespace BoardRollup

/-- Asks for the linked items with these ids, of which some may not exist. -/
abbrev Fetch (m : Type → Type) := List String → m (List LinkedItem)

def Fetch.ofItems {m : Type → Type} [Monad m] (items : List LinkedItem) : Fetch m :=
  fun ids => return LinkedItem.select items ids

/-- The index of the linked items with these ids, from at most one request. -/
def LinkedIndex.resolve {m : Type → Type} [Monad m] (fetch : Fetch m) (ids : List String) :
    m LinkedIndex :=
  if ids = [] then pure .empty else return .ofItems (← fetch ids)

/-- Normalized items whose cross-board columns are still to be computed. -/
structure Batch where
  items : List Item
  deriving DecidableEq

namespace Batch

def ofRaw (raw : List RawItem) : Batch := ⟨raw.map .ofRaw⟩

def size (batch : Batch) : Nat := batch.items.length

/-- The ids that the columns of the batch refer to, ascending and each once. -/
def linkedIds (batch : Batch) : List String :=
  IdSet.ofList (batch.items.flatMap fun item => item.columns.flatMap Column.references)

def gather (batch : Batch) (index : LinkedIndex) : List Item :=
  batch.items.map fun item => (item.gather index).1

/-- Computes the cross-board columns from what a request returns. If the request fails, so
does the batch, and no item is changed. -/
def aggregate {m : Type → Type} [Monad m] (batch : Batch) (fetch : Fetch m) :
    m (List Item) :=
  return batch.gather (← LinkedIndex.resolve fetch batch.linkedIds)

end Batch

end BoardRollup
