import BoardRollup.Item.Basic
import BoardRollup.Relation.Basic
import BoardRollup.Relation.Contributions

/-!
# Passes over relation columns

A pass goes through the columns of an item once and revises some of them. Each revised
column hands its new text on to the mappable value of its id, in the order of the
columns, so of two columns with one id the later decides.
-/

namespace BoardRollup

/-- What a pass makes of a column that it revises. -/
structure Revision where
  column : Column
  /-- Whether the column was computed from source records. -/
  recomputed : Bool
  deriving DecidableEq

/-- What a pass makes of columns: the columns and mappable values after it, and how many
columns it computed from source records. -/
structure Pass where
  columns : List Column
  mappables : Mappables
  recomputed : Nat
  deriving DecidableEq

namespace Pass

/-- Goes through columns from the left. -/
def run (revise : Column → Option Revision) : List Column → Mappables → Pass
  | [], mappables => ⟨[], mappables, 0⟩
  | column :: rest, mappables =>
    match revise column with
    | none =>
      let after := run revise rest mappables
      { after with columns := column :: after.columns }
    | some r =>
      let after := run revise rest (mappables.refresh r.column.id r.column.text)
      { after with
        columns := r.column :: after.columns
        recomputed := (if r.recomputed then 1 else 0) + after.recomputed }

end Pass

namespace Item

/-- Goes through the columns of an item, giving the item after it and how many columns
were computed from source records. -/
def pass (item : Item) (revise : Column → Option Revision) : Item × Nat :=
  let after := Pass.run revise item.columns item.mappables
  ({ item with columns := after.columns, mappables := after.mappables }, after.recomputed)

end Item

def Column.relation? (c : Column) (kind : RelationKind) : Option Relation :=
  (Relation.ofSettings c.settings).filter (·.kind = kind)

end BoardRollup
