import BoardRollup.Relation.Pass

/-!
# Rollup columns

A rollup column joins and adds up one column of the item's own subitems. Its text is what the
subitems give, and nothing if they give nothing; its value changes only where
something was a number.
-/

namespace BoardRollup

def Contributions.ofSubitems (subitems : List Subitem) (columnId : String) : Contributions :=
  .ofTexts ((subitems.filterMap (·.column? columnId)).map fun c => cellText c.text c.value)

def Column.rollUp (c : Column) (contributions : Contributions) : Column :=
  { c with text := contributions.joined, value := contributions.value.getD c.value }

/-- What the rollup pass makes of a column. -/
def Column.reviseRollup (subitems : List Subitem) (c : Column) : Option Revision := do
  let relation ← c.relation? .rollup
  let target ← relation.target?
  some ⟨c.rollUp (.ofSubitems subitems target.columnId), true⟩

namespace Item

/-- Computes the rollup columns of an item, and counts them. -/
def rollUp (item : Item) : Item × Nat := item.pass (Column.reviseRollup item.subitems)

/-- Normalizes an item on its own: relations to other boards are left as they are. -/
def ofRaw (raw : RawItem) : Item := (copyRaw raw).rollUp.1

end Item

end BoardRollup
