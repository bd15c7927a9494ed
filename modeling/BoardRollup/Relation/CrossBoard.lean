import BoardRollup.Linked.Index
import BoardRollup.Linked.References
import BoardRollup.Relation.Pass

/-!
# Columns that read another board

A cross-board column joins and adds up one column of linked items. The items are those
that the flagged columns of the item refer to, in order and each once, or all
indexed items if those columns refer to none; of them only the items of the target
board count. References are read as they were before the pass.

A column without a text first takes its display value, or the names of its linked
items. If nothing contributes, it keeps that text.
-/

namespace BoardRollup

namespace Column

/-- The names of the indexed items with these ids, without empty ones. -/
def linkedNames (index : LinkedIndex) (ids : List String) : List String :=
  ((ids.filterMap index.get?).filterMap (·.name)).filter (· ≠ "")

/-- The text that stands in for a missing one on a column with links: its display value
unless that is blank, or else the names of the linked items. -/
def standIn? (c : Column) (index : LinkedIndex) : Option String :=
  match c.linkedIds with
  | none | some [] => none
  | some ids =>
    match c.displayValue.filter (!isBlankText ·) with
    | some display => some display
    | none =>
      let names := linkedNames index ids
      if names = [] then none else some (Contributions.separator.intercalate names)

/-- Fills in a text that is missing or empty. -/
def fillText (c : Column) (index : LinkedIndex) : Column :=
  match c.text.filter (· ≠ "") with
  | some _ => c
  | none => { c with text := (c.standIn? index).or c.text }

end Column

/-- The ids that each column id refers to, that of the first column counting. -/
abbrev ReferenceTable := List (String × List String)

def ReferenceTable.ofColumns (columns : List Column) : ReferenceTable :=
  columns.map fun c => (c.id, c.references)

/-- Keeps the first of equal ids. -/
def dropRepeats (ids : List String) : List String :=
  ids.foldl (fun seen id => if seen.contains id then seen else seen ++ [id]) []

namespace Relation

/-- The ids that the flagged columns refer to, in order and each once. -/
def narrowedIds (r : Relation) (references : ReferenceTable) : List String :=
  dropRepeats (r.flagged.flatMap fun id => (references.lookup id).getD [])

/-- The ids of the items that a relation reads. -/
def candidateIds (r : Relation) (references : ReferenceTable) (index : LinkedIndex) :
    List String :=
  let narrowed := r.narrowedIds references
  if narrowed = [] then index.ids else narrowed

end Relation

/-- The cell of a linked item that a target names, if the item is on its board. -/
def Target.cell? (target : Target) (item : LinkedItem) : Option LinkedCell :=
  if item.boardId = target.boardId then item.cell? target.columnId else none

/-- What the indexed items with these ids contribute to a target. -/
def Contributions.ofLinked (index : LinkedIndex) (target : Target) (ids : List String) :
    Contributions :=
  .ofTexts (((ids.filterMap index.get?).filterMap target.cell?).map fun cell =>
    cellText cell.text cell.value)

namespace Column

/-- Computes a cross-board column from contributions; what they lack it keeps. -/
def gather (c : Column) (contributions : Contributions) : Column :=
  { c with
    text := contributions.joined.or c.text
    value := contributions.value.getD c.value }

/-- What the cross-board pass makes of a column. -/
def reviseCrossBoard (references : ReferenceTable) (index : LinkedIndex) (c : Column) :
    Option Revision := do
  let relation ← c.relation? .crossBoard
  let filled := c.fillText index
  match relation.target? with
  | none => some ⟨filled, false⟩
  | some target =>
    let ids := relation.candidateIds references index
    some ⟨filled.gather (.ofLinked index target ids), true⟩

end Column

namespace Item

/-- Computes the cross-board columns of an item, and counts those with a target. -/
def gather (item : Item) (index : LinkedIndex) : Item × Nat :=
  item.pass (Column.reviseCrossBoard (.ofColumns item.columns) index)

end Item

end BoardRollup
