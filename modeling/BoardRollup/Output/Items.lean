import BoardRollup.Item.Wire
import BoardRollup.Output.Mode
import BoardRollup.Output.Section

/-!
# Items in the output

A list of items in each of the three forms. As rows, an item takes one row and each of
its columns another; in sections, a column is labelled by its title; as JSON, the
list is one array with each item written over several lines.
-/

namespace BoardRollup

/-- What a column shows in one line: its text, or else the string it holds. -/
def Column.summary (c : Column) : String :=
  match c.text.filter (· ≠ ""), c.value with
  | some text, _ => text
  | none, .str raw => if raw = "" then "-" else raw
  | none, _ => "-"

namespace Item

def rows (item : Item) : List String :=
  (item.header.id ++ "  " ++ item.header.name.getD "-")
    :: item.columns.map fun c => "  " ++ c.id ++ "  " ++ c.summary

def sectionLines (item : Item) : List String :=
  let entry (label : String) (value : Option String) : List String :=
    (value.map (Section.entry label)).toList
  Section.heading (item.header.name.getD "(unnamed)" ++ " [" ++ item.header.id ++ "]")
  ++ entry "Board" ((item.header.board.field? "id").bind Json.asId)
  ++ entry "Group" ((item.header.group.field? "title").bind Json.asId)
  ++ entry "Parent" (item.parent.map (·.header.id))
  ++ entry "Subitems"
    (if item.subitems = [] then none else some (Fault.countText item.subitems.length))
  ++ item.columns.map (fun c => Section.entry (c.title.getD c.id) c.summary)
  ++ [""]

def render (item : Item) : OutputMode → String
  | .pretty => unlines item.sectionLines
  | .text => unlines item.rows
  | .json => item.toJson.pretty ++ "\n"

end Item

def renderItems (mode : OutputMode) (items : List Item) : String :=
  match mode, items with
  | .json, [] => "[]\n"
  | .json, items =>
    "[\n" ++ ",\n".intercalate (items.map fun item => item.toJson.pretty) ++ "\n]\n"
  | _, items => String.join (items.map (·.render mode))

end BoardRollup
