import BoardRollup.Record.Schema

/-!
# Linked items

Items of other boards as a lookup by id returns them: what relation columns read of
them, and no more. They are read as leniently as raw items.
-/

namespace BoardRollup

structure LinkedCell where
  id : String
  text : Option String
  value : Json
  deriving DecidableEq

structure LinkedItem where
  id : String
  name : Option String
  /-- The id of its board, if the board could be read. -/
  board : Option String
  cells : List LinkedCell
  deriving DecidableEq

namespace LinkedCell

def schema : Schema LinkedCell where
  name := "LinkedColumnValue"
  empty := ⟨"", none, .null⟩
  required := []
  fields := [
    ("id", fun v c => .ok { c with id := Field.id v }),
    ("text", fun v c => .ok { c with text := v.asText }),
    ("value", fun v c => .ok { c with value := v })]

def read (v : Json) : Except Fault LinkedCell := schema.read v

def toJson (c : LinkedCell) : Json :=
  .obj [("id", .str c.id), ("text", .ofText? c.text), ("value", c.value)]

end LinkedCell

namespace LinkedItem

def boardSchema : Schema String where
  name := "BoardRef"
  empty := ""
  required := []
  fields := [("id", fun v _ => .ok (Field.id v))]

def schema : Schema LinkedItem where
  name := "LinkedItem"
  empty := ⟨"", none, none, []⟩
  required := []
  fields := [
    ("id", fun v i => .ok { i with id := Field.id v }),
    ("name", fun v i => .ok { i with name := v.asText }),
    ("board", fun v i => .ok { i with board := Field.lenient boardSchema.read v }),
    ("column_values", fun v i => do return { i with cells := ← Field.list LinkedCell.read v })]

def read (v : Json) : Except Fault LinkedItem := schema.read v

/-- The id of the board, empty if it is not known. -/
def boardId (item : LinkedItem) : String := item.board.getD ""

def cell? (item : LinkedItem) (columnId : String) : Option LinkedCell :=
  item.cells.find? (·.id = columnId)

def toJson (item : LinkedItem) : Json :=
  .obj [("id", .str item.id), ("name", .ofText? item.name),
    ("board", match item.board with
      | some id => .obj [("id", .str id)]
      | none => .null),
    ("column_values", .arr (item.cells.map LinkedCell.toJson))]

end LinkedItem

end BoardRollup
