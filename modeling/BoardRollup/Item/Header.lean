import BoardRollup.Record.Schema

/-!
# Item headers

The fields that items, subitems and parents share. Apart from the id and the name
they are carried through as the document has them.
-/

namespace BoardRollup

/-- The fields that items, subitems and parents share. -/
structure ItemHeader where
  id : String
  name : Option String
  createdAt : Json
  updatedAt : Json
  state : Json
  board : Json
  creatorId : Json
  group : Json
  deriving DecidableEq

namespace ItemHeader

def empty : ItemHeader := ⟨"", none, .null, .null, .null, .null, .null, .null⟩

/-- The fields of a header in the order of the output. -/
def toFields (h : ItemHeader) : List (String × Json) :=
  [("id", .str h.id), ("name", .ofText? h.name), ("created_at", h.createdAt),
    ("updated_at", h.updatedAt), ("state", h.state), ("board", h.board),
    ("creator_id", h.creatorId), ("group", h.group)]

/-- How a header is read back from the fields of a normalized record. -/
def schema : Schema ItemHeader where
  name := "ItemHeader"
  empty := empty
  required := ["id"]
  fields := [
    ("id", fun v h => do return { h with id := ← Field.text v }),
    ("name", fun v h => do return { h with name := ← Field.nullable Field.text v }),
    ("created_at", fun v h => .ok { h with createdAt := v }),
    ("updated_at", fun v h => .ok { h with updatedAt := v }),
    ("state", fun v h => .ok { h with state := v }),
    ("board", fun v h => .ok { h with board := v }),
    ("creator_id", fun v h => .ok { h with creatorId := v }),
    ("group", fun v h => .ok { h with group := v })]

end ItemHeader

end BoardRollup
