import BoardRollup.Column.Raw
import BoardRollup.Item.Header

/-!
# Items as documents give them

Items are read leniently: ids and texts take any scalar, what is no list counts as an
empty one, and a parent that cannot be read is dropped. Only the entries of the
column and subitem lists are insisted on, so whether a value is an item is a
matter of its structure.
-/

namespace BoardRollup

structure RawItem where
  header : ItemHeader
  email : Json
  columns : List RawColumn
  assets : List Json
  parent : Option RawItem
  subitems : List RawItem

namespace RawItem

def empty : RawItem := ⟨.empty, .null, [], [], none, []⟩

def withHeader (item : RawItem) (f : ItemHeader → ItemHeader) : RawItem :=
  { item with header := f item.header }

/-- The fields of an item, given a reader for the items inside it. -/
def schema (read : Json → Except Fault RawItem) : Schema RawItem where
  name := "RawItem"
  empty := empty
  required := []
  fields := [
    ("id", fun v i => .ok (i.withHeader fun h => { h with id := Field.id v })),
    ("name", fun v i => .ok (i.withHeader fun h => { h with name := v.asText })),
    ("email", fun v i => .ok { i with email := v }),
    ("created_at", fun v i => .ok (i.withHeader fun h => { h with createdAt := v })),
    ("updated_at", fun v i => .ok (i.withHeader fun h => { h with updatedAt := v })),
    ("state", fun v i => .ok (i.withHeader fun h => { h with state := v })),
    ("board", fun v i => .ok (i.withHeader fun h => { h with board := v })),
    ("creator_id", fun v i => .ok (i.withHeader fun h => { h with creatorId := v })),
    ("group", fun v i => .ok (i.withHeader fun h => { h with group := v })),
    ("column_values", fun v i => do return { i with columns := ← Field.list RawColumn.read v }),
    ("assets", fun v i => .ok { i with assets := v.items?.getD [] }),
    ("parent_item", fun v i => .ok { i with parent := Field.lenient read v }),
    ("subitems", fun v i => do return { i with subitems := ← Field.list read v })]

def readWithin : Nat → Json → Except Fault RawItem
  | 0, v => .error (.wrongKind v (.record "RawItem"))
  | depth + 1, v => (schema (readWithin depth)).read v

def read (v : Json) : Except Fault RawItem := readWithin v.depth v

end RawItem

end BoardRollup
