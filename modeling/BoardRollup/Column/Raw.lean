import BoardRollup.Record.Schema

/-!
# Columns as documents give them

One entry of an item's column list, with the definition of the column if the
document has it. Every field may be missing or of a wrong kind.
-/

namespace BoardRollup

/-- What a document says of a column itself. -/
structure ColumnDefinition where
  title : Option String
  /-- The settings text of the column. -/
  settings : Option String
  deriving DecidableEq

structure RawColumn where
  id : String
  /-- Mostly a string that holds JSON of its own. -/
  value : Json
  text : Option String
  displayValue : Option String
  linkedIds : Option (List String)
  definition : Option ColumnDefinition
  deriving DecidableEq

namespace ColumnDefinition

def schema : Schema ColumnDefinition where
  name := "RawColumn"
  empty := ⟨none, none⟩
  required := []
  fields := [
    ("title", fun v d => .ok { d with title := v.asText }),
    ("settings_str", fun v d => .ok { d with settings := v.asText })]

def read (v : Json) : Except Fault ColumnDefinition := schema.read v

end ColumnDefinition

namespace RawColumn

def empty : RawColumn := ⟨"", .null, none, none, none, none⟩

def schema : Schema RawColumn where
  name := "RawColumnValue"
  empty := empty
  required := []
  fields := [
    ("id", fun v c => .ok { c with id := Field.id v }),
    ("value", fun v c => .ok { c with value := v }),
    ("text", fun v c => .ok { c with text := v.asText }),
    ("display_value", fun v c => .ok { c with displayValue := v.asText }),
    ("linked_item_ids", fun v c => .ok { c with linkedIds := Field.ids? v }),
    ("column", fun v c => .ok { c with definition := Field.lenient ColumnDefinition.read v })]

def read (v : Json) : Except Fault RawColumn := schema.read v

def title (c : RawColumn) : Option String := c.definition.bind (·.title)

def settings (c : RawColumn) : Option String := c.definition.bind (·.settings)

end RawColumn

end BoardRollup
