import BoardRollup.Column.Raw

/-!
# Normalized columns

A column as the output shows it: the fields of its raw entry, with the title and
the settings text of its definition. Only aggregation changes a column, and only
its text and its value.
-/

namespace BoardRollup

structure Column where
  id : String
  value : Json
  text : Option String
  displayValue : Option String
  title : Option String
  /-- The settings text, as the document has it. -/
  settings : Option String
  linkedIds : Option (List String)
  deriving DecidableEq

namespace Column

def ofRaw (raw : RawColumn) : Column where
  id := raw.id
  value := raw.value
  text := raw.text
  displayValue := raw.displayValue
  title := raw.title
  settings := raw.settings
  linkedIds := raw.linkedIds

/-- The first column with an id. -/
def find? (columns : List Column) (id : String) : Option Column :=
  columns.find? (·.id = id)

def toJson (c : Column) : Json := .obj (
  [("id", .str c.id), ("value", c.value), ("text", .ofText? c.text),
    ("display_value", .ofText? c.displayValue), ("title", .ofText? c.title),
    ("additional_info", .ofText? c.settings)]
  ++ match c.linkedIds with
    | some ids => [("linked_item_ids", .ofTexts ids)]
    | none => [])

def schema : Schema Column where
  name := "ColumnValue"
  empty := ofRaw .empty
  required := ["id"]
  fields := [
    ("id", fun v c => do return { c with id := ← Field.text v }),
    ("value", fun v c => .ok { c with value := v }),
    ("text", fun v c => do return { c with text := ← Field.nullable Field.text v }),
    ("display_value", fun v c => do
      return { c with displayValue := ← Field.nullable Field.text v }),
    ("title", fun v c => do return { c with title := ← Field.nullable Field.text v }),
    ("additional_info", fun v c => do
      return { c with settings := ← Field.nullable Field.text v }),
    ("linked_item_ids", fun v c => do
      return { c with linkedIds := ← Field.nullable (Field.strictList Field.text) v })]

def read (v : Json) : Except Fault Column := schema.read v

section
variable (raw : RawColumn)

@[simp] theorem ofRaw_id : (ofRaw raw).id = raw.id := rfl
@[simp] theorem ofRaw_value : (ofRaw raw).value = raw.value := rfl
@[simp] theorem ofRaw_text : (ofRaw raw).text = raw.text := rfl
@[simp] theorem ofRaw_displayValue : (ofRaw raw).displayValue = raw.displayValue := rfl
@[simp] theorem ofRaw_settings : (ofRaw raw).settings = raw.settings := rfl
@[simp] theorem ofRaw_linkedIds : (ofRaw raw).linkedIds = raw.linkedIds := rfl

end

end Column

end BoardRollup
