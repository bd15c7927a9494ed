import BoardRollup.Column.Raw
import BoardRollup.Column.Contents

/-!
# Mappable values

Each column id of an item has one value for consumers that work by id: the object
that the column value holds, overlaid with the texts and links of the column, or
the text that the column shows, or the JSON it holds. An item's mappable values
stand in the order of their ids.
-/

namespace BoardRollup

inductive Mappable where
  | object (fields : List (String × Json))
  | text (s : String)
  | null
  /-- A number, a boolean or an array that the column value holds. -/
  | other (v : Json)
  deriving DecidableEq

/-- The mappable values of an item under their column ids. -/
abbrev Mappables := List (String × Mappable)

/-- A column value that counts as nothing. -/
def Json.isFalsy : Json → Bool
  | .null => true
  | .bool b => !b
  | .str s => s = ""
  | .num n => n.isZero
  | .arr _ | .obj _ => false

namespace Mappable

/-- Overlays an object with what a column shows. -/
def overlay (raw : RawColumn) (fields : List (String × Json)) : List (String × Json) :=
  let fields := match raw.text with
    | some own => Fields.set "text" (.str own) fields
    | none => fields
  let fields := match raw.displayValue with
    | some display => Fields.set "display_value" (.str display) fields
    | none => fields
  match raw.linkedIds with
  | some ids => Fields.set "linked_item_ids" (.ofTexts ids) fields
  | none => fields

/-- The text that a column shows: its own, or else its display value. -/
def shown? (raw : RawColumn) : Option String := raw.text.or raw.displayValue

/-- The value of a column that holds no links of its own. -/
def ofContents (raw : RawColumn) : Mappable :=
  match Contents.ofValue raw.value with
  | .object fields => .object (overlay raw fields)
  | .text s | .plain s => .text ((shown? raw).getD s)
  | .other .null | .absent =>
    match shown? raw with
    | some s => .text s
    | none => .null
  | .other v =>
    match shown? raw with
    | some s => .text s
    | none => .other v

/-- The value of a column. Links beside a value that counts as nothing make an object
of their own. -/
def ofRaw (raw : RawColumn) : Mappable :=
  match raw.value.isFalsy, raw.linkedIds with
  | true, some ids =>
    .object [("linked_item_ids", .ofTexts ids), ("text", .ofText? (shown? raw))]
  | _, _ => ofContents raw

/-- Writes the text of an object; other values stay as they are. -/
def refresh (text : Option String) : Mappable → Mappable
  | .object fields => .object (Fields.set "text" (.ofText? text) fields)
  | m => m

def toJson : Mappable → Json
  | .object fields => .obj fields
  | .text s => .str s
  | .null => .null
  | .other v => v

def ofJson : Json → Mappable
  | .obj fields => .object fields
  | .str s => .text s
  | .null => .null
  | v => .other v

@[simp] theorem refresh_text (text : Option String) (s : String) :
    refresh text (.text s) = .text s := rfl

@[simp] theorem refresh_null (text : Option String) : refresh text .null = .null := rfl

@[simp] theorem refresh_other (text : Option String) (v : Json) :
    refresh text (.other v) = .other v := rfl

/-- The text that is written last stands. -/
theorem refresh_refresh (first second : Option String) (m : Mappable) :
    refresh second (refresh first m) = refresh second m := by
  cases m with
  | object fields => simp [refresh, Fields.set_set]
  | text s => rfl
  | null => rfl
  | other v => rfl

end Mappable

namespace Mappables

/-- The values of a list of columns; a repeated id keeps its last column. -/
def ofRaw (columns : List RawColumn) : Mappables :=
  Fields.sorted (columns.map fun c => (c.id, Mappable.ofRaw c))

def refresh (id : String) (text : Option String) (mappables : Mappables) : Mappables :=
  Fields.update id (Mappable.refresh text) mappables

def toJson (mappables : Mappables) : Json :=
  .obj (mappables.map fun (id, m) => (id, m.toJson))

def ofFields (fields : List (String × Json)) : Mappables :=
  Fields.sorted (fields.map fun (id, v) => (id, Mappable.ofJson v))

theorem refresh_refresh (mappables : Mappables) (id : String) (first second : Option String) :
    (mappables.refresh id first).refresh id second = mappables.refresh id second := by
  rw [refresh, refresh, Fields.update_update]
  congr 1
  exact funext (Mappable.refresh_refresh first second)

theorem refresh_comm {id other : String} (h : id ≠ other) (mappables : Mappables)
    (text text' : Option String) :
    (mappables.refresh other text').refresh id text =
      (mappables.refresh id text).refresh other text' :=
  Fields.update_comm h mappables _ _

end Mappables

end BoardRollup
