import BoardRollup.Item.Basic

/-!
# Normalized items as JSON

The form in which normalized items are written out and read back. The fields of the header
stand beside the other fields of a record, an absent parent is left out, and
a mappable value is written as what it is.
-/

namespace BoardRollup

namespace Subitem

def toJson (s : Subitem) : Json := .obj (s.header.toFields ++
  [("column_values", .arr (s.columns.map Column.toJson)),
    ("mappable_column_values", s.mappables.toJson)])

def schema : Schema Subitem where
  name := "NormalizedSubitem"
  empty := ⟨.empty, [], []⟩
  required := ["column_values", "mappable_column_values"]
  fields := [
    ("column_values", fun v s => do
      return { s with columns := ← Field.strictList Column.read v }),
    ("mappable_column_values", fun v s => do
      return { s with mappables := .ofFields (← Field.map v) })]

end Subitem

namespace ParentItem

def toJson (p : ParentItem) : Json := .obj (p.header.toFields ++
  [("column_values", .arr (p.columns.map Column.toJson))])

def schema : Schema ParentItem where
  name := "NormalizedParent"
  empty := ⟨.empty, []⟩
  required := ["column_values"]
  fields := [
    ("column_values", fun v p => do
      return { p with columns := ← Field.strictList Column.read v })]

end ParentItem

/-- Reads a record whose header fields stand beside its own. The header is read after
all other fields. -/
def Schema.readHeaded {ρ : Type} (schema : Schema ρ) (withHeader : ρ → ItemHeader → ρ) :
    Json → Except Fault ρ
  | .obj fields => do
    let record ← schema.ofFields fields
    return withHeader record (← ItemHeader.schema.ofFields fields)
  | v => .error (.wrongKind v (.record schema.name))

def Subitem.read (v : Json) : Except Fault Subitem :=
  Subitem.schema.readHeaded (fun s header => { s with header }) v

def ParentItem.read (v : Json) : Except Fault ParentItem :=
  ParentItem.schema.readHeaded (fun p header => { p with header }) v

namespace Item

def toJson (item : Item) : Json := .obj (item.header.toFields ++
  [("email", item.email), ("column_values", .arr (item.columns.map Column.toJson)),
    ("mappable_column_values", item.mappables.toJson), ("assets", .arr item.assets)]
  ++ (match item.parent with
    | some parent => [("parent_item", parent.toJson)]
    | none => [])
  ++ [("subitems", .arr (item.subitems.map Subitem.toJson))])

def schema : Schema Item where
  name := "NormalizedItem"
  empty := ⟨.empty, .null, [], [], [], none, []⟩
  required := ["column_values", "mappable_column_values"]
  fields := [
    ("email", fun v i => .ok { i with email := v }),
    ("column_values", fun v i => do
      return { i with columns := ← Field.strictList Column.read v }),
    ("mappable_column_values", fun v i => do
      return { i with mappables := .ofFields (← Field.map v) }),
    ("assets", fun v i => do return { i with assets := ← Field.strictList .ok v }),
    ("parent_item", fun v i => do
      return { i with parent := ← Field.nullable ParentItem.read v }),
    ("subitems", fun v i => do
      return { i with subitems := ← Field.strictList Subitem.read v })]

def read (v : Json) : Except Fault Item :=
  schema.readHeaded (fun i header => { i with header }) v

end Item

end BoardRollup
