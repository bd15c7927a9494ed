import BoardRollup.Record.Fault
import BoardRollup.Json.Scalar

/-!
# Reading records

A schema names the fields of a record in order and says how each one is read into it.
A record is read from an object, whose fields are visited in the order of the document and
whose other fields are skipped, or from an array of the fields in the order of the
schema. The first field that cannot be read decides the fault. A field that is absent
keeps its value in the empty record; the required fields come first in a schema.

The field readers of this module are the ways in which records of this library
read a field: some take whatever is there, some drop what does not fit, and some
insist.
-/

namespace BoardRollup

structure Schema (ρ : Type) where
  /-- The name of the record in messages. -/
  name : String
  /-- The record whose fields are all absent. -/
  empty : ρ
  /-- The leading fields that must be there. -/
  required : List String
  /-- The fields in order, each with what a value does to the record. -/
  fields : List (String × (Json → ρ → Except Fault ρ))

namespace Schema

variable {ρ : Type}

def assign (schema : Schema ρ) (record : ρ) (field : String × Json) : Except Fault ρ :=
  match schema.fields.lookup field.1 with
  | some put => put field.2 record
  | none => .ok record

def ofFields (schema : Schema ρ) (fields : List (String × Json)) : Except Fault ρ := do
  let record ← fields.foldlM schema.assign schema.empty
  match schema.required.find? fun name => (fields.lookup name).isNone with
  | some name => .error (.missingField name)
  | none => .ok record

/-- Reads a record from its fields in the order of the schema. -/
def ofEntries (schema : Schema ρ) (values : List Json) : Except Fault ρ := do
  let record ← ((Fields.keys schema.fields).zip values).foldlM schema.assign schema.empty
  if values.length < schema.required.length then
    .error (.tooFew values.length schema.name schema.fields.length)
  else if schema.fields.length < values.length then .error (.tooMany values.length)
  else .ok record

def read (schema : Schema ρ) : Json → Except Fault ρ
  | .obj fields => schema.ofFields fields
  | .arr values => schema.ofEntries values
  | v => .error (.wrongKind v (.record schema.name))

end Schema

namespace Field

variable {α : Type}

/-- An id; what gives none counts as the empty id. -/
def id (v : Json) : String := v.asId.getD ""

/-- The ids of an array, without the entries that give none. -/
def ids? (v : Json) : Option (List String) := v.items?.map (·.filterMap Json.asId)

/-- A nested record, dropped if it cannot be read. -/
def lenient (read : Json → Except Fault α) (v : Json) : Option α := (read v).toOption

/-- A list of records; what is no array counts as empty. -/
def list (read : Json → Except Fault α) : Json → Except Fault (List α)
  | .arr items => items.mapM read
  | _ => .ok []

def text : Json → Except Fault String
  | .str s => .ok s
  | v => .error (.wrongKind v .text)

def strictList (read : Json → Except Fault α) : Json → Except Fault (List α)
  | .arr items => items.mapM read
  | v => .error (.wrongKind v .sequence)

def map : Json → Except Fault (List (String × Json))
  | .obj fields => .ok fields
  | v => .error (.wrongKind v .map)

def nullable (read : Json → Except Fault α) : Json → Except Fault (Option α)
  | .null => .ok none
  | v => some <$> read v

end Field

end BoardRollup
