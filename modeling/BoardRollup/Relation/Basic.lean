import BoardRollup.Json.Reader
import BoardRollup.Json.Scalar

/-!
# Relation settings

A column takes its text and value from other records if its settings text is a JSON object
with two fields: `relation_column`, whose keys say which relation it is, and
`displayed_linked_columns`, which lists columns by board. A `subelementos` key that
counts as true makes it a rollup of the item's own subitems; any other key makes
it a relation to items of another board. Of the boards only the first, and of its
columns only the first, is ever read.
-/

namespace BoardRollup

/-- Where a relation column finds its source records. -/
inductive RelationKind where
  /-- Among the item's own subitems. -/
  | rollup
  /-- Among the items of another board, by id. -/
  | crossBoard
  deriving DecidableEq

/-- What the settings of a relation column say. -/
structure Relation where
  kind : RelationKind
  /-- The fields of `relation_column`. -/
  flags : List (String × Json)
  /-- The column ids that are displayed, by board. -/
  boards : List (String × List String)
  deriving DecidableEq

/-- The column of a board that a relation reads. -/
structure Target where
  boardId : String
  columnId : String
  deriving DecidableEq

/-- A value that counts as true. -/
def Json.isTruthy : Json → Bool
  | .null => false
  | .bool b => b
  | .num n => !n.isZero
  | .str s => s ≠ ""
  | .arr _ | .obj _ => true

def RelationKind.phrase : RelationKind → String
  | .rollup => "rollup"
  | .crossBoard => "cross-board"

namespace Relation

def rollupKey : String := "subelementos"

/-- The kind that the fields of `relation_column` give. -/
def kindOf (flags : List (String × Json)) : Option RelationKind :=
  if ((flags.lookup rollupKey).map Json.isTruthy).getD false then some .rollup
  else if flags.any (·.1 ≠ rollupKey) then some .crossBoard
  else none

def ofFields (root : List (String × Json)) : Option Relation :=
  match root.lookup "displayed_linked_columns" with
  | some (.obj displayed) =>
    let flags := match root.lookup "relation_column" with
      | some (.obj flags) => flags
      | _ => []
    (kindOf flags).map fun kind =>
      { kind, flags,
        boards := displayed.map fun (board, columns) =>
          (board, (columns.items?.getD []).filterMap Json.asId) }
  | _ => none

def parse (settings : String) : Option Relation :=
  match Json.read? settings with
  | some (.obj root) => ofFields root
  | _ => none

def ofSettings (settings : Option String) : Option Relation := settings.bind parse

/-- The first column of the first board. -/
def target? (r : Relation) : Option Target :=
  match r.boards with
  | (boardId, columnId :: _) :: _ => some ⟨boardId, columnId⟩
  | _ => none

/-- The keys of `relation_column` that are exactly `true`. -/
def flagged (r : Relation) : List String :=
  (r.flags.filter (·.2 = .bool true)).map Prod.fst

@[simp] theorem ofSettings_none : ofSettings none = none := rfl

@[simp] theorem ofSettings_some (s : String) : ofSettings (some s) = parse s := rfl

end Relation

end BoardRollup
