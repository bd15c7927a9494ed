import BoardRollup.Json.Printer
import BoardRollup.Output.Mode
import BoardRollup.Output.Section
import BoardRollup.Relation.Basic

/-!
# Reports on relation settings

What aggregation makes of a settings text: whether it describes a relation, of which
kind, and what the relation reads.
-/

namespace BoardRollup

/-- What aggregation makes of a settings text. -/
structure RelationReport where
  /-- The kind, if the text describes a relation. -/
  kind : Option RelationKind
  target : Option Target
  flagged : List String
  boards : List (String × List String)
  deriving DecidableEq

namespace RelationReport

def ofRelation : Option Relation → RelationReport
  | some r => ⟨some r.kind, r.target?, r.flagged, r.boards⟩
  | none => ⟨none, none, [], []⟩

def ofSettings (settings : String) : RelationReport := ofRelation (Relation.parse settings)

def toJson (report : RelationReport) : Json := .obj (
  [("relation", .bool report.kind.isSome)]
  ++ (report.kind.map fun kind => ("kind", .str kind.phrase)).toList
  ++ (match report.target with
    | some t => [("target_board", .str t.boardId), ("target_column", .str t.columnId)]
    | none => [])
  ++ [("flagged_columns", .ofTexts report.flagged),
    ("displayed_linked_columns", .arr (report.boards.map fun (board, columns) =>
      .obj [("board_id", .str board), ("columns", .ofTexts columns)]))])

/-- The board and the column of the target, with dashes for a missing one. -/
def targetTexts (report : RelationReport) : String × String :=
  match report.target with
  | some t => (t.boardId, t.columnId)
  | none => ("-", "-")

def row (report : RelationReport) : String :=
  match report.kind with
  | none => "none"
  | some kind =>
    let (board, column) := report.targetTexts
    let flagged := if report.flagged = [] then "-" else ",".intercalate report.flagged
    "  ".intercalate [kind.phrase, board, column, flagged]

def sectionLines (report : RelationReport) : List String :=
  Section.heading "Relation" ++
  match report.kind with
  | none => [Section.entry "Kind" "not a relation column"]
  | some kind =>
    let (board, column) := report.targetTexts
    [Section.entry "Kind" kind.phrase, Section.entry "Board" board,
      Section.entry "Column" column]
    ++ if report.flagged = [] then []
      else [Section.entry "Narrowed by" (", ".intercalate report.flagged)]

def render (report : RelationReport) : OutputMode → String
  | .pretty => unlines report.sectionLines
  | .text => unlines [report.row]
  | .json => report.toJson.pretty ++ "\n"

end RelationReport

end BoardRollup
