import BoardRollup.Failure.Code
import BoardRollup.Item.Raw
import BoardRollup.Linked.Item
import BoardRollup.Json.Reader

/-!
# Envelopes

Where the items of a document are. A document is a list of items, an object with an
`items` list, one item, or the response to a query, whose `data` has the items
in one of several places: asked for by id, by column value, as a further page, or
page by page under boards and their groups.
-/

namespace BoardRollup

/-- Why a document yields no items. -/
inductive InputError where
  | notJson
  /-- The query itself reported errors. -/
  | query (message : String)
  | noItems
  /-- An entry is not an item. -/
  | item (index : Nat) (fault : Fault)
  deriving DecidableEq

namespace Envelope

def page? (page : Json) : Option (List Json) := (page.field? "items").bind Json.items?

def pageUnder? (key : String) (v : Json) : Option (List Json) := (v.field? key).bind page?

/-- The pages of a board: its own, then those of its groups. -/
def boardPages (board : Json) : List (List Json) :=
  let groups := ((board.field? "groups").bind Json.items?).getD []
  (board :: groups).filterMap (pageUnder? "items_page")

/-- The entries in the `data` of a response. -/
def entriesOfData (data : Json) : Option (List Json) :=
  (page? data).or <|
    (pageUnder? "items_page_by_column_values" data).or <|
      (pageUnder? "next_items_page" data).or <|
        match ((data.field? "boards").bind Json.items?).getD [] |>.flatMap boardPages with
        | [] => none
        | pages => some pages.flatten

def errorMessage (error : Json) : String :=
  ((error.field? "message").bind Json.str?).getD error.compact

def errorMessages : Json → String
  | .arr (first :: rest) => "; ".intercalate ((first :: rest).map errorMessage)
  | v => v.compact

/-- The entries of a root object that is no response with data. -/
def entriesOfRoot (root : List (String × Json)) : Except InputError (List Json) :=
  match root.lookup "errors" with
  | some errors => .error (.query (errorMessages errors))
  | none =>
    match root.lookup "items" with
    | some (.arr entries) => .ok entries
    | _ =>
      let item := Fields.swapErase "items" root
      if (item.lookup "id").isSome && (item.lookup "column_values").isSome then
        .ok [.obj item]
      else .error .noItems

def entries : Json → Except InputError (List Json)
  | .arr entries => .ok entries
  | .obj root =>
    match root.lookup "data" with
    | none => entriesOfRoot root
    | some .null => entriesOfRoot (Fields.swapErase "data" root)
    | some data =>
      match entriesOfData data with
      | some entries => .ok entries
      | none => .error .noItems
  | _ => .error .noItems

/-- Reads entries in order; the first that cannot be read decides. -/
def readEntries {α : Type} (read : Json → Except Fault α) (first : Nat) :
    List Json → Except InputError (List α)
  | [] => .ok []
  | entry :: rest =>
    match read entry with
    | .error fault => .error (.item first fault)
    | .ok a => (readEntries read (first + 1) rest).map (a :: ·)

def extract {α : Type} (read : Json → Except Fault α) (document : Json) :
    Except InputError (List α) := do
  readEntries read 0 (← entries document)

def parse {α : Type} (read : Json → Except Fault α) (text : String) :
    Except InputError (List α) :=
  match Json.read? text with
  | some document => extract read document
  | none => .error .notJson

def items (text : String) : Except InputError (List RawItem) := parse RawItem.read text

def linkedItems (text : String) : Except InputError (List LinkedItem) :=
  parse LinkedItem.read text

end Envelope

namespace InputError

/-- What a message says where a text is not JSON. -/
def syntaxDetail : String := "the text does not follow the JSON grammar"

def message : InputError → String
  | .notJson => "input is not valid JSON: " ++ syntaxDetail
  | .query message => "query response reported errors: " ++ message
  | .noItems =>
    "no items found: expected an item array, an `items` field, or a query `data` envelope"
  | .item index fault =>
    "item #" ++ Fault.countText index ++ " is malformed: " ++ fault.message

def code : InputError → ErrorCode
  | .query _ => .queryRejected
  | .notJson | .noItems | .item _ _ => .inputMalformed

end InputError

end BoardRollup
