import BoardRollup.Toml.Reader

/-!
# Settings

Two settings files may stand beside the tool: one of the project, which says where linked
items come from, and one of the user, which says in what form results come. What
they leave out has a default, and what they say besides is skipped; a value of a
wrong type makes a file malformed.
-/

namespace BoardRollup

structure FetchSettings where
  endpoint : Option String
  /-- A file that holds linked items. -/
  linkedItems : Option String
  /-- The environment variable that holds the token for requests. -/
  tokenVariable : String
  timeoutSeconds : Nat
  deriving DecidableEq

namespace FetchSettings

def default : FetchSettings := ⟨none, none, "TALLY_API_TOKEN", 30⟩

def assign (settings : FetchSettings) : String × Toml → Option FetchSettings
  | ("endpoint", v) => match v with
    | .text s => some { settings with endpoint := some s }
    | _ => none
  | ("linked_items", v) => match v with
    | .text s => some { settings with linkedItems := some s }
    | _ => none
  | ("token_env", v) => match v with
    | .text s => some { settings with tokenVariable := s }
    | _ => none
  | ("timeout_secs", v) => match v with
    | .integer n => if 0 ≤ n then some { settings with timeoutSeconds := n.toNat } else none
    | _ => none
  | _ => some settings

def fieldNames : List String := ["endpoint", "linked_items", "token_env", "timeout_secs"]

/-- Reads the settings from a table, or from an array of the fields in order. A moment has
no fields. -/
def ofToml : Toml → Option FetchSettings
  | .table _ fields => fields.foldlM assign default
  | .array items => (fieldNames.zip items).foldlM assign default
  | .moment => some default
  | _ => none

end FetchSettings

structure ProjectSettings where
  fetch : FetchSettings
  deriving DecidableEq

structure UserSettings where
  /-- The output mode that is asked for, as it is written. -/
  output : Option String
  deriving DecidableEq

namespace ProjectSettings

def default : ProjectSettings := ⟨.default⟩

def parse (text : String) : Option ProjectSettings := do
  match (← Toml.read? text).lookup "fetch" with
  | none => some default
  | some v => (FetchSettings.ofToml v).map ProjectSettings.mk

end ProjectSettings

namespace UserSettings

def default : UserSettings := ⟨none⟩

def parse (text : String) : Option UserSettings := do
  match (← Toml.read? text).lookup "output" with
  | none => some default
  | some (.text s) => some ⟨some s⟩
  | some _ => none

end UserSettings

end BoardRollup
