import BoardRollup.Text.Blank

/-!
# Output modes

Results come in sections for people, in rows for pipes, or as JSON. The mode is
settled by the command line, the environment and the user's settings, in this order, and
where none of them asks for one by whether there is a terminal. While settings cannot
be read, a stricter reading of the first two decides.
-/

namespace BoardRollup

inductive OutputMode where
  | pretty
  | text
  | json
  deriving DecidableEq

namespace OutputMode

def name : OutputMode → String
  | pretty => "pretty"
  | text => "text"
  | json => "json"

/-- The mode with exactly this name. -/
def ofName? : String → Option OutputMode
  | "pretty" => some pretty
  | "text" => some text
  | "json" => some json
  | _ => none

def lower (s : String) : String := .ofList (s.toList.map Char.toLower)

/-- The mode that a setting asks for: its name in any case between blanks, or one of two
older names. -/
def ofSetting? (raw : String) : Option OutputMode :=
  match lower (trimText raw) with
  | "human" => some pretty
  | "table" => some text
  | name => ofName? name

/-- What decides the mode, apart from the settings of the user. -/
structure Request where
  /-- The mode that the command line asks for. -/
  format : Option OutputMode
  /-- Whether the command line asks for JSON in the short way. -/
  json : Bool
  /-- The mode that the environment asks for. -/
  environment : Option String
  /-- Whether results go to a terminal. -/
  terminal : Bool
  deriving DecidableEq

def unasked (terminal : Bool) : OutputMode := if terminal then pretty else text

/-- The mode where the settings of the user could be read. -/
def settle (request : Request) (userOutput : Option String) : OutputMode :=
  match request.format with
  | some mode => mode
  | none =>
    if request.json then json
    else ((request.environment.bind ofSetting?).or (userOutput.bind ofSetting?)).getD
      (unasked request.terminal)

/-- The mode where settings could not be read. -/
def settleWithoutSettings (request : Request) : OutputMode :=
  match request.format with
  | some mode => mode
  | none =>
    if request.json then json
    else (request.environment.bind fun raw => ofName? (lower raw)).getD
      (unasked request.terminal)

@[simp] theorem ofName?_name (mode : OutputMode) : ofName? mode.name = some mode := by
  cases mode <;> rfl

end OutputMode

end BoardRollup
