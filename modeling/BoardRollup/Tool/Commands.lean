import BoardRollup.Batch
import BoardRollup.Failure.Basic
import BoardRollup.Output.Items
import BoardRollup.Relation.Report
import BoardRollup.Settings
import BoardRollup.Tool.Arguments
import BoardRollup.Tool.Host

/-!
# The commands of the tool

A command reads its settings, then its input, then the linked items it needs, and gives
the whole text of its result or the first failure on the way, never both. The
result goes to the standard output with the exit code zero, and a failure to the standard
error with the exit code one.
-/

namespace BoardRollup

namespace Tool

/-- What the tool leaves behind. -/
structure Outcome where
  exitCode : Nat
  stdout : String
  stderr : String
  deriving DecidableEq

abbrev Steps (m : Type → Type) := ExceptT Failure m

/-- The settings that decide where linked items come from and how results look. -/
structure Settings where
  project : ProjectSettings
  user : UserSettings

variable {m : Type → Type} [Monad m]

def fail {α : Type} (cause : Cause) : Steps m α := throw (.ofCause cause)

def standardInput : String := "-"

/-- What a message calls an input. -/
def origin (input : String) : String := if input = standardInput then "stdin" else input

/-- A path seen from a directory. -/
def join (directory path : String) : String :=
  if path.startsWith "/" then path
  else if directory.endsWith "/" then directory ++ path
  else directory ++ "/" ++ path

/-- Reads a settings file; one that is missing leaves everything to the default. -/
def readSettings {α : Type} (host : Host m) (path : String) (default : α)
    (parse : String → Option α) : Steps m α := do
  match ← host.file path with
  | .error (.missing _) => return default
  | .error (.failed detail) => fail (.settingsUnreadable path detail)
  | .ok text =>
    match parse text with
    | some settings => return settings
    | none => fail (.settingsMalformed path "the text is not a well-formed settings file")

def projectSettings (host : Host m) : Steps m ProjectSettings :=
  readSettings host (join host.directory ".tally/config.toml") .default ProjectSettings.parse

def userSettings (host : Host m) : Steps m UserSettings :=
  match host.settingsDirectory with
  | none => return .default
  | some directory =>
    readSettings host (join directory "tally/config.toml") .default UserSettings.parse

def settings (host : Host m) : Steps m Settings := do
  let project ← projectSettings host
  return { project, user := ← userSettings host }

/-- Reads a document from a file or the standard input. -/
def readDocument (host : Host m) (input : String) : Steps m String := do
  match ← if input = standardInput then host.input else host.file input with
  | .ok text => return text
  | .error e => fail (.unreadable (origin input) e.detail)

def readItems (host : Host m) (input : String) : Steps m (List RawItem) := do
  match Envelope.items (← readDocument host input) with
  | .ok items => return items
  | .error e =>
    throw ((Failure.ofCause (.input e)).within ("reading items from " ++ origin input))

/-- Where linked items come from. -/
inductive LinkedSource where
  | file (path : String)
  | endpoint (url : String)
  | nowhere
  deriving DecidableEq

/-- The command line comes before the settings, and in those a file before an endpoint. -/
def linkedSource (directory : String) (settings : FetchSettings) :
    Option SourceOption → LinkedSource
  | some (.linked path) => .file path
  | some (.endpoint url) => .endpoint url
  | none =>
    match settings.linkedItems, settings.endpoint with
    | some path, _ => .file (join directory path)
    | none, some url => .endpoint url
    | none, none => .nowhere

def readLinked (host : Host m) (path : String) : Steps m (List LinkedItem) := do
  match ← host.file path with
  | .error e => fail (.linkedUnreadable path e.detail)
  | .ok text =>
    match Envelope.linkedItems text with
    | .ok items => return items
    | .error e => fail (.linkedMalformed path e)

def itemsQuery : String :=
  .ofList ("query ($ids: [ID!]) ".toList ++ ['\x7b']
    ++ " items(ids: $ids) ".toList ++ ['\x7b'] ++ " id name board ".toList ++ ['\x7b']
    ++ " id ".toList ++ ['\x7d'] ++ " column_values ".toList ++ ['\x7b']
    ++ " id text value ".toList ++ ['\x7d', ' ', '\x7d', ' ', '\x7d'])

def requestBody (ids : List String) : Json :=
  .obj [("query", .str itemsQuery), ("variables", .obj [("ids", .ofTexts ids)])]

def fetchFrom (host : Host m) (settings : FetchSettings) (url : String) :
    Fetch (Steps m) := fun ids => do
  let token := (← host.environment settings.tokenVariable).filter (· ≠ "")
  match ← host.post ⟨url, token, settings.timeoutSeconds, (requestBody ids).compact⟩ with
  | .error detail => fail (.transport url detail)
  | .ok reply =>
    if 400 ≤ reply.status then fail (.status url reply.status)
    else match Json.read? reply.body with
      | none => fail (.undecodable url InputError.syntaxDetail)
      | some document =>
        match Envelope.extract LinkedItem.read document with
        | .ok items => return items
        | .error e => fail (.rejected e)

/-- A source of linked items, opened: a file is read before anything is asked for. -/
def openSource (host : Host m) (settings : FetchSettings) :
    LinkedSource → Steps m (Fetch (Steps m))
  | .file path => do
    let items ← readLinked host path
    return .ofItems items
  | .endpoint url => return fetchFrom host settings url
  | .nowhere => return fun _ => return []

def result (host : Host m) (settings : Settings) (mode : OutputMode) :
    Command → Steps m String
  | .normalize input => do
    return renderItems mode (Batch.ofRaw (← readItems host input)).items
  | .run input source => do
    let batch := Batch.ofRaw (← readItems host input)
    let fetch := settings.project.fetch
    let ask ← openSource host fetch (linkedSource host.directory fetch source)
    return renderItems mode (← batch.aggregate ask)
  | .relation text => do
    let text ← if text = standardInput then readDocument host text else pure text
    return (RelationReport.ofSettings (trimText text)).render mode

/-- What a result or a failure leaves behind. -/
def Outcome.ofResult (mode : OutputMode) : Except Failure String → Outcome
  | .ok text => ⟨0, text, ""⟩
  | .error failure => ⟨1, "", failure.render mode⟩

def invoke (host : Host m) (invocation : Invocation) : m Outcome := do
  let request : OutputMode.Request :=
    ⟨invocation.format, invocation.json, ← host.environment "FORMAT", host.terminal⟩
  match ← (settings host).run with
  | .error failure =>
    return .ofResult (OutputMode.settleWithoutSettings request) (.error failure)
  | .ok settings =>
    let mode := OutputMode.settle request settings.user.output
    return .ofResult mode (← (result host settings mode invocation.command).run)

def usage : String := unlines [
  "Usage: tl [OPTIONS] <COMMAND>",
  "",
  "Commands:",
  "  normalize [INPUT]    Normalize items without resolving linked items",
  "  run [INPUT]          Normalize items and aggregate relation columns",
  "      --linked <FILE>    File of linked items",
  "      --endpoint <URL>   Endpoint to fetch linked items from",
  "  relation [SETTINGS]  Explain a column settings blob",
  "",
  "Options:",
  "  -v, --verbose          Enable verbose logging",
  "      --format <FORMAT>  Output format: pretty, text or json",
  "  -h, --help             Print this text",
  "  -V, --version          Print the version"]

def execute (host : Host m) (args : List String) : m Outcome :=
  match Invocation.ofArguments args with
  | .error .version => return ⟨0, "tally-cli 0.4.1\n", ""⟩
  | .error .help => return ⟨0, usage, ""⟩
  | .error .invalid => return ⟨2, "", usage⟩
  | .ok invocation => invoke host invocation

end Tool

end BoardRollup
