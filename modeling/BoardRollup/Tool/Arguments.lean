import BoardRollup.Output.Mode

/-!
# The command line

Arguments are taken one by one from the left. Options that hold for every command may
stand before the command or after it, and each at most once in either place; after the
command they count for more. An option takes its value from the same argument, after an
equals sign, or from the next one, which then does not begin with a hyphen unless it
is a hyphen. After `--` every argument is plain. The help command takes no options and at
most one command to explain.
-/

namespace BoardRollup

/-- Where the command line says linked items come from. -/
inductive SourceOption where
  | linked (path : String)
  | endpoint (url : String)
  deriving DecidableEq

/-- What the command line asks for. -/
inductive Command where
  | normalize (input : String)
  | run (input : String) (source : Option SourceOption)
  | relation (settings : String)
  deriving DecidableEq

/-- A command with the options that hold for every command. -/
structure Invocation where
  command : Command
  format : Option OutputMode
  json : Bool
  verbose : Bool
  deriving DecidableEq

/-- Why arguments make no invocation. -/
inductive Refusal where
  /-- The version is asked for. -/
  | version
  /-- An explanation is asked for. -/
  | help
  | invalid
  deriving DecidableEq

namespace Arguments

inductive Verb where
  | normalize
  | run
  | relation
  deriving DecidableEq

/-- The options that take a value. -/
inductive Slot where
  | format
  | linked
  | endpoint
  deriving DecidableEq

/-- What the help command explains. -/
inductive Topic where
  | tool
  | command
  deriving DecidableEq

/-- The options of one place that hold for every command. -/
structure Flags where
  verbose : Bool
  json : Bool
  format : Option OutputMode
  deriving DecidableEq

/-- What the arguments so far say. -/
structure State where
  /-- The option whose value comes next. -/
  awaiting : Option Slot
  /-- Whether every further argument is plain. -/
  plainOnly : Bool
  /-- The options before the command. -/
  before : Flags
  command : Option Verb
  /-- What is to be explained, if the help command is given. -/
  topic : Option Topic
  /-- The options after the command. -/
  after : Flags
  operand : Option String
  linked : Option String
  endpoint : Option String
  deriving DecidableEq

def Flags.none : Flags := ⟨false, false, .none⟩

def State.start : State :=
  ⟨none, false, .none, none, none, .none, none, none, none⟩

def verb? : String → Option Verb
  | "normalize" => some .normalize
  | "run" => some .run
  | "relation" => some .relation
  | _ => none

/-- The command that explains the others and itself. -/
def helpCommand : String := "help"

/-- Changes the options of the place where the arguments are. -/
def State.setFlags (s : State) (change : Flags → Except Refusal Flags) :
    Except Refusal State :=
  match s.command with
  | none => do return { s with before := ← change s.before }
  | some _ => do return { s with after := ← change s.after }

def setVerbose (f : Flags) : Except Refusal Flags :=
  if f.verbose then .error .invalid else .ok { f with verbose := true }

def setJson (f : Flags) : Except Refusal Flags :=
  if f.json then .error .invalid else .ok { f with json := true }

def setFormat (value : String) (f : Flags) : Except Refusal Flags :=
  match f.format, OutputMode.ofName? value with
  | none, some mode => .ok { f with format := some mode }
  | _, _ => .error .invalid

/-- Gives an option its value. Only a run takes sources, and a path is not empty. -/
def State.fill (s : State) (slot : Slot) (value : String) : Except Refusal State :=
  match slot with
  | .format => s.setFlags (setFormat value)
  | .linked =>
    if s.linked.isNone && value ≠ "" then .ok { s with linked := some value }
    else .error .invalid
  | .endpoint =>
    if s.endpoint.isNone then .ok { s with endpoint := some value } else .error .invalid

def State.slot? (s : State) : String → Option Slot
  | "format" => some .format
  | "linked" => if s.command = some .run then some .linked else none
  | "endpoint" => if s.command = some .run then some .endpoint else none
  | _ => none

def State.long (s : State) (name : String) (value : Option String) : Except Refusal State :=
  match s.slot? name, value with
  | some slot, some value => s.fill slot value
  | some slot, none => .ok { s with awaiting := some slot }
  | none, some _ => .error .invalid
  | none, none =>
    match name with
    | "verbose" => s.setFlags setVerbose
    | "json" => s.setFlags setJson
    | "help" => .error .help
    | "version" => .error (if s.command.isNone then .version else .invalid)
    | _ => .error .invalid

def State.short (s : State) (letter : Char) : Except Refusal State :=
  match letter with
  | 'v' => s.setFlags setVerbose
  | 'h' => .error .help
  | 'V' => .error (if s.command.isNone then .version else .invalid)
  | _ => .error .invalid

/-- Takes a plain argument: the command, or its operand. -/
def State.plain (s : State) (arg : String) : Except Refusal State :=
  match s.command with
  | none =>
    if s.plainOnly then .error .invalid
    else if arg = helpCommand then .ok { s with topic := some .tool }
    else match verb? arg with
      | some verb => .ok { s with command := some verb }
      | none => .error .invalid
  | some _ =>
    if s.operand.isNone then .ok { s with operand := some arg } else .error .invalid

/-- A long option's name and the value that stands with it. -/
def splitLong (body : List Char) : String × Option String :=
  let name := body.takeWhile (· ≠ '=')
  (.ofList name, (body.drop name.length).tail?.map .ofList)

/-- Takes an argument of the help command, which has at most one: a command. -/
def State.explain (s : State) (topic : Topic) (arg : String) : Except Refusal State :=
  if topic = .tool ∧ (arg = helpCommand ∨ (verb? arg).isSome) then
    .ok { s with topic := some .command }
  else .error .invalid

/-- Takes an argument before which no help command came. -/
def State.takeUsual (s : State) (arg : String) : Except Refusal State :=
  match s.awaiting with
  | some slot =>
    match arg.toList with
    | '-' :: _ :: _ => .error .invalid
    | _ => { s with awaiting := none }.fill slot arg
  | none =>
    if s.plainOnly then s.plain arg
    else match arg.toList with
      | ['-', '-'] => .ok { s with plainOnly := true }
      | '-' :: '-' :: body =>
        let (name, value) := splitLong body
        s.long name value
      | '-' :: letter :: letters => (letter :: letters).foldlM State.short s
      | _ => s.plain arg

def State.take (s : State) (arg : String) : Except Refusal State :=
  match s.topic with
  | some topic => s.explain topic arg
  | none => s.takeUsual arg

/-- The invocation that all arguments make without a help command. -/
def State.invocation (s : State) : Except Refusal Invocation :=
  let operand := s.operand.getD "-"
  let invocation (command : Command) : Invocation :=
    { command
      format := s.after.format.or s.before.format
      json := s.before.json || s.after.json
      verbose := s.before.verbose || s.after.verbose }
  match s.awaiting, s.command, s.linked, s.endpoint with
  | none, some .normalize, _, _ => .ok (invocation (.normalize operand))
  | none, some .relation, _, _ => .ok (invocation (.relation operand))
  | none, some .run, none, none => .ok (invocation (.run operand none))
  | none, some .run, some path, none => .ok (invocation (.run operand (some (.linked path))))
  | none, some .run, none, some url => .ok (invocation (.run operand (some (.endpoint url))))
  | _, _, _, _ => .error .invalid

def State.finish (s : State) : Except Refusal Invocation :=
  match s.topic with
  | some _ => .error .help
  | none => s.invocation

end Arguments

def Invocation.ofArguments (args : List String) : Except Refusal Invocation := do
  (← args.foldlM Arguments.State.take .start).finish

end BoardRollup
