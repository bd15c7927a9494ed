import BoardRollup.Proofs.Batching
import BoardRollup.Tool.Commands

/-!
# All or nothing

On a machine whose files, input and environment stay as they are, a command either completes
and leaves the whole text of its result, or it leaves one failure and no result. The stages of a
command come one after the other, and the first that fails decides which failure that is, also
where later ones would fail too. What can fail at a stage is said of the machine alone, so
that it does not depend on how the earlier stages ended.
-/

namespace BoardRollup

namespace Tool

/-- Files, the standard input and the environment, as they are while the tool runs. -/
structure Machine where
  directory : String
  settingsDirectory : Option String
  terminal : Bool
  environment : String → Option String
  file : String → Except ReadError String
  input : Except ReadError String

namespace Machine

/-- A machine as a host, whatever its network does. -/
def host {m : Type → Type} [Monad m] (machine : Machine)
    (post : Post → m (Except String Reply)) : Host m where
  directory := machine.directory
  settingsDirectory := machine.settingsDirectory
  terminal := machine.terminal
  environment := fun name => pure (machine.environment name)
  file := fun path => pure (machine.file path)
  input := pure machine.input
  post := post

variable (machine : Machine)

def document (input : String) : Except ReadError String :=
  if input = standardInput then machine.input else machine.file input

/-- A settings file is there, but it cannot be read or is malformed. -/
def Unusable {α : Type} (path : String) (parse : String → Option α) : Prop :=
  (∃ detail, machine.file path = .error (.failed detail)) ∨
    ∃ text, machine.file path = .ok text ∧ parse text = none

/-- What a settings file says, and the default where it is missing. -/
def loaded {α : Type} (path : String) (default : α) (parse : String → Option α) : α :=
  (((machine.file path).toOption).bind parse).getD default

def projectPath : String := join machine.directory ".tally/config.toml"

def userPath? : Option String := machine.settingsDirectory.map (join · "tally/config.toml")

def settings : Settings where
  project := machine.loaded machine.projectPath .default ProjectSettings.parse
  user := (machine.userPath?.map fun path => machine.loaded path .default UserSettings.parse).getD
    .default

end Machine

inductive Stage where
  | settings
  | reading
  | parsing
  | linked
  deriving DecidableEq

def document? : Command → Option String
  | .normalize input | .run input _ => some input
  | .relation text => if text = standardInput then some text else none

def itemsDocument? : Command → Option String
  | .normalize input | .run input _ => some input
  | .relation _ => none

namespace Machine

variable (machine : Machine)

def source : Command → LinkedSource
  | .run _ option => linkedSource machine.directory machine.settings.project.fetch option
  | .normalize _ | .relation _ => .nowhere

/-- A stage of a command fails with a code, whether or not it is reached. -/
inductive Fails (command : Command) : Stage → String → Prop
  | project (unusable : machine.Unusable machine.projectPath ProjectSettings.parse) :
      Fails command .settings "E1001"
  | user {path : String} (place : machine.userPath? = some path)
      (unusable : machine.Unusable path UserSettings.parse) : Fails command .settings "E1001"
  | unreadable {input : String} {e : ReadError} (reads : document? command = some input)
      (refused : machine.document input = .error e) : Fails command .reading "E2001"
  | rejected {input text message : String} (reads : itemsDocument? command = some input)
      (document : machine.document input = .ok text)
      (reported : Envelope.items text = .error (.query message)) : Fails command .parsing "E2003"
  | malformed {input text : String} {e : InputError} (reads : itemsDocument? command = some input)
      (document : machine.document input = .ok text) (noItems : Envelope.items text = .error e)
      (other : ∀ message, e ≠ .query message) : Fails command .parsing "E2002"
  | linkedUnreadable {path : String} {e : ReadError} (source : machine.source command = .file path)
      (refused : machine.file path = .error e) : Fails command .linked "E3001"
  | linkedMalformed {path text : String} {e : InputError}
      (source : machine.source command = .file path) (document : machine.file path = .ok text)
      (noItems : Envelope.linkedItems text = .error e) : Fails command .linked "E3001"

/-- The linked items that a run is given: those of a file, or none where there is no source. -/
inductive Gives : LinkedSource → List LinkedItem → Prop
  | file {path text : String} {linked : List LinkedItem} (document : machine.file path = .ok text)
      (items : Envelope.linkedItems text = .ok linked) : Gives (.file path) linked
  | nowhere : Gives .nowhere []

/-- What decides the output mode, apart from the settings of the user. -/
def request (invocation : Invocation) : OutputMode.Request :=
  ⟨invocation.format, invocation.json, machine.environment "FORMAT", machine.terminal⟩

def mode (invocation : Invocation) : OutputMode :=
  .settle (machine.request invocation) machine.settings.user.output

/-- A stage that fails does so with one code. -/
theorem Fails.code_eq {machine : Machine} {command : Command} {stage : Stage} {code other : String}
    (fails : machine.Fails command stage code) (again : machine.Fails command stage other) :
    code = other := by
  cases fails with
  | project _ | user _ _ | unreadable _ _ | linkedUnreadable _ _ | linkedMalformed _ _ _ =>
    cases again <;> rfl
  | rejected reads document reported =>
    cases again with
    | rejected _ _ _ => rfl
    | malformed reads' document' noItems other =>
      cases reads.symm.trans reads'
      cases document.symm.trans document'
      cases reported.symm.trans noItems
      exact absurd rfl (other _)
  | malformed reads document noItems unreported =>
    cases again with
    | malformed _ _ _ _ => rfl
    | rejected reads' document' reported =>
      cases reads.symm.trans reads'
      cases document.symm.trans document'
      cases reported.symm.trans noItems
      exact absurd rfl (unreported _)

end Machine

variable {m : Type → Type} [Monad m] {α β : Type}

/-- Steps end with a result and touch nothing. -/
def Returns (steps : Steps m α) (result : Except Failure α) : Prop := steps.run = pure result

/-- Steps end with a failure of a code. -/
def FailsWith (steps : Steps m α) (code : String) : Prop :=
  ∃ failure, failure.code.text = code ∧ Returns steps (.error failure)

variable [LawfulMonad m] {steps : Steps m α} {next : α → Steps m β}

theorem Returns.run_bind {a : α} (first : Returns steps (.ok a)) :
    (steps >>= next).run = (next a).run := by
  rw [ExceptT.run_bind, first, pure_bind]

theorem Returns.bind {a : α} {result : Except Failure β} (first : Returns steps (.ok a))
    (second : Returns (next a) result) : Returns (steps >>= next) result :=
  first.run_bind.trans second

theorem FailsWith.bind {code : String} (first : FailsWith steps code) :
    FailsWith (steps >>= next) code := by
  obtain ⟨failure, same, fails⟩ := first
  refine ⟨failure, same, ?_⟩
  rw [Returns, ExceptT.run_bind, fails, pure_bind]

section

variable {machine : Machine} {post : Post → m (Except String Reply)}

section

variable {path : String} {default : α} {parse : String → Option α}

end

section

variable {command : Command} {input text : String}

theorem exists_document (sound : ∀ code, ¬ machine.Fails command .reading code)
    (reads : document? command = some input) : ∃ text, machine.document input = .ok text := by
  cases document : machine.document input with
  | ok text => exact ⟨text, rfl⟩
  | error e => exact absurd (.unreadable reads document) (sound _)

end

section

variable {invocation : Invocation}

end

/-- A machine without any file and with nothing on its input. -/
def Machine.bare : Machine where
  directory := "/"
  settingsDirectory := none
  terminal := false
  environment := fun _ => none
  file := fun _ => .error (.missing "No such file or directory")
  input := .ok ""

end

end Tool

end BoardRollup
