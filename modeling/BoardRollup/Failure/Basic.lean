import BoardRollup.Envelope
import BoardRollup.Output.Mode
import BoardRollup.Output.Section

/-!
# Failures

Why the tool gave no result. A failure has a cause and the contexts in which it arose. They form
a chain of errors, outermost first, and the message names them all. A cause that stems from
another one tells it twice, in its own words and after them.

Errors of the tool's own types have a code, and the first of them in the chain decides. Contexts
are only texts, so they never do, and neither does an input error that another error of the
tool stems from. Failures to load settings are given their code without a search.
-/

namespace BoardRollup

/-- Why a step of the tool failed. -/
inductive Cause where
  /-- A settings file could not be read. -/
  | settingsUnreadable (path detail : String)
  /-- A settings file does not follow the grammar or has a wrong type somewhere. -/
  | settingsMalformed (path detail : String)
  /-- An input could not be read. -/
  | unreadable (origin detail : String)
  | input (error : InputError)
  | linkedUnreadable (path detail : String)
  | linkedMalformed (path : String) (error : InputError)
  /-- A request had no answer. -/
  | transport (endpoint detail : String)
  /-- A request was answered with a status that reports a failure. -/
  | status (endpoint : String) (number : Nat)
  /-- The answer to a request is not JSON. -/
  | undecodable (endpoint detail : String)
  /-- The answer to a request has no linked items. -/
  | rejected (error : InputError)
  | other (message : String)
  deriving DecidableEq

/-- One error of a chain: what it says, and the code of its type if this is one of the tool's own. -/
structure Link where
  message : String
  code? : Option ErrorCode
  deriving DecidableEq

namespace Link

/-- An error of a type that has no code. -/
def plain (message : String) : Link := ⟨message, none⟩

def typed (message : String) (code : ErrorCode) : Link := ⟨message, some code⟩

end Link

/-- An input error, and what it stems from. -/
def InputError.chain (e : InputError) : List Link :=
  .typed e.message e.code :: match e with
    | .notJson => [.plain InputError.syntaxDetail]
    | .item _ fault => [.plain fault.message]
    | .query _ | .noItems => []

/-- The code of the first error in a chain whose type has one. -/
def searchCode (chain : List Link) : ErrorCode := (chain.findSome? Link.code?).getD .internal

namespace Cause

/-- A cause, and what it stems from. -/
def chain : Cause → List Link
  | settingsUnreadable path detail => [.plain ("Failed to read " ++ path), .plain detail]
  | settingsMalformed path detail => [.plain ("Failed to parse " ++ path), .plain detail]
  | unreadable origin detail =>
    [.typed ("failed to read " ++ origin ++ ": " ++ detail) .inputUnreadable, .plain detail]
  | input e => e.chain
  | linkedUnreadable path detail =>
    [.typed ("failed to read linked items from " ++ path ++ ": " ++ detail) .linkedSourceMissing,
      .plain detail]
  | linkedMalformed path e =>
    .typed ("linked items in " ++ path ++ " are malformed: " ++ e.message) .linkedSourceMissing
      :: e.chain
  | transport endpoint detail =>
    [.typed ("request to " ++ endpoint ++ " failed: " ++ detail) .fetchFailed, .plain detail]
  | status endpoint number =>
    [.typed (endpoint ++ " answered with HTTP " ++ Fault.countText number) .fetchRejected]
  | undecodable endpoint detail =>
    [.typed ("response from " ++ endpoint ++ " is not JSON: " ++ detail) .fetchFailed,
      .plain detail]
  | rejected e => .typed ("linked item query was rejected: " ++ e.message) .fetchRejected :: e.chain
  | other message => [.plain message]

/-- The code of a cause that is not searched for one. -/
def given? : Cause → Option ErrorCode
  | settingsUnreadable _ _ | settingsMalformed _ _ => some .configParse
  | _ => none

end Cause

structure Failure where
  /-- The contexts of the cause, outermost first. -/
  contexts : List String
  cause : Cause
  deriving DecidableEq

namespace Failure

def ofCause (cause : Cause) : Failure := ⟨[], cause⟩

def within (f : Failure) (context : String) : Failure :=
  { f with contexts := context :: f.contexts }

def chain (f : Failure) : List Link := f.contexts.map .plain ++ f.cause.chain

def message (f : Failure) : String := ": ".intercalate (f.chain.map Link.message)

def code (f : Failure) : ErrorCode := f.cause.given?.getD (searchCode f.chain)

/-- The innermost message. -/
def rootCause (f : Failure) : String := (f.chain.getLast?.map Link.message).getD ""

def toJson (f : Failure) : Json :=
  .obj [("message", .str f.message), ("suggestion", .str f.code.hint),
    ("error_code", .str f.code.text)]

def render (f : Failure) : OutputMode → String
  | .json => (Json.obj [("error", f.toJson)]).pretty ++ "\n"
  | .pretty | .text =>
    unlines ["error[" ++ f.code.text ++ "]: " ++ f.message,
      "  suggestion: " ++ f.code.hint]

/-- A context has no code, so the search goes past it. -/
theorem searchCode_contexts (contexts : List String) (chain : List Link) :
    searchCode (contexts.map .plain ++ chain) = searchCode chain := by
  induction contexts with
  | nil => rfl
  | cons context contexts ih => exact ih

/-- The cause alone decides the code. -/
theorem code_eq (f : Failure) : f.code = (ofCause f.cause).code := by
  rw [code, code, chain, chain, searchCode_contexts, searchCode_contexts]
  rfl

@[simp] theorem code_within (f : Failure) (context : String) :
    (f.within context).code = f.code := by
  rw [code_eq, code_eq f]
  rfl

/-- The outermost error of the tool's own decides, whatever it stems from. -/
theorem code_of_typed {f : Failure} {message : String} {code : ErrorCode} {inner : List Link}
    (searched : f.cause.given? = none) (chain : f.cause.chain = .typed message code :: inner) :
    f.code = code := by
  have own : (ofCause f.cause).code = searchCode f.cause.chain := by
    rw [Failure.code, ofCause, searched]
    rfl
  rw [code_eq, own, chain]
  rfl

/-- So an input error does not decide where linked items are malformed or a query is rejected. -/
theorem code_of_linked (contexts : List String) (e : InputError) :
    (∀ path, (Failure.mk contexts (.linkedMalformed path e)).code = .linkedSourceMissing) ∧
      (Failure.mk contexts (.rejected e)).code = .fetchRejected :=
  ⟨fun _ => code_of_typed rfl rfl, code_of_typed rfl rfl⟩

end Failure

end BoardRollup
