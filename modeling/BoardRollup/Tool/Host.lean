/-!
# Hosts

What the tool needs of the place where it runs. The tool is written against this
interface, so that it can run over any files, any input and any network.
-/

namespace BoardRollup

inductive ReadError where
  /-- There is no such file. -/
  | missing (detail : String)
  | failed (detail : String)
  deriving DecidableEq

def ReadError.detail : ReadError → String
  | missing detail | failed detail => detail

structure Post where
  endpoint : String
  token : Option String
  timeoutSeconds : Nat
  body : String
  deriving DecidableEq

structure Reply where
  status : Nat
  body : String
  deriving DecidableEq

/-- What the tool needs of the place where it runs. -/
structure Host (m : Type → Type) where
  /-- The working directory. -/
  directory : String
  /-- The directory of the user's settings, if there is one. -/
  settingsDirectory : Option String
  /-- Whether the standard output goes to a terminal. -/
  terminal : Bool
  environment : String → m (Option String)
  file : String → m (Except ReadError String)
  input : m (Except ReadError String)
  /-- Sends a request, and gives the answer or why there is none. -/
  post : Post → m (Except String Reply)

end BoardRollup
