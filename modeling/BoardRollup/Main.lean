import BoardRollup.Tool.Commands

/-!
# The tool on a computer

Runs the tool over the files, the environment and the standard streams of a process.
Requests to endpoints are not carried out.
-/

namespace BoardRollup

namespace Main

/-- The number of a system error, of which some come negated. -/
def systemNumber (code : UInt32) : Nat :=
  if code.toNat < 0x80000000 then code.toNat else 0x100000000 - code.toNat

/-- Why a file could not be read. A file below something that is no directory is
missing like any other. -/
def readError : IO.Error → ReadError
  | .noFileOrDirectory _ _ _ => .missing "No such file or directory (os error 2)"
  | .inappropriateType _ code _ =>
    if systemNumber code = 20 then .missing "Not a directory (os error 20)"
    else .failed "Is a directory (os error 21)"
  | .permissionDenied _ _ _ => .failed "Permission denied (os error 13)"
  | .userError _ => .failed "stream did not contain valid UTF-8"
  | e => .failed (toString e)

def readFile (path : String) : IO (Except ReadError String) := do
  try return .ok (← IO.FS.readFile path)
  catch e => return .error (readError e)

def readInput : IO (Except ReadError String) := do
  try return .ok (← (← IO.getStdin).readToEnd)
  catch e => return .error (readError e)

/-- The directory of the user's settings: the one that is named, or the usual one under the
home directory. -/
def settingsDirectory : IO (Option String) := do
  match (← IO.getEnv "XDG_CONFIG_HOME").filter (·.startsWith "/") with
  | some directory => return some directory
  | none => return (← IO.getEnv "HOME").map (· ++ "/.config")

def host : IO (Host IO) := do
  return {
    directory := toString (← IO.currentDir)
    settingsDirectory := ← settingsDirectory
    terminal := ← (← IO.getStdout).isTty
    environment := fun name => IO.getEnv name
    file := readFile
    input := readInput
    post := fun _ => return .error "requests are not supported" }

end Main

end BoardRollup

def main (args : List String) : IO UInt32 := do
  let outcome ← BoardRollup.Tool.execute (← BoardRollup.Main.host) args
  (← IO.getStdout).putStr outcome.stdout
  (← IO.getStderr).putStr outcome.stderr
  return outcome.exitCode.toUInt32
