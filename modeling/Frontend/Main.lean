import Frontend.CommandLine.Run
import Frontend.Provider.FileTree

/-!
# The program

Reads the command line, the environment and the file, and prints what the answer says. Everything
that is decided is decided by `CommandLine.answer`.
-/

namespace Frontend.Program

/-- The variables that the program looks at. -/
def environmentNames : List String :=
  CommandLine.Flag.all.map CommandLine.Flag.environmentName ++
    ["CLICOLOR_FORCE", "NO_COLOR", "CLICOLOR"]

/-- The variables that are set, with their values. -/
def readEnvironment : IO (List (String × String)) :=
  environmentNames.filterMapM fun name => do
    return (← IO.getEnv name).map (name, ·)

/-- The error with a number of the operating system, which may be given as its negative. -/
def errorOfNumber (code : UInt32) (details : String) : FileError :=
  let number := if code.toNat < UInt32.size / 2 then code.toNat else UInt32.size - code.toNat
  match number with
  | 2 => .notFound
  | 13 => .other "Permission denied (os error 13)"
  | 20 => .notADirectory
  | 21 => .isADirectory
  | 36 => .nameTooLong
  | n => .other s!"{details} (os error {n})"

/-- Why a file could not be read. -/
def fileError : IO.Error → FileError
  | .noFileOrDirectory _ code details => errorOfNumber code details
  | .inappropriateType _ code details => errorOfNumber code details
  | .permissionDenied _ code details => errorOfNumber code details
  | .invalidArgument _ code details => errorOfNumber code details
  | .otherError code details => errorOfNumber code details
  | e => .other (toString e)

/-- Reads a file, seen from the working directory. -/
def readFile (path : String) : IO (Except FileError Bytes) := do
  if '\x00' ∈ path.toList then return .error .nulInPath
  try
    let bytes ← IO.FS.readBinFile (Path.under Path.working path)
    return .ok bytes.toList
  catch e => return .error (fileError e)

/-- The provider of the one file that a command line names. -/
def providerFor (arguments : List String) (environment : List (String × String)) :
    IO Provider := do
  match CommandLine.Request.ofCommandLine arguments environment with
  | .run options =>
    let content ← readFile options.file
    return .ofFiles fun _ => content
  | _ => return .ofFiles fun _ => .error .notFound

end Frontend.Program

/-- Runs the program. -/
def main (arguments : List String) : IO UInt32 := do
  let environment ← Frontend.Program.readEnvironment
  let provider ← Frontend.Program.providerFor arguments environment
  let stdout ← IO.getStdout
  let stderr ← IO.getStderr
  let answer := Frontend.CommandLine.answer arguments environment (← stdout.isTty) provider
  stdout.putStr (Frontend.CommandLine.printed answer.stdout)
  stderr.putStr (Frontend.CommandLine.printed answer.stderr)
  return answer.code.toUInt32
