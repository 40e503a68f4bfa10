/-!
# Command-line options

The arguments name one file and set flags; a flag that no argument sets may be set by a variable
of the environment. Arguments are read from left to right, and the first one that cannot be
accepted, or that asks for something else than a run, settles what happens.
-/

namespace Frontend.CommandLine

/-- What can be switched on. -/
inductive Flag where
  /-- Also print the comments of the file. -/
  | comments
  /-- Print the head of the program instead of the tokens. -/
  | parse
  /-- Say more about what is done. -/
  | verbose
  /-- Write plain text whatever the environment asks for. -/
  | noColor
  deriving DecidableEq, Repr

namespace Flag

/-- All flags. -/
def all : List Flag := [comments, parse, verbose, noColor]

/-- The name of the flag after two hyphens. -/
def long : Flag → String
  | comments => "comments"
  | parse => "parse"
  | verbose => "verbose"
  | noColor => "no-color"

/-- The variable of the environment that sets the flag. -/
def environmentName : Flag → String
  | comments => "HOLANG_COMMENTS"
  | parse => "HOLANG_PARSE"
  | verbose => "HOLANG_VERBOSE"
  | noColor => "HOLANG_NO_COLOR"

end Flag

/-- Why a command line is not accepted. -/
inductive UsageError where
  | missingFile
  | emptyFileName
  | extraArgument (argument : String)
  | unknownOption (option : String)
  | repeatedFlag (flag : Flag)
  | unexpectedValue (option : String)
  | invalidVariable (flag : Flag) (value : String)
  deriving DecidableEq, Repr

/-- The text of an error. -/
def UsageError.message : UsageError → String
  | missingFile => "error: the file to tokenize is missing"
  | emptyFileName => "error: the name of the file is empty"
  | extraArgument argument => s!"error: unexpected argument '{argument}'"
  | unknownOption option => s!"error: unexpected option '{option}'"
  | repeatedFlag flag => s!"error: the option '--{flag.long}' is given more than once"
  | unexpectedValue option => s!"error: the option '{option}' takes no value"
  | invalidVariable flag value => s!"error: invalid value '{value}' of {flag.environmentName}"

/-- A command line that names a file. -/
structure Options where
  file : String
  flags : List Flag
  deriving DecidableEq, Repr

/-- Whether a flag is set. -/
def Options.has (o : Options) (flag : Flag) : Bool :=
  flag ∈ o.flags

/-- What a command line asks for, or why it is not accepted. -/
inductive Request where
  | refused (e : UsageError)
  | version
  | help
  | run (options : Options)
  deriving DecidableEq, Repr

/-- What the arguments read so far have set. -/
structure Reading where
  file : Option String
  flags : List Flag
  deriving DecidableEq, Repr

namespace Reading

/-- Sets a flag, once. -/
def set (flag : Flag) (r : Reading) : Except Request Reading :=
  if flag ∈ r.flags then .error (.refused (.repeatedFlag flag))
  else .ok { r with flags := r.flags ++ [flag] }

/-- Takes the name of the file, once. -/
def setFile (name : String) (r : Reading) : Except Request Reading :=
  if name.isEmpty then .error (.refused .emptyFileName)
  else
    match r.file with
    | some _ => .error (.refused (.extraArgument name))
    | none => .ok { r with file := some name }

/-- Takes an option by its name after two hyphens and the value joined to it. -/
def long (option : String) (name : List Char) (value : Option (List Char)) (r : Reading) :
    Except Request Reading :=
  let name := String.ofList name
  match Flag.all.find? fun flag => flag.long = name with
  | some flag =>
    if value.isSome then .error (.refused (.unexpectedValue option)) else r.set flag
  | none =>
    if name = "version" ∨ name = "help" then
      if value.isSome then .error (.refused (.unexpectedValue option))
      else .error (if name = "version" then .version else .help)
    else .error (.refused (.unknownOption option))

/-- Takes options of one letter each. -/
def short (option : String) (letters : List Char) (r : Reading) : Except Request Reading :=
  match letters with
  | [] => .ok r
  | 'v' :: letters => (r.set .verbose).bind (short option letters)
  | 'V' :: _ => .error .version
  | 'h' :: _ => .error .help
  | _ :: _ => .error (.refused (.unknownOption option))

/-- Takes the arguments from left to right. After two hyphens every argument is a file name. -/
def arguments (r : Reading) : List String → Except Request Reading
  | [] => .ok r
  | argument :: others =>
    match argument.toList with
    | ['-', '-'] => others.foldlM (fun r name => r.setFile name) r
    | '-' :: '-' :: option =>
      let name := option.takeWhile (· ≠ '=')
      let value := option.dropWhile (· ≠ '=')
      (r.long argument name (if value.isEmpty then none else some value)).bind
        (arguments · others)
    | '-' :: letter :: letters => (r.short argument (letter :: letters)).bind (arguments · others)
    | _ => (r.setFile argument).bind (arguments · others)

/-- Sets a flag from its variable, unless an argument has set it. -/
def fromEnvironment (environment : List (String × String)) (r : Reading) (flag : Flag) :
    Except Request Reading :=
  if flag ∈ r.flags then .ok r
  else
    match environment.lookup flag.environmentName with
    | none | some "false" => .ok r
    | some "true" => r.set flag
    | some value => .error (.refused (.invalidVariable flag value))

end Reading

/-- What a command line asks for in an environment. -/
def Request.ofCommandLine (arguments : List String) (environment : List (String × String)) :
    Request :=
  let read := do
    let r ← (⟨none, []⟩ : Reading).arguments arguments
    Flag.all.foldlM (Reading.fromEnvironment environment) r
  match read with
  | .error request => request
  | .ok ⟨none, _⟩ => .refused .missingFile
  | .ok ⟨some file, flags⟩ => .run ⟨file, flags⟩

end Frontend.CommandLine
