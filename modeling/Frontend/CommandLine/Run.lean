import Frontend.CommandLine.Options
import Frontend.Pipeline
import Frontend.Grammar.Dump

/-!
# What a run prints

A run prints the tokens of a file, one record each, and on demand its comments after them; or it
prints the head of the program. A run that fails prints nothing of this and exactly one
diagnostic: errors in the text are printed as they are reported, all others at the end.
-/

namespace Frontend.CommandLine

/-- What a run leaves behind. -/
structure Outcome where
  code : Nat
  /-- What is printed, each with a line feed after it. -/
  stdout : List String
  stderr : List String
  deriving DecidableEq, Repr

/-- Printed pieces, each with a line feed after it. -/
def printed (pieces : List String) : String :=
  String.join (pieces.map (· ++ "\n"))

/-- The record of a token: where it starts, its kind and its text. -/
def tokenRecord (file : SourceFile) (t : Token) : String :=
  (t.span file).position.text ++ "\t" ++ t.kind.text ++ "\t" ++ Quoted.text t.text

/-- The record of a comment. -/
def commentRecord (file : SourceFile) (c : Comment) : String :=
  (c.lexeme.span file).position.text ++ "\tcomment\t" ++ Quoted.text c.lexeme.text

/-- The records of a file: its tokens, and its comments if they are asked for. -/
def records (o : Options) (t : TokenizedFile) : List String :=
  t.stream.tokens.map (tokenRecord t.file) ++
    if o.has .comments then t.stream.comments.map (commentRecord t.file) else []

/-- The outcome of a stage: what it prints if it succeeds, and otherwise the diagnostics printed
on the way, or one for the error if there were none. -/
def outcome {α : Type} (styling : Styling) (failure : String) (print : α → List String)
    (result : Except Error α × List String) : Outcome :=
  match result with
  | (.ok a, reported) => ⟨0, print a, reported⟩
  | (.error e, reported) =>
    ⟨1, [], if reported.isEmpty then [failure ++ ": " ++ e.message styling] else reported⟩

/-- Runs on a file of a provider. -/
def run (o : Options) (styling : Styling) (provider : Provider) : Outcome :=
  let handler := Handler.print (Error.message styling)
  if o.has .parse then
    outcome styling ("Failed to parse " ++ o.file) (fun p => [(p.program.dump p.file).pretty])
      (parse handler provider o.file [])
  else
    outcome styling ("Failed to tokenize " ++ o.file) (records o)
      (tokenize handler provider o.file [])

/-- Whether output is styled: never if the flag forbids it, always if the environment forces it,
and otherwise on a terminal unless the environment is against it. -/
def styling (o : Options) (environment : List (String × String)) (terminal : Bool) : Styling :=
  if o.has .noColor then .plain
  else if (environment.lookup "CLICOLOR_FORCE").any (· ≠ "0") then .ansi
  else if (environment.lookup "NO_COLOR").isSome then .plain
  else if terminal && (environment.lookup "CLICOLOR").all (· ≠ "0") then .ansi
  else .plain

/-- The name and version of the program. -/
def versionText : String := "holang 0.1.0"

/-- How the program is called. -/
def helpText : String :=
  "Tokenizer for the Holang language\n\n" ++
  "Usage: holang [--comments] [--parse] [-v|--verbose] [--no-color] FILE"

/-- Answers a command line. -/
def answer (arguments : List String) (environment : List (String × String)) (terminal : Bool)
    (provider : Provider) : Outcome :=
  match Request.ofCommandLine arguments environment with
  | .refused e => ⟨2, [], [e.message]⟩
  | .version => ⟨0, [versionText], []⟩
  | .help => ⟨0, [helpText], []⟩
  | .run options => run options (styling options environment terminal) provider

end Frontend.CommandLine
