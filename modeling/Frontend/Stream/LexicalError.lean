import Frontend.Token.Basic
import Frontend.Source.Excerpt

/-!
# Lexical errors

A lexical error is an illegal token seen as the reason why a text has no token stream. It is
shown with an excerpt of the text to blame.
-/

namespace Frontend

/-- An illegal token: why it is illegal, and the text to blame. -/
structure LexicalError where
  reason : IllegalReason
  lexeme : Lexeme
  deriving DecidableEq, Repr

namespace LexicalError

/-- What is wrong. -/
def summary (e : LexicalError) : String :=
  match e.reason with
  | .unterminated what => "found an unclosed `" ++ String.ofList what.opening ++ "`"
  | .malformedNumber => "malformed numeric literal `" ++ String.ofList e.lexeme.text ++ "`"
  | .unexpected c => "unexpected character " ++ Quoted.char c

/-- The rule that was broken, where it helps to know it. -/
def help? (e : LexicalError) : Option String :=
  match e.reason with
  | .unterminated .string => some "interpreted strings must be closed on the line they start"
  | .unterminated .char =>
    some "a character literal holds exactly one, possibly escaped, character"
  | .unterminated .rawString | .unterminated .comment => some "reached the end of the file"
  | .malformedNumber => some "expected at least one digit"
  | .unexpected _ => none

/-- The error as it is shown to the user. -/
def message (styling : Styling) (file : SourceFile) (e : LexicalError) : String :=
  diagnostic styling e.summary (e.lexeme.span file) e.help?

end LexicalError

end Frontend
