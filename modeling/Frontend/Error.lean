import Frontend.Stream.LexicalError
import Frontend.Grammar.SyntaxError
import Frontend.Text.Utf8

/-!
# Errors

Everything that can go wrong between a file and its program: the bytes cannot be read, they are
not UTF-8, the text has an illegal token, or the tokens are no program. The last two come with
the file, so that they can be shown with an excerpt.
-/

namespace Frontend

/-- What went wrong. -/
inductive Error where
  /-- The bytes could not be read, for the given reason. -/
  | unreadable (reason : String)
  | notUtf8 (e : Utf8.Invalid)
  | lexical (file : SourceFile) (e : LexicalError)
  | grammar (file : SourceFile) (e : SyntaxError)

/-- The error as it is shown to the user. -/
def Error.message (styling : Styling) : Error → String
  | unreadable reason => "An error occurred while working with Input/Output: " ++ reason
  | notUtf8 e => e.message
  | lexical file e =>
    "An error occurred while lexing the source code: " ++ e.message styling file
  | grammar file e => e.message styling file

end Frontend
