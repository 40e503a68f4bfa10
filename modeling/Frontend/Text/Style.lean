/-!
# Styled output

Some pieces of a diagnostic are written in colour. A styled piece starts with the codes of its
ink and ends with a reset; where the piece holds a reset of its own, the codes are written again
after it, so that the ink reaches to the end of the piece.
-/

namespace Frontend

/-- Whether output is styled. -/
inductive Styling where
  | plain
  | ansi
  deriving DecidableEq, Repr

/-- The inks of a diagnostic. -/
inductive Ink where
  /-- Bold red: headers and underlines. -/
  | alert
  /-- Bold blue: the frame around a source line. -/
  | frame
  /-- Bold: messages. -/
  | strong
  deriving DecidableEq, Repr

namespace Ink

/-- The codes that switch the ink on. -/
def codes : Ink → String
  | alert => "\x1b[1;31m"
  | frame => "\x1b[1;34m"
  | strong => "\x1b[1m"

/-- The code that switches every ink off. -/
def reset : String := "\x1b[0m"

/-- A piece of text in the ink, or as it is if output is plain. -/
def paint (ink : Ink) (styling : Styling) (piece : String) : String :=
  match styling with
  | .plain => piece
  | .ansi => ink.codes ++ piece.replace reset (reset ++ ink.codes) ++ reset

end Ink

end Frontend
