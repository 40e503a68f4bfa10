import Frontend.Source.Span
import Frontend.Text.Style

/-!
# Excerpts

An excerpt shows where a span starts: the position, the source line without its line break, and
carets under the part of the span that stands on the line. Even an empty span gets one caret.
-/

namespace Frontend

/-- What is shown of a span. -/
structure Excerpt where
  position : Position
  /-- The line the span starts on, without line feeds and carriage returns at its end. -/
  line : Text
  /-- Number of blanks before the carets. -/
  indent : Nat
  /-- Number of carets. -/
  carets : Nat

namespace Excerpt

/-- A text without the line feeds and carriage returns at its end. -/
def trimBreaks (t : Text) : Text :=
  (t.reverse.dropWhile fun c => c = '\n' || c = '\r').reverse

/-- The first line of a text without its line break, which is a line feed with or without a
carriage return before it. -/
def firstLine (t : Text) : Text :=
  let line := t.takeWhile (· ≠ '\n')
  if line.length < t.length ∧ line.getLast? = some '\r' then line.dropLast else line

/-- What is shown of a span. -/
def ofSpan (s : Span) : Excerpt :=
  let position := s.position
  { position
    line := trimBreaks ((s.file.line? position.location.line).getD [])
    indent := position.location.column - 1
    carets := max 1 (firstLine s.text).length }

/-- The same character a number of times. -/
def repeated (n : Nat) (c : Char) : String :=
  String.ofList (List.replicate n c)

/-- The lines of an excerpt, and a line of help after an empty one. -/
def render (styling : Styling) (help : Option String) (e : Excerpt) : String :=
  let number := toString e.position.location.line
  let gutter := repeated number.length ' '
  let bar := Ink.frame.paint styling "|"
  " " ++ Ink.frame.paint styling "-->" ++ " " ++ e.position.text ++ "\n" ++
    gutter ++ " " ++ bar ++ "\n" ++
    Ink.frame.paint styling number ++ " " ++ bar ++ " " ++ String.ofList e.line ++ "\n" ++
    gutter ++ " " ++ bar ++ " " ++ repeated e.indent ' ' ++
    Ink.alert.paint styling (repeated e.carets '^') ++
    (match help with
      | none => ""
      | some help => "\n\n" ++ help)

end Excerpt

/-- The headline of a diagnostic. -/
def headline (styling : Styling) (message : String) : String :=
  Ink.alert.paint styling "[error]:" ++ " " ++ Ink.strong.paint styling message

/-- A diagnostic: a headline and an excerpt of the span it is about. -/
def diagnostic (styling : Styling) (message : String) (span : Span) (help : Option String) :
    String :=
  headline styling message ++ "\n" ++ (Excerpt.ofSpan span).render styling help

end Frontend
