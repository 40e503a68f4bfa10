import Frontend.Text.Offset
import Frontend.Text.Dump
import Frontend.Text.Quoted

/-!
# Source files

A source file is a text with a name. Its line table splits the text after every line feed, so a
carriage return before a line feed belongs to the line it ends, and a carriage return elsewhere
breaks no line. Locations are read off the table: a line is found by its end, a column by
counting characters from the start of the line.
-/

namespace Frontend

/-- A line and a column, both counted from one; columns count characters. -/
structure Location where
  line : Nat
  column : Nat
  deriving DecidableEq, Repr

namespace Location

/-- The location as `line:column`. -/
def text (l : Location) : String :=
  s!"{l.line}:{l.column}"

/-- Earlier in the file: on an earlier line, or on the same line in an earlier column. -/
def Before (a b : Location) : Prop :=
  a.line < b.line ∨ a.line = b.line ∧ a.column < b.column

end Location

/-- A location tagged with the name of its file. -/
structure Position where
  name : String
  location : Location
  deriving DecidableEq, Repr

/-- The position as `name:line:column`. -/
def Position.text (p : Position) : String :=
  s!"{p.name}:{p.location.text}"

/-- Where a line stands in its text, its line break included. -/
structure LineRange where
  start : Nat
  stop : Nat
  deriving DecidableEq, Repr

/-- The lines of a text from an offset on, where the first of them starts at `start`. -/
def lineRangesFrom (start offset : Nat) : Text → List LineRange
  | [] => [⟨start, offset⟩]
  | c :: t =>
    let next := offset + c.utf8Size
    if c = '\n' then ⟨start, next⟩ :: lineRangesFrom next next t
    else lineRangesFrom start next t

/-- The line table of a text. There is always a last line, which may be empty. -/
def lineRanges (t : Text) : List LineRange :=
  lineRangesFrom 0 0 t

/-- A text with the names it goes by. -/
structure SourceFile where
  /-- Where the text was read from. -/
  path : String
  /-- The name that positions are reported under. -/
  name : String
  content : Text
  /-- Tells apart files that were read separately, whatever their content. -/
  origin : Nat := 0

namespace SourceFile

/-- A file from a text at hand; its name doubles as its path. -/
def ofText (name : String) (content : Text) : SourceFile :=
  { path := name, name, content }

/-- The line table. -/
def lines (f : SourceFile) : List LineRange :=
  lineRanges f.content

/-- Number of lines. -/
def lineCount (f : SourceFile) : Nat :=
  f.lines.length

/-- A line with its line break, counted from one. -/
def line? (f : SourceFile) : Nat → Option Text
  | 0 => none
  | n + 1 => f.lines[n]?.map fun range => Text.slice f.content range.start range.stop

/-- The location of an offset, if it names a place in the content. The end of the content is on
the last line. -/
def location? (f : SourceFile) (offset : Nat) : Option Location :=
  if Text.isBoundary offset f.content then
    let passed := (f.lines.takeWhile fun range => range.stop ≤ offset).length
    let index := min passed (f.lines.length - 1)
    let start := (f.lines[index]?.map LineRange.start).getD 0
    some ⟨index + 1, (Text.slice f.content start offset).length + 1⟩
  else none

/-- The name of a file and its number of lines. -/
def dump (f : SourceFile) : Dump :=
  .record "SourceFile"
    [("identifier", .leaf (Quoted.text f.name.toList)), ("lines", .nat f.lineCount)]

end SourceFile

end Frontend
