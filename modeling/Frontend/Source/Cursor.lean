import Frontend.Text.Offset

/-!
# Cursors

A cursor walks over a text character by character. It knows the offset it has reached, the
character it passed last and the text that is left, so peeking never moves it and nothing has to
be looked up in the text behind it.
-/

namespace Frontend

/-- A place in a text that is being read. -/
structure Cursor where
  /-- Offset of the next character, or the size of the text at its end. -/
  offset : Nat
  /-- The character passed last, with its offset. -/
  prev : Option (Nat × Char)
  /-- The text that is left. -/
  rest : Text

namespace Cursor

/-- The cursor at the start of a text. -/
def ofText (t : Text) : Cursor :=
  ⟨0, none, t⟩

/-- The next character, with its offset. -/
def peek (c : Cursor) : Option (Nat × Char) :=
  match c.rest with
  | [] => none
  | x :: _ => some (c.offset, x)

/-- The character after the next one, with its offset. -/
def peekSecond (c : Cursor) : Option (Nat × Char) :=
  match c.rest with
  | x :: y :: _ => some (c.offset + x.utf8Size, y)
  | _ => none

/-- Passes the next character. At the end the cursor stays where it is. -/
def next (c : Cursor) : Cursor :=
  match c.rest with
  | [] => c
  | x :: rest => ⟨c.offset + x.utf8Size, some (c.offset, x), rest⟩

/-- Passes the next character if it is the given one, and says whether it did. -/
def nextIfEq (expected : Char) (c : Cursor) : Bool × Cursor :=
  if c.rest.head? = some expected then (true, c.next) else (false, c)

/-- Passes a number of characters. -/
def advance : Nat → Cursor → Cursor
  | 0, c => c
  | n + 1, c => advance n c.next

/-- Passes the characters of the class that come next. -/
def walk (p : Char → Bool) (c : Cursor) : Cursor :=
  c.advance (c.rest.takeWhile p).length

/-- A cursor in a text: what it has passed and what is left make up the text, the offset is the
size of what it has passed, and the character passed last is the last of that. -/
def In (t : Text) (c : Cursor) : Prop :=
  ∃ passed : Text, t = passed ++ c.rest ∧ c.offset = Text.size passed ∧
    ∀ at_ x, c.prev = some (at_, x) →
      ∃ before, passed = before ++ [x] ∧ at_ = Text.size before

end Cursor

end Frontend
