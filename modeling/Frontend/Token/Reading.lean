import Frontend.Token.Leading
import Frontend.Source.Cursor

/-!
# Reading tokens at a cursor

`Cursor.token` reads the token at a cursor and leaves the cursor after it. `Cursor.tokens` does
so again and again, passing over characters of a class in between, until the text ends; illegal
tokens and comments are kept, nothing stops it earlier.
-/

namespace Frontend

/-- Why no token can be read. -/
inductive ReadingError where
  /-- The cursor is at the end of the text. -/
  | atEnd
  deriving DecidableEq, Repr

/-- The text of an error. -/
def ReadingError.message : ReadingError → String
  | atEnd => "the iterator argument is at the end of the source code."

namespace Cursor

/-- Reads the token at the cursor. At the end of the text the cursor stays where it is. -/
def token (c : Cursor) : Except ReadingError Token × Cursor :=
  match Scan.leading? c.rest with
  | none => (.error .atEnd, c)
  | some scan => (.ok ⟨scan.cls, c.offset, scan.text⟩, c.advance scan.text.length)

/-- Passing a character leaves the text behind it. -/
theorem rest_next (c : Cursor) : c.next.rest = c.rest.tail := by
  unfold next
  split <;> simp [*]

/-- Passing several characters leaves the text behind them. -/
theorem rest_advance (n : Nat) (c : Cursor) : (c.advance n).rest = c.rest.drop n := by
  induction n generalizing c with
  | zero => rfl
  | succ n ih => rw [advance, ih, rest_next, List.drop_tail]

/-- Walking over a class leaves what is left after its longest run. -/
theorem rest_walk (p : Char → Bool) (c : Cursor) : (c.walk p).rest = c.rest.dropWhile p := by
  rw [walk, rest_advance]
  conv => lhs; arg 2; rw [← List.takeWhile_append_dropWhile (p := p) (l := c.rest)]
  exact List.drop_left

/-- Reading a token leaves less text. -/
theorem length_rest_token {c after : Cursor} {t : Token} (h : c.token = (.ok t, after)) :
    after.rest.length < c.rest.length := by
  unfold token at h
  split at h
  · simp at h
  · rename_i scan hscan
    obtain ⟨-, rfl⟩ : _ ∧ c.advance scan.text.length = after := by simpa using h
    rw [rest_advance, List.length_drop]
    cases hrest : c.rest with
    | nil => simp [hrest, Scan.leading?] at hscan
    | cons x t =>
      obtain rfl : Scan.leading x t = scan := by simpa [hrest, Scan.leading?] using hscan
      have := List.length_pos_iff.mpr (Scan.leading_text_ne_nil x t)
      simp only [List.length_cons]
      omega

/-- Every token from the cursor on, each with the cursor after it, and the cursor that is left.
Characters of the class are passed over before each token. -/
def tokens (skip : Char → Bool) (c : Cursor) : List (Token × Cursor) × Cursor :=
  match _h : (c.walk skip).token with
  | (.error _, last) => ([], last)
  | (.ok t, after) =>
    let others := tokens skip after
    ((t, after) :: others.1, others.2)
termination_by c.rest.length
decreasing_by
  have hlt := length_rest_token _h
  have hle := (List.dropWhile_sublist skip (l := c.rest)).length_le
  rw [← rest_walk] at hle
  omega

end Cursor

/-- Every token of a text, illegal ones and comments included, where white space and line feeds
are passed over. -/
def bestEffort (t : Text) : List Token :=
  ((Cursor.ofText t).tokens fun c => isBlank c || c = '\n').1.map Prod.fst

end Frontend
