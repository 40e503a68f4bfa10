import Frontend.Token.Reading

/-!
# Reading at a cursor

What a cursor reads is the leading token of the text that is left, and it is left behind the text of
the token. `Cursor.Yields` says which token that is and what is left after it, so that rules of the
scanner carry over to cursors.
-/

namespace Frontend

namespace Cursor

/-- A cursor that passes some characters is their size further on. -/
theorem offset_advance (n : Nat) (c : Cursor) :
    (c.advance n).offset = c.offset + Text.size (c.rest.take n) := by
  induction n generalizing c with
  | zero => rfl
  | succ n ih =>
    rw [advance, ih, rest_next]
    cases hrest : c.rest with
    | nil => simp [next, hrest]
    | cons x rest => simp [next, hrest, Nat.add_assoc]

/-- A cursor that walks over a class is the size of its longest run further on. -/
theorem offset_walk (p : Char → Bool) (c : Cursor) :
    (c.walk p).offset = c.offset + Text.size (c.rest.takeWhile p) := by
  have htake : c.rest.take (c.rest.takeWhile p).length = c.rest.takeWhile p :=
    List.prefix_iff_eq_take.mp (List.takeWhile_prefix p) |>.symm
  rw [walk, offset_advance, htake]

/-- What reading a token comes to: nothing at the end of the text, and otherwise the leading token
of what is left, after which the cursor stands behind the text of the token. -/
theorem token_eq (c : Cursor) :
    (c.rest = [] ∧ c.token = (.error .atEnd, c)) ∨
      ∃ x t after, c.rest = x :: t ∧
        c.token = (.ok ⟨(Scan.leading x t).cls, c.offset, (Scan.leading x t).text⟩, after) ∧
        after.rest = (Scan.leading x t).rest ∧
        after.offset = c.offset + Text.size (Scan.leading x t).text := by
  unfold token
  cases hrest : c.rest with
  | nil => exact .inl ⟨rfl, rfl⟩
  | cons x t =>
    right
    refine ⟨x, t, _, rfl, rfl, ?_, ?_⟩
    · rw [rest_advance, hrest, ← Scan.leading_of x t, List.drop_left]
    · rw [offset_advance, hrest, ← Scan.leading_of x t, List.take_left]

/-- The token at the cursor is of the class and has the text, and reading it leaves the cursor
behind that text, in front of the rest. -/
def Yields (c : Cursor) (cls : TokenClass) (text rest : Text) : Prop :=
  ∃ after, c.token = (.ok ⟨cls, c.offset, text⟩, after) ∧ after.rest = rest ∧
    after.offset = c.offset + Text.size text

/-- The cursor yields the leading token of what is left. -/
theorem yields_of_leading {c : Cursor} {x : Char} {t : Text} {s : Scan} (h : c.rest = x :: t)
    (hs : Scan.leading x t = s) : c.Yields s.cls s.text s.rest := by
  rcases c.token_eq with ⟨hnil, -⟩ | ⟨y, u, after, hrest, htoken, hafter, hoffset⟩
  · rw [h] at hnil
    exact nomatch hnil
  · obtain ⟨rfl, rfl⟩ := List.cons.inj (h.symm.trans hrest)
    subst hs
    exact ⟨after, htoken, hafter, hoffset⟩

end Cursor

end Frontend
