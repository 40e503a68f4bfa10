import Frontend.Proofs.Stream.BestEffort

/-!
# Cursors that are reached

A cursor starts at the beginning of a text and is only moved by its operations. Whatever sequence of
them led to it, it is a cursor in the text: what it has passed and what is left make up the text,
its offset is the size of what it has passed, and the character it remembers is the last of that.
-/

namespace Frontend

namespace Cursor

/-- The cursors that can be reached in a text. -/
inductive Reached (t : Text) : Cursor → Prop
  | start : Reached t (ofText t)
  | next {c : Cursor} (h : Reached t c) : Reached t c.next
  | nextIfEq (expected : Char) {c : Cursor} (h : Reached t c) : Reached t (c.nextIfEq expected).2
  | walk (p : Char → Bool) {c : Cursor} (h : Reached t c) : Reached t (c.walk p)
  | token {c : Cursor} (h : Reached t c) : Reached t c.token.2

variable {t : Text} {c : Cursor}

/-- A cursor at the start of a text is in it. -/
theorem in_ofText (t : Text) : (ofText t).In t :=
  ⟨[], rfl, rfl, fun _ _ h => nomatch h⟩

/-- Passing a character keeps a cursor in its text. -/
theorem In.next (h : c.In t) : c.next.In t := by
  obtain ⟨passed, ht, hoffset, hprev⟩ := h
  cases hrest : c.rest with
  | nil =>
    have hsame : c.next = c := by simp only [Cursor.next, hrest]
    rw [hsame]
    exact ⟨passed, ht, hoffset, hprev⟩
  | cons x rest =>
    have hnext : c.next = ⟨c.offset + x.utf8Size, some (c.offset, x), rest⟩ := by
      simp only [Cursor.next, hrest]
    rw [hnext]
    refine ⟨passed ++ [x], ?_, ?_, ?_⟩
    · rw [ht, hrest, List.append_assoc]
      rfl
    · rw [Text.size_append, Text.size_cons, Text.size_nil, Nat.add_zero, hoffset]
    · intro at_ y hy
      obtain ⟨rfl, rfl⟩ : c.offset = at_ ∧ x = y := by simpa using hy
      exact ⟨passed, rfl, hoffset⟩

/-- Passing several characters keeps a cursor in its text. -/
theorem In.advance (h : c.In t) (n : Nat) : (c.advance n).In t := by
  induction n generalizing c with
  | zero => exact h
  | succ n ih => exact ih h.next

/-- Reading a token keeps a cursor in its text. -/
theorem In.token (h : c.In t) : c.token.2.In t := by
  unfold Cursor.token
  split
  · exact h
  · exact h.advance _

/-- A cursor that is reached in a text is in it. -/
theorem Reached.inText (h : Reached t c) : c.In t := by
  induction h with
  | start => exact in_ofText t
  | next h ih => exact ih.next
  | nextIfEq expected h ih =>
    unfold Cursor.nextIfEq
    split
    · exact ih.next
    · exact ih
  | walk p h ih => exact ih.advance _
  | token h ih => exact ih.token

/-- The token that is read at a cursor stands between the offsets before and after it. -/
theorem In.between_token (h : c.In t) {x : Token} {after : Cursor}
    (htoken : c.token = (.ok x, after)) :
    x.start = c.offset ∧ x.stop = after.offset ∧ Text.Between t x.start x.stop x.text := by
  obtain ⟨passed, ht, hoffset, -⟩ := h
  rcases c.token_eq with ⟨-, hread⟩ | ⟨y, rest, after', hrest, hread, -, hafter⟩
  · rw [htoken] at hread
    exact nomatch hread
  · obtain ⟨hx, rfl⟩ := Prod.mk.inj (htoken.symm.trans hread)
    obtain rfl := Except.ok.inj hx
    have happend : (Scan.leading y rest).text ++ (Scan.leading y rest).rest = y :: rest :=
      Scan.leading_of y rest
    refine ⟨rfl, hafter.symm, passed, (Scan.leading y rest).rest, ?_, hoffset.symm, rfl⟩
    rw [ht, hrest, ← happend, List.append_assoc]
    rfl

end Cursor

end Frontend
