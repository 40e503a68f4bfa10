import Frontend.Token.Scan

/-!
# Comments

A line comment stops before the line break, be it a line feed alone or one after a carriage
return, so that the break is still there to end a statement. A delimited comment ends with the
first closing mark after its opening mark. The functions here read what follows the opening mark.
-/

namespace Frontend.Comments

/-- A line comment after its slashes. -/
def lineBody : Text → Taken
  | [] => ⟨[], []⟩
  | c :: t =>
    if c = '\n' ∨ c = '\r' ∧ t.head? = some '\n' then ⟨[], c :: t⟩
    else ⟨c :: (lineBody t).text, (lineBody t).rest⟩

/-- A delimited comment after its opening mark, or after any part of it. -/
def delimitedBody : Text → Scan
  | [] => ⟨.illegal (.unterminated .comment), [], []⟩
  | c :: t =>
    if c = '*' ∧ t.head? = some '/' then ⟨.comment .delimited, ['*', '/'], t.tail⟩
    else (delimitedBody t).prepend [c]

/-- Scanning a line comment loses nothing of the text. -/
theorem lineBody_append (t : Text) : (lineBody t).text ++ (lineBody t).rest = t := by
  induction t with
  | nil => rfl
  | cons c t ih =>
    unfold lineBody
    split
    · rfl
    · exact congrArg (c :: ·) ih

/-- Scanning a delimited comment loses nothing of the text. -/
theorem delimitedBody_of (t : Text) : (delimitedBody t).Of t := by
  induction t with
  | nil => rfl
  | cons c t ih =>
    unfold delimitedBody
    split
    · rename_i h
      obtain ⟨rfl, hslash⟩ := h
      obtain ⟨rest, rfl⟩ := List.head?_eq_some_iff.mp hslash
      rfl
    · exact ih.prepend [c]

end Frontend.Comments
