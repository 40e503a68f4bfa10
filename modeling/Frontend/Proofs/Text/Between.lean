import Mathlib.Data.Nat.Find
import Frontend.Source.Span

/-!
# Parts of a text

A part of a text stands between two offsets. The offsets settle which part it is, and they are
always places in the text, so a span between them is valid and its text is the part.
-/

namespace Frontend

namespace Text

/-- The part of a text from one offset to another. -/
def Between (t : Text) (start stop : Nat) (part : Text) : Prop :=
  ∃ before after, t = before ++ part ++ after ∧ size before = start ∧ start + size part = stop

/-- Every character takes at least one byte, so only the empty text has size zero. -/
theorem size_pos {t : Text} (h : t ≠ []) : 0 < size t := by
  obtain ⟨c, rest, rfl⟩ := List.exists_cons_of_ne_nil h
  have := c.utf8Size_pos
  rw [size_cons]
  omega

/-- A part ends where it starts or later. -/
theorem Between.le {t part : Text} {start stop : Nat} (h : Between t start stop part) :
    start ≤ stop := by
  obtain ⟨_, _, _, _, hstop⟩ := h
  omega

/-- The offsets of a part cut it out of the text. -/
theorem Between.slice_eq {t part : Text} {start stop : Nat} (h : Between t start stop part) :
    slice t start stop = part := by
  obtain ⟨before, after, rfl, rfl, rfl⟩ := h
  have hsize : size before + size part - size before = size part := by omega
  simp only [slice, List.append_assoc, splitAt?_append, hsize]

/-- Whatever stands before a character starts at the start of the text and ends there. -/
theorem isBoundary_size_append (a b : Text) : isBoundary (size a) (a ++ b) := by
  rw [isBoundary, splitAt?_append, Option.isSome_some]

/-- Of the ways to split a text that have some property, one has the shortest front. -/
theorem exists_shortest {P : Text → Text → Prop} (h : ∃ front back, P front back) :
    ∃ front back, P front back ∧ ∀ front' back', P front' back' → front.length ≤ front'.length := by
  classical
  have hsome : ∃ n, ∃ front back, P front back ∧ front.length = n := by
    obtain ⟨front, back, hsplit⟩ := h
    exact ⟨_, front, back, hsplit, rfl⟩
  obtain ⟨front, back, hsplit, hlength⟩ := Nat.find_spec hsome
  refine ⟨front, back, hsplit, ?_⟩
  intro front' back' hsplit'
  rw [hlength]
  exact Nat.find_min' hsome ⟨front', back', hsplit', rfl⟩

end Text

/-- The span of a part of the content of a file is valid. -/
theorem Text.Between.valid {file : SourceFile} {start stop : Nat} {part : Text}
    (h : Text.Between file.content start stop part) : Span.Valid ⟨file, start, stop⟩ := by
  obtain ⟨before, after, htext, hstart, hstop⟩ := h
  refine ⟨by dsimp only; omega, ?_, ?_⟩
  · rw [htext, List.append_assoc, ← hstart]
    exact Text.isBoundary_size_append _ _
  · rw [htext, ← hstop, ← hstart, ← Text.size_append]
    exact Text.isBoundary_size_append _ _

end Frontend
