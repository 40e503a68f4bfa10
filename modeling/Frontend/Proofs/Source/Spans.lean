import Frontend.Proofs.Source.Location

/-!
# Valid spans

A valid span is a part of its file: its text is what stands between its bounds, and it starts at a
location. The checks of `ofBounds?` look at both bounds, `join?` compares two of them only; between
valid spans of one file there is no difference.
-/

namespace Frontend

namespace Text

variable {t : Text} {n : Nat}

/-- A place in a text stands behind some part of it. -/
theorem exists_append_of_isBoundary (h : isBoundary n t = true) :
    ∃ before after, t = before ++ after ∧ size before = n := by
  obtain ⟨⟨before, after⟩, hsplit⟩ := Option.isSome_iff_exists.mp h
  exact ⟨before, after, splitAt?_eq_some hsplit⟩

/-- No place in a text is past its end. -/
theorem le_size_of_isBoundary (h : isBoundary n t = true) : n ≤ size t := by
  obtain ⟨before, after, rfl, rfl⟩ := exists_append_of_isBoundary h
  rw [size_append]
  omega

/-- Between two places there is a part of the text. -/
theorem exists_between {start stop : Nat} (hle : start ≤ stop) (hstart : isBoundary start t = true)
    (hstop : isBoundary stop t = true) : ∃ part, Between t start stop part := by
  obtain ⟨front, back, rfl, rfl⟩ := exists_append_of_isBoundary hstart
  obtain ⟨before, after, heq, rfl⟩ := exists_append_of_isBoundary hstop
  rcases List.append_eq_append_iff.mp heq with ⟨part, rfl, rfl⟩ | ⟨part, rfl, -⟩
  · refine ⟨part, front, after, ?_, rfl, ?_⟩
    · rw [List.append_assoc]
    · rw [size_append]
  · -- the first part is not larger than the second, so it is not longer either
    have hnil : part = [] := by
      by_contra hne
      have hpos := size_pos hne
      rw [size_append] at hle
      omega
    subst hnil
    exact ⟨[], before, back, by simp, by simp, by simp⟩

/-- A part of a part is a part. -/
theorem Between.sub {start stop : Nat} {front part back : Text}
    (h : Between t start stop (front ++ part ++ back)) :
    Between t (start + size front) (start + size front + size part) part := by
  obtain ⟨before, after, ht, hstart, -⟩ := h
  refine ⟨before ++ front, back ++ after, ?_, ?_, rfl⟩
  · rw [ht]
    simp only [List.append_assoc]
  · rw [size_append, hstart]

end Text

namespace Span

variable {s a b : Span}

/-- The text of a valid span is what stands between its bounds. -/
theorem Valid.between (h : s.Valid) : Text.Between s.file.content s.start s.stop s.text := by
  obtain ⟨hle, hstart, hstop⟩ := h
  obtain ⟨part, hpart⟩ := Text.exists_between hle hstart hstop
  have htext : s.text = part := hpart.slice_eq
  rw [htext]
  exact hpart

/-- A valid span stops in its file. -/
theorem Valid.stop_le (h : s.Valid) : s.stop ≤ Text.size s.file.content :=
  Text.le_size_of_isBoundary h.2.2

/-- A valid span starts at the location behind what stands before it. -/
theorem Valid.exists_location (h : s.Valid) :
    ∃ l, s.file.location? s.start = some l ∧ s.position = ⟨s.file.name, l⟩ ∧
      1 ≤ l.line ∧ 1 ≤ l.column := by
  obtain ⟨before, after, hcontent, hstart⟩ := Text.exists_append_of_isBoundary h.2.1
  have hlocation := SourceFile.location?_size hcontent
  rw [hstart] at hlocation
  refine ⟨Location.after before, hlocation, ?_, ?_, ?_⟩
  · rw [position, hlocation]
    rfl
  · exact Nat.le_add_left 1 _
  · exact Nat.le_add_left 1 _

/-- The span between valid bounds is made. -/
theorem ofBounds?_of_valid {file : SourceFile} {start stop : Nat}
    (h : Valid ⟨file, start, stop⟩) : ofBounds? file start stop = some ⟨file, start, stop⟩ :=
  if_pos h

/-- Joining valid spans of one file is checking the bounds that they give. -/
theorem Valid.join?_eq (ha : a.Valid) (hb : b.Valid) (hfile : b.file = a.file) :
    a.join? b = ofBounds? a.file a.start b.stop := by
  have hiff : (a.file.origin = b.file.origin ∧ a.start ≤ b.stop) ↔
      Valid ⟨a.file, a.start, b.stop⟩ := by
    constructor
    · rintro ⟨-, hle⟩
      have hstop := hb.2.2
      rw [hfile] at hstop
      exact ⟨hle, ha.2.1, hstop⟩
    · rintro ⟨hle, -, -⟩
      exact ⟨by rw [hfile], hle⟩
  rw [join?, ofBounds?]
  by_cases hvalid : Valid ⟨a.file, a.start, b.stop⟩
  · rw [if_pos (hiff.mpr hvalid), if_pos hvalid]
  · rw [if_neg (fun h => hvalid (hiff.mp h)), if_neg hvalid]

end Span

end Frontend
