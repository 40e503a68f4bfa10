import Frontend.Proofs.Source.Spans

/-!
# Locations are counted

A file finds a location by searching its line table. The lines tile the text in order, so those that
end by an offset come first, and it makes no difference how the search goes about it. What it finds
is what counting finds: line feeds for the line, characters since the last of them for the column.
Counting goes up from every place to the next, so no two places share a location.
-/

namespace Frontend

/-- The lines of a text from an offset on, told by their breaks: a line feed, or a carriage return
and a line feed in one. A carriage return alone breaks no line. -/
def lineRangesByBreak (start offset : Nat) : Text → List LineRange
  | [] => [⟨start, offset⟩]
  | '\r' :: '\n' :: t => ⟨start, offset + 2⟩ :: lineRangesByBreak (offset + 2) (offset + 2) t
  | c :: t =>
    if c = '\n' then ⟨start, offset + 1⟩ :: lineRangesByBreak (offset + 1) (offset + 1) t
    else lineRangesByBreak start (offset + c.utf8Size) t

/-- Splitting after every line feed gives the same lines, because a carriage return takes one byte
and no line ends between it and the line feed. -/
theorem lineRangesFrom_eq_byBreak (start offset : Nat) (t : Text) :
    lineRangesFrom start offset t = lineRangesByBreak start offset t := by
  fun_induction lineRangesByBreak start offset t with
  | case1 start offset => rfl
  | case2 start offset t ih =>
    rw [lineRangesFrom, if_neg (by decide), lineRangesFrom, if_pos rfl]
    exact congrArg (_ :: ·) ih
  | case3 start offset t hreturn ih =>
    rw [lineRangesFrom, if_pos rfl]
    exact congrArg (_ :: ·) ih
  | case4 start offset c t hreturn hfeed ih =>
    rw [lineRangesFrom, if_neg hfeed]
    exact ih

/-- The lines follow each other without a gap, from one offset to another. -/
def Tiles (lo : Nat) : List LineRange → Nat → Prop
  | [], hi => lo = hi
  | range :: later, hi => range.start = lo ∧ lo ≤ range.stop ∧ Tiles range.stop later hi

/-- The lines of a text tile it. The first of them may have started earlier. -/
theorem tiles_lineRangesFrom {start offset : Nat} (hstart : start ≤ offset) (t : Text) :
    Tiles start (lineRangesFrom start offset t) (offset + Text.size t) := by
  induction t generalizing start offset with
  | nil => exact ⟨rfl, hstart, rfl⟩
  | cons c t ih =>
    rw [lineRangesFrom, Text.size_cons, ← Nat.add_assoc]
    by_cases hfeed : c = '\n'
    · rw [if_pos hfeed]
      have hnext : start ≤ offset + c.utf8Size := Nat.le_add_right_of_le hstart
      exact ⟨rfl, hnext, ih (Nat.le_refl _)⟩
    · rw [if_neg hfeed]
      exact ih (by omega)

namespace Tiles

variable {lo hi : Nat} {ranges : List LineRange}

/-- No line ends before the first one starts. -/
theorem le_stop (h : Tiles lo ranges hi) : ∀ range ∈ ranges, lo ≤ range.stop := by
  induction ranges generalizing lo with
  | nil => exact fun range hrange => absurd hrange List.not_mem_nil
  | cons first later ih =>
    obtain ⟨-, hle, hlater⟩ := h
    intro range hrange
    rcases List.mem_cons.mp hrange with rfl | hrange
    · exact hle
    · have hstop := ih hlater range hrange
      omega

/-- Behind the lines that end by an offset there is none that does. -/
theorem lt_stop_of_mem_dropWhile (h : Tiles lo ranges hi) (offset : Nat) :
    ∀ range ∈ ranges.dropWhile (fun range => range.stop ≤ offset), offset < range.stop := by
  induction ranges generalizing lo with
  | nil => exact fun range hrange => absurd hrange List.not_mem_nil
  | cons first later ih =>
    obtain ⟨-, -, hlater⟩ := h
    by_cases hended : first.stop ≤ offset
    · rw [List.dropWhile_cons_of_pos (by simpa using hended)]
      exact ih hlater
    · rw [List.dropWhile_cons_of_neg (by simpa using hended)]
      intro range hrange
      rcases List.mem_cons.mp hrange with rfl | hrange
      · omega
      · have hstop := hlater.le_stop range hrange
        omega

end Tiles

namespace Text

/-- Characters that are no line feeds go on with the last line. -/
theorem lastLine_append {back : Text} (h : '\n' ∉ back) (front : Text) :
    lastLine (front ++ back) = lastLine front ++ back := by
  induction back using List.reverseRecOn with
  | nil => simp
  | append_singleton back c ih =>
    have hback : '\n' ∉ back := fun hmem => h (List.mem_append_left _ hmem)
    have hc : c ≠ '\n' := by
      rintro rfl
      exact h (List.mem_append_right _ List.mem_cons_self)
    rw [← List.append_assoc, lastLine_concat hc, ih hback, List.append_assoc]

end Text

namespace Location

/-- Every character counts: what comes after more text is located later. -/
theorem after_before_after_append (before : Text) {part : Text} (h : part ≠ []) :
    (after before).Before (after (before ++ part)) := by
  by_cases hfeed : '\n' ∈ part
  · left
    have hcount := List.count_pos_iff.mpr hfeed
    simp only [after, List.count_append]
    omega
  · right
    have hlength := List.length_pos_iff.mpr h
    have hcount := List.count_eq_zero.mpr hfeed
    constructor
    · simp only [after, List.count_append]
      omega
    · simp only [after, Text.lastLine_append hfeed, List.length_append]
      omega

/-- What is located earlier is located elsewhere. -/
theorem Before.ne {a b : Location} (h : a.Before b) : a ≠ b := by
  rintro rfl
  rcases h with hline | ⟨-, hcolumn⟩
  · omega
  · omega

end Location

namespace SourceFile

variable {file : SourceFile} {i j : Nat} {l m : Location}

/-- A file has locations for places in its content only. -/
theorem exists_append_of_location? (h : file.location? i = some l) :
    ∃ before after, file.content = before ++ after ∧ Text.size before = i ∧
      l = Location.after before := by
  have hboundary : Text.isBoundary i file.content = true := by
    unfold location? at h
    split at h
    · assumption
    · exact nomatch h
  obtain ⟨before, after, hcontent, rfl⟩ := Text.exists_append_of_isBoundary hboundary
  have hlocation := location?_size hcontent
  exact ⟨before, after, hcontent, rfl, Option.some.inj (h.symm.trans hlocation)⟩

/-- Of two places, the first is located first. -/
theorem before_of_location? (hi : file.location? i = some l) (hj : file.location? j = some m)
    (hlt : i < j) : l.Before m := by
  obtain ⟨front, back, hcontent, rfl, rfl⟩ := exists_append_of_location? hi
  obtain ⟨front', back', hcontent', rfl, rfl⟩ := exists_append_of_location? hj
  rcases List.append_eq_append_iff.mp (hcontent.symm.trans hcontent') with
    ⟨part, rfl, -⟩ | ⟨part, rfl, -⟩
  · refine Location.after_before_after_append front ?_
    rintro rfl
    rw [List.append_nil] at hlt
    exact absurd hlt (Nat.lt_irrefl _)
  · -- the part before the second place would be the longer one
    rw [Text.size_append] at hlt
    omega

/-- What holds of the locations of a file. -/
structure LocationsCounted (file : SourceFile) : Prop where
  /-- The line table is the one that is told by the breaks of the lines, and it tiles the content. -/
  table : file.lines = lineRangesByBreak 0 0 file.content ∧
    Tiles 0 file.lines (Text.size file.content)
  /-- The lines that end by an offset come before all others, as a search by halves requires. -/
  searchable : ∀ i, ∀ range ∈ file.lines.dropWhile (fun range => range.stop ≤ i), i < range.stop
  /-- The offsets with a location are the places in the content. -/
  isSome_iff : ∀ i, (file.location? i).isSome = true ↔
    i ≤ Text.size file.content ∧
      ∃ before after, file.content = before ++ after ∧ Text.size before = i
  /-- The line counts the line feeds before a place, the column the characters since the last. -/
  counted : ∀ before after, file.content = before ++ after →
    file.location? (Text.size before) =
      some ⟨1 + before.count '\n', 1 + (before.rtakeWhile (· ≠ '\n')).length⟩
  /-- Of two places, the first is located first. -/
  increasing : ∀ i j l m, file.location? i = some l → file.location? j = some m → i < j →
    l.Before m
  /-- No two places share a location. -/
  injective : ∀ i j l, file.location? i = some l → file.location? j = some l → i = j

/-- **Searching the line table is counting.** The offsets with a location are the places in the
content, and their lines and columns are counted from what stands before them. -/
theorem locationsCounted (file : SourceFile) : file.LocationsCounted where
  table := by
    refine ⟨lineRangesFrom_eq_byBreak 0 0 file.content, ?_⟩
    have htiles := tiles_lineRangesFrom (Nat.le_refl 0) file.content
    rwa [Nat.zero_add] at htiles
  searchable := (tiles_lineRangesFrom (Nat.le_refl 0) file.content).lt_stop_of_mem_dropWhile
  isSome_iff i := by
    constructor
    · intro h
      obtain ⟨l, hl⟩ := Option.isSome_iff_exists.mp h
      obtain ⟨before, after, hcontent, hsize, -⟩ := exists_append_of_location? hl
      refine ⟨?_, before, after, hcontent, hsize⟩
      rw [hcontent, Text.size_append]
      omega
    · rintro ⟨-, before, after, hcontent, rfl⟩
      rw [location?_size hcontent]
      rfl
  counted before after hcontent := by
    rw [location?_size hcontent, Location.after, Text.lastLine, Nat.add_comm,
      Nat.add_comm (List.length _)]
  increasing i j l m hi hj hlt := before_of_location? hi hj hlt
  injective i j l hi hj := by
    rcases Nat.lt_trichotomy i j with hlt | heq | hgt
    · exact absurd rfl (before_of_location? hi hj hlt).ne
    · exact heq
    · exact absurd rfl (before_of_location? hj hi hgt).ne

/-- A character of two bytes, both halves of a line break, and a carriage return alone at the end:
offset 1 is inside the first character, 3 is between the halves, 6 is the end. -/
theorem locationsCounted_returns :
    let file := SourceFile.ofText "a" ['é', '\r', '\n', 'x', '\r']
    file.location? 1 = none ∧ file.location? 3 = some ⟨1, 3⟩ ∧
      file.location? 6 = some ⟨2, 3⟩ ∧ file.location? 7 = none ∧
      Location.Before ⟨1, 3⟩ ⟨2, 3⟩ := by
  intro file
  have hcounted := locationsCounted file
  have hreturn : file.location? 3 = some ⟨1, 3⟩ :=
    hcounted.counted ['é', '\r'] ['\n', 'x', '\r'] rfl
  have hend : file.location? 6 = some ⟨2, 3⟩ :=
    hcounted.counted ['é', '\r', '\n', 'x', '\r'] [] rfl
  refine ⟨by decide, hreturn, hend, by decide, ?_⟩
  exact hcounted.increasing 3 6 _ _ hreturn hend (by decide)

end SourceFile

end Frontend
