import Mathlib.Data.List.DropRight
import Frontend.Proofs.Text.Between

/-!
# Locations without a line table

A place in a text is known by what stands before it: its line is one more than the line feeds there,
and its column one more than the characters since the last of them. `Location.after` says so, and
the line table, which is searched for the first line that ends later, finds the same location.
-/

namespace Frontend

namespace Text

/-- What stands after the last line feed of a text. -/
def lastLine (t : Text) : Text :=
  t.rtakeWhile (· ≠ '\n')

/-- Nothing stands after a line feed at the end. -/
@[simp] theorem lastLine_concat_feed (t : Text) : lastLine (t ++ ['\n']) = [] :=
  List.rtakeWhile_concat_neg _ _ _ (by simp)

/-- A character that is no line feed goes on with the last line. -/
theorem lastLine_concat {c : Char} (h : c ≠ '\n') (t : Text) :
    lastLine (t ++ [c]) = lastLine t ++ [c] :=
  List.rtakeWhile_concat_pos _ _ _ (by simpa using h)

/-- A text without line feeds is a last line. -/
theorem lastLine_eq_self {t : Text} (h : '\n' ∉ t) : lastLine t = t := by
  apply List.rtakeWhile_eq_self_iff.mpr
  intro c hc
  simpa using ne_of_mem_of_not_mem hc h

/-- What stands before a line feed has no bearing on the last line. -/
theorem lastLine_append_feed (front back : Text) :
    lastLine (front ++ '\n' :: back) = lastLine back := by
  induction back using List.reverseRecOn with
  | nil => exact lastLine_concat_feed front
  | append_singleton back c ih =>
    have hsplit : front ++ '\n' :: (back ++ [c]) = (front ++ '\n' :: back) ++ [c] := by simp
    rw [hsplit]
    by_cases hfeed : c = '\n'
    · rw [hfeed, lastLine_concat_feed, lastLine_concat_feed]
    · rw [lastLine_concat hfeed, lastLine_concat hfeed, ih]

/-- The last line is the end of its text. -/
theorem exists_eq_append_lastLine (t : Text) : ∃ front, t = front ++ lastLine t :=
  ⟨t.rdropWhile (· ≠ '\n'), List.rdropWhile_append_rtakeWhile.symm⟩

/-- A text up to its first line feed, which belongs to it. -/
def throughFeed : Text → Text
  | [] => []
  | c :: t => if c = '\n' then [c] else c :: throughFeed t

/-- A text goes on behind its first line feed. -/
theorem exists_eq_throughFeed_append (t : Text) : ∃ back, t = throughFeed t ++ back := by
  induction t with
  | nil => exact ⟨[], rfl⟩
  | cons c t ih =>
    rw [throughFeed]
    by_cases hfeed : c = '\n'
    · exact ⟨t, by rw [if_pos hfeed]; rfl⟩
    · obtain ⟨back, hback⟩ := ih
      refine ⟨back, ?_⟩
      rw [if_neg hfeed, List.cons_append, ← hback]

/-- A text without line feeds goes on up to the first one behind it. -/
theorem throughFeed_append {t : Text} (h : '\n' ∉ t) (back : Text) :
    throughFeed (t ++ back) = t ++ throughFeed back := by
  induction t with
  | nil => rfl
  | cons c t ih =>
    obtain ⟨hne, ht⟩ : '\n' ≠ c ∧ '\n' ∉ t := by simpa using h
    rw [List.cons_append, throughFeed, if_neg hne.symm, ih ht, List.cons_append]

/-- Up to its first line feed, a text that starts with one has nothing but that. -/
@[simp] theorem throughFeed_feed (back : Text) : throughFeed ('\n' :: back) = ['\n'] :=
  if_pos rfl

end Text

/-- The location of what comes after a text. -/
def Location.after (before : Text) : Location :=
  ⟨before.count '\n' + 1, (Text.lastLine before).length + 1⟩

/-- The first of the lines from an offset on starts where it is said to and ends with its line feed.
It ends after the offset, unless it is the last one. -/
theorem lineRangesFrom_eq_cons (start offset : Nat) (t : Text) :
    ∃ later, lineRangesFrom start offset t =
        ⟨start, offset + Text.size (Text.throughFeed t)⟩ :: later ∧
      (0 < Text.size (Text.throughFeed t) ∨ later = []) := by
  induction t generalizing offset with
  | nil => exact ⟨[], rfl, .inr rfl⟩
  | cons c t ih =>
    have hpos := c.utf8Size_pos
    rw [lineRangesFrom, Text.throughFeed]
    by_cases hfeed : c = '\n'
    · rw [if_pos hfeed, if_pos hfeed]
      exact ⟨_, rfl, .inl (by simpa using hpos)⟩
    · rw [if_neg hfeed, if_neg hfeed]
      obtain ⟨later, hranges, -⟩ := ih (offset + c.utf8Size)
      refine ⟨later, ?_, .inl ?_⟩
      · rw [hranges, Text.size_cons, Nat.add_assoc]
      · rw [Text.size_cons]
        omega

/-- The line table around a place: a line for each line feed before it, all of them ended by then,
and the table from the place on. The first line may have started with some text of its own. -/
theorem lineRangesFrom_split {start offset : Nat} (line : Text) (hline : '\n' ∉ line)
    (hstart : start + Text.size line = offset) (before after : Text) :
    ∃ ended current,
      lineRangesFrom start offset (before ++ after) =
        ended ++ lineRangesFrom current (offset + Text.size before) after ∧
      ended.length = before.count '\n' ∧
      (∀ range ∈ ended, range.stop ≤ offset + Text.size before) ∧
      current + Text.size (Text.lastLine (line ++ before)) = offset + Text.size before := by
  induction before generalizing start offset line with
  | nil =>
    refine ⟨[], start, rfl, rfl, fun range h => absurd h List.not_mem_nil, ?_⟩
    rw [List.append_nil, Text.lastLine_eq_self hline]
    exact hstart
  | cons c before ih =>
    rw [List.cons_append, lineRangesFrom, Text.size_cons, ← Nat.add_assoc]
    by_cases hfeed : c = '\n'
    · subst hfeed
      -- a new line starts behind the line feed
      obtain ⟨ended, current, hranges, hlength, hended, hcurrent⟩ :=
        ih [] List.not_mem_nil (Nat.add_zero (offset + '\n'.utf8Size))
      refine ⟨⟨start, offset + '\n'.utf8Size⟩ :: ended, current, ?_, ?_, ?_, ?_⟩
      · rw [if_pos rfl, hranges]
        rfl
      · rw [List.length_cons, hlength, List.count_cons_self]
      · intro range hrange
        rcases List.mem_cons.mp hrange with rfl | hrange
        · exact Nat.le_add_right _ _
        · exact hended range hrange
      · rw [Text.lastLine_append_feed]
        exact hcurrent
    · have hline' : '\n' ∉ line ++ [c] := by simp [hline, Ne.symm hfeed]
      have hstart' : start + Text.size (line ++ [c]) = offset + c.utf8Size := by
        rw [Text.size_append, Text.size_cons, Text.size_nil]
        omega
      obtain ⟨ended, current, hranges, hlength, hended, hcurrent⟩ := ih _ hline' hstart'
      refine ⟨ended, current, ?_, ?_, hended, ?_⟩
      · rw [if_neg hfeed, hranges]
      · rw [hlength, List.count_cons_of_ne hfeed]
      · rw [List.append_assoc] at hcurrent
        exact hcurrent

/-- The line of a place stands behind the lines that have ended by then, and it ends after the place
unless it is the last one. -/
theorem lineRangesFrom_append {start offset : Nat} (line : Text) (hline : '\n' ∉ line)
    (hstart : start + Text.size line = offset) (before after : Text) :
    ∃ ended current later,
      lineRangesFrom start offset (before ++ after) = ended ++ current :: later ∧
      ended.length = before.count '\n' ∧
      (∀ range ∈ ended, range.stop ≤ offset + Text.size before) ∧
      current.start + Text.size (Text.lastLine (line ++ before)) = offset + Text.size before ∧
      (offset + Text.size before < current.stop ∨ later = []) := by
  obtain ⟨ended, current, hranges, hlength, hended, hcurrent⟩ :=
    lineRangesFrom_split line hline hstart before after
  obtain ⟨later, hlater, hlast⟩ :=
    lineRangesFrom_eq_cons current (offset + Text.size before) after
  rw [hlater] at hranges
  refine ⟨ended, _, later, hranges, hlength, hended, hcurrent, hlast.imp_left fun hpos => ?_⟩
  exact Nat.lt_add_of_pos_right hpos

/-- In a list whose beginning passes a test, and whose next element fails it or is the last, the
elements that pass are those of the beginning, up to the last element. -/
private theorem min_length_takeWhile {α : Type} {p : α → Bool} {ended later : List α} {current : α}
    (hended : ∀ x ∈ ended, p x = true) (hlast : p current = false ∨ later = []) :
    min ((ended ++ current :: later).takeWhile p).length
        ((ended ++ current :: later).length - 1) = ended.length := by
  rw [List.takeWhile_append_of_pos hended, List.length_append, List.length_append,
    List.length_cons]
  rcases hlast with hfails | rfl
  · rw [List.takeWhile_cons_of_neg (by simp [hfails]), List.length_nil]
    omega
  · rw [List.length_nil]
    omega

namespace SourceFile

/-- The location of a place is that of what comes after the text before it. -/
theorem location?_size {file : SourceFile} {before after : Text}
    (h : file.content = before ++ after) :
    file.location? (Text.size before) = some (Location.after before) := by
  obtain ⟨ended, current, later, hranges, hlength, hended, hcurrent, hlast⟩ :=
    lineRangesFrom_append [] List.not_mem_nil (Nat.add_zero 0) before after
  rw [Nat.zero_add] at hended hcurrent hlast
  have hlines : file.lines = ended ++ current :: later := by
    rw [lines, lineRanges, h, hranges]
  -- the lines that end at the offset or before it are the ended ones, and at the end of the
  -- text also the current one, which is the last
  have hindex : min (file.lines.takeWhile fun range => range.stop ≤ Text.size before).length
      (file.lines.length - 1) = before.count '\n' := by
    rw [hlines, ← hlength]
    apply min_length_takeWhile
    · intro range hrange
      simpa using hended range hrange
    · rcases hlast with hlater | hnil
      · exact .inl (by simpa using hlater)
      · exact .inr hnil
  have hstart : (file.lines[before.count '\n']?.map LineRange.start).getD 0 = current.start := by
    rw [hlines, ← hlength, List.getElem?_append_right (Nat.le_refl _), Nat.sub_self]
    rfl
  have hslice : Text.slice file.content current.start (Text.size before) =
      Text.lastLine before := by
    obtain ⟨front, hfront⟩ := Text.exists_eq_append_lastLine before
    have hsize := congrArg Text.size hfront
    rw [Text.size_append] at hsize
    rw [List.nil_append] at hcurrent
    have hbetween : Text.Between file.content current.start (Text.size before)
        (Text.lastLine before) :=
      ⟨front, after, by rw [h, ← hfront], by omega, hcurrent⟩
    exact hbetween.slice_eq
  have hboundary : Text.isBoundary (Text.size before) file.content = true := by
    rw [h]
    exact Text.isBoundary_size_append before after
  rw [location?, if_pos hboundary]
  simp only [hindex, hstart, hslice]
  rfl

/-- The line of a place starts behind the last line feed before it and ends with the next one. -/
theorem exists_range {file : SourceFile} {before after : Text}
    (h : file.content = before ++ after) :
    ∃ range, file.lines[before.count '\n']? = some range ∧
      range.start + Text.size (Text.lastLine before) = Text.size before ∧
      range.stop = Text.size before + Text.size (Text.throughFeed after) := by
  obtain ⟨ended, current, hranges, hlength, -, hcurrent⟩ :=
    lineRangesFrom_split [] List.not_mem_nil (Nat.add_zero 0) before after
  rw [Nat.zero_add] at hranges hcurrent
  obtain ⟨later, hlater, -⟩ := lineRangesFrom_eq_cons current (Text.size before) after
  refine ⟨⟨current, Text.size before + Text.size (Text.throughFeed after)⟩, ?_, hcurrent, rfl⟩
  rw [lines, lineRanges, h, hranges, hlater, ← hlength,
    List.getElem?_append_right (Nat.le_refl _), Nat.sub_self]
  rfl

/-- The text of the line of a place. -/
theorem line?_eq {file : SourceFile} {before after : Text} (h : file.content = before ++ after) :
    file.line? (before.count '\n' + 1) =
      some (Text.lastLine before ++ Text.throughFeed after) := by
  obtain ⟨range, hrange, hstart, hstop⟩ := exists_range h
  obtain ⟨front, hfront⟩ := Text.exists_eq_append_lastLine before
  obtain ⟨back, hback⟩ := Text.exists_eq_throughFeed_append after
  have hbetween : Text.Between file.content range.start range.stop
      (Text.lastLine before ++ Text.throughFeed after) := by
    have hsize := congrArg Text.size hfront
    rw [Text.size_append] at hsize
    refine ⟨front, back, ?_, by omega, ?_⟩
    · calc file.content = before ++ after := h
        _ = (front ++ Text.lastLine before) ++ (Text.throughFeed after ++ back) := by
          rw [← hfront, ← hback]
        _ = front ++ (Text.lastLine before ++ Text.throughFeed after) ++ back := by
          simp only [List.append_assoc]
    · rw [Text.size_append]
      omega
  rw [line?, hrange, Option.map_some, hbetween.slice_eq]

end SourceFile

end Frontend
