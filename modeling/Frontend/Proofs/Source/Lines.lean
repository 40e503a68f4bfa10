import Frontend.Proofs.Source.LineTable

/-!
# Lines partition the content

The line table says where each line of a file stands, its line break included. Cut out one after the
other, the lines give the content back: every line but the last is ended by the only line feed in
it, and the last has none. So the bounds of the lines are the ends of the content and the places
behind its line feeds, and behind a carriage return there is none of them.
-/

namespace Frontend

namespace Text

/-- A text cut into lines: the line feed that ends a line is the only one in it, and there is none
in the last line. -/
inductive Lines : Text → List Text → Prop
  | last {line : Text} (h : '\n' ∉ line) : Lines line [line]
  | feed {line t : Text} {later : List Text} (h : '\n' ∉ line) (others : Lines t later) :
      Lines (line ++ '\n' :: t) ((line ++ ['\n']) :: later)

/-- A place in a text right behind a character. -/
def Behind (c : Char) (t : Text) (offset : Nat) : Prop :=
  ∃ before after, t = before ++ c :: after ∧ size before + c.utf8Size = offset

namespace Lines

variable {t line : Text} {lines : List Text} {n : Nat}

/-- The lines of a text put together are the text. -/
theorem flatten_eq (h : Lines t lines) : lines.flatten = t := by
  induction h with
  | last => simp
  | feed _ _ ih => rw [List.flatten_cons, ih, List.append_assoc, List.singleton_append]

/-- There is a line for each line feed, and the last one. -/
theorem length_eq (h : Lines t lines) : lines.length = 1 + t.count '\n' := by
  induction h with
  | last hline => rw [List.count_eq_zero.mpr hline, List.length_singleton]
  | feed hline _ ih =>
    rw [List.length_cons, ih, List.count_append, List.count_eq_zero.mpr hline,
      List.count_cons_self]
    omega

/-- A line that is not the last is ended by its only line feed. -/
theorem exists_feed (h : Lines t lines) (hn : n + 1 < lines.length)
    (hline : lines[n]? = some line) : ∃ body, line = body ++ ['\n'] ∧ '\n' ∉ body := by
  induction h generalizing n with
  | last => simp at hn
  | @feed body _ _ hbody _ ih =>
    cases n with
    | zero => exact ⟨body, (Option.some.inj hline).symm, hbody⟩
    | succ n => exact ih (Nat.lt_of_succ_lt_succ hn) hline

/-- The last line has no line feed. -/
theorem notMem_last (h : Lines t lines) (hn : n + 1 = lines.length)
    (hline : lines[n]? = some line) : '\n' ∉ line := by
  induction h generalizing n with
  | last hlast =>
    obtain rfl : n = 0 := Nat.succ.inj hn
    obtain rfl := Option.some.inj hline
    exact hlast
  | feed _ others ih =>
    cases n with
    | zero =>
      -- there are lines behind the first
      have hlength := others.length_eq
      rw [List.length_cons] at hn
      omega
    | succ n => exact ih (Nat.succ.inj hn) hline

end Lines

namespace Behind

variable {c d : Char} {t : Text} {offset : Nat}

/-- The place behind a character is not the start of the text. -/
theorem pos (h : Behind c t offset) : 0 < offset := by
  obtain ⟨before, after, -, rfl⟩ := h
  have := c.utf8Size_pos
  omega

/-- A place stands right behind one character. -/
theorem unique (h : Behind c t offset) (h' : Behind d t offset) : c = d := by
  obtain ⟨before, after, rfl, hsize⟩ := h
  obtain ⟨before', after', ht, hsize'⟩ := h'
  have hsplit := splitAt?_append (before ++ [c]) after
  have hsplit' := splitAt?_append (before' ++ [d]) after'
  simp only [size_append, size_cons, size_nil, Nat.add_zero, hsize, hsize', List.append_assoc,
    List.singleton_append] at hsplit hsplit'
  rw [ht] at hsplit
  have hparts := Option.some.inj (hsplit.symm.trans hsplit')
  have hfronts := congrArg (fun parts => parts.1.getLast?) hparts
  simpa using hfronts

/-- The place behind a character is one where another starts or the text ends. -/
theorem isBoundary (h : Behind c t offset) : isBoundary offset t = true := by
  obtain ⟨before, after, rfl, rfl⟩ := h
  have hbehind := isBoundary_size_append (before ++ [c]) after
  simpa using hbehind

end Behind

end Text

/-- The ranges of the line table cut a text into lines. The first of them may have started with some
text of its own. -/
theorem lines_lineRangesFrom {content t : Text} {start offset : Nat} (before line : Text)
    (hcontent : content = before ++ line ++ t) (hline : '\n' ∉ line)
    (hstart : Text.size before = start) (hoffset : start + Text.size line = offset) :
    Text.Lines (line ++ t) ((lineRangesFrom start offset t).map fun range =>
      Text.slice content range.start range.stop) := by
  induction t generalizing before line start offset with
  | nil =>
    have hslice : Text.slice content start offset = line :=
      Text.Between.slice_eq ⟨before, [], hcontent, hstart, hoffset⟩
    rw [lineRangesFrom, List.append_nil, List.map_singleton, hslice]
    exact .last hline
  | cons c t ih =>
    rw [lineRangesFrom]
    by_cases hfeed : c = '\n'
    · subst hfeed
      have hcontent' : content = before ++ (line ++ ['\n']) ++ t := by simp [hcontent]
      have hnext : start + Text.size (line ++ ['\n']) = offset + '\n'.utf8Size := by
        rw [Text.size_append, Text.size_cons, Text.size_nil]
        omega
      have hslice : Text.slice content start (offset + '\n'.utf8Size) = line ++ ['\n'] :=
        Text.Between.slice_eq ⟨before, t, hcontent', hstart, hnext⟩
      -- a new line starts behind the line feed
      have hempty : content = (before ++ (line ++ ['\n'])) ++ [] ++ t := by
        rw [List.append_nil]
        exact hcontent'
      have hsize : Text.size (before ++ (line ++ ['\n'])) = offset + '\n'.utf8Size := by
        rw [Text.size_append, hstart]
        exact hnext
      rw [if_pos rfl, List.map_cons, hslice]
      exact .feed hline (ih _ [] hempty List.not_mem_nil hsize rfl)
    · have hcontent' : content = before ++ (line ++ [c]) ++ t := by simp [hcontent]
      have hline' : '\n' ∉ line ++ [c] := by simp [hline, Ne.symm hfeed]
      have hoffset' : start + Text.size (line ++ [c]) = offset + c.utf8Size := by
        rw [Text.size_append, Text.size_cons, Text.size_nil]
        omega
      have hlines := ih _ _ hcontent' hline' hstart hoffset'
      rw [List.append_assoc, List.singleton_append] at hlines
      rw [if_neg hfeed]
      exact hlines

/-- Lines start where the first of them does or behind a line feed, and they stop behind a line feed
or at the end of the text. -/
theorem bounds_lineRangesFrom {content t : Text} {start offset : Nat} (before : Text)
    (hcontent : content = before ++ t) (hoffset : Text.size before = offset) :
    ∀ range ∈ lineRangesFrom start offset t,
      (range.start = start ∨ Text.Behind '\n' content range.start) ∧
        (range.stop = Text.size content ∨ Text.Behind '\n' content range.stop) := by
  induction t generalizing before start offset with
  | nil =>
    intro range hrange
    obtain rfl := List.mem_singleton.mp hrange
    refine ⟨.inl rfl, .inl ?_⟩
    rw [hcontent, List.append_nil, hoffset]
  | cons c t ih =>
    have hcontent' : content = before ++ [c] ++ t := by
      rw [hcontent]
      simp
    have hoffset' : Text.size (before ++ [c]) = offset + c.utf8Size := by
      rw [Text.size_append, hoffset]
      rfl
    rw [lineRangesFrom]
    by_cases hfeed : c = '\n'
    · subst hfeed
      have hbehind : Text.Behind '\n' content (offset + '\n'.utf8Size) :=
        ⟨before, t, hcontent, by rw [hoffset]⟩
      rw [if_pos rfl]
      intro range hrange
      rcases List.mem_cons.mp hrange with rfl | hlater
      · exact ⟨.inl rfl, .inr hbehind⟩
      · obtain ⟨hstart, hstop⟩ := ih _ hcontent' hoffset' range hlater
        -- the next line starts where this one stops
        refine ⟨.inr ?_, hstop⟩
        rcases hstart with hnext | hstart
        · rw [hnext]
          exact hbehind
        · exact hstart
    · rw [if_neg hfeed]
      exact ih _ hcontent' hoffset'

namespace SourceFile

variable {file : SourceFile} {n : Nat}

/-- The lines as the line table cuts them out of the content. -/
def lineTexts (file : SourceFile) : List Text :=
  file.lines.map fun range => Text.slice file.content range.start range.stop

/-- There are as many lines as the line table has ranges. -/
theorem length_lineTexts (file : SourceFile) : file.lineTexts.length = file.lineCount :=
  List.length_map _

/-- Lines are numbered from one on. -/
theorem line?_succ (file : SourceFile) (n : Nat) : file.line? (n + 1) = file.lineTexts[n]? :=
  List.getElem?_map.symm

/-- The line table cuts the content into its lines. -/
theorem lines_lineTexts (file : SourceFile) : Text.Lines file.content file.lineTexts :=
  lines_lineRangesFrom [] [] rfl List.not_mem_nil rfl rfl

/-- In the order of their numbers, the lines are those that the line table cuts out. -/
theorem map_line?_range' (file : SourceFile) :
    (List.range' 1 file.lineCount).map file.line? = file.lineTexts.map some := by
  rw [← length_lineTexts]
  apply List.ext_getElem
  · simp
  · intro i hi hi'
    simp [Nat.add_comm 1 i, line?_succ]

/-- Lines start at the start of the content or behind a line feed, and they stop behind a line feed
or at the end of the content. -/
theorem bounds_lines (file : SourceFile) : ∀ range ∈ file.lines,
    (range.start = 0 ∨ Text.Behind '\n' file.content range.start) ∧
      (range.stop = Text.size file.content ∨ Text.Behind '\n' file.content range.stop) :=
  bounds_lineRangesFrom [] rfl rfl

/-- Lines start and stop at places in the content. -/
theorem isBoundary_of_mem_lines {range : LineRange} (h : range ∈ file.lines) :
    Text.isBoundary range.start file.content = true ∧
      Text.isBoundary range.stop file.content = true := by
  obtain ⟨hstart, hstop⟩ := file.bounds_lines range h
  constructor
  · rcases hstart with hzero | hbehind
    · rw [hzero]
      exact Text.isBoundary_size_append [] file.content
    · exact hbehind.isBoundary
  · rcases hstop with hend | hbehind
    · have hsize := Text.isBoundary_size_append file.content []
      rw [List.append_nil] at hsize
      rw [hend]
      exact hsize
    · exact hbehind.isBoundary

/-- The bounds of a line stand behind line feeds, unless they are those of the content, so they do
not stand behind other characters. -/
theorem bounds_of_behind {range : LineRange} (h : range ∈ file.lines) {c : Char} {offset : Nat}
    (hbehind : Text.Behind c file.content offset) (hc : c ≠ '\n') :
    range.start ≠ offset ∧ (range.stop = offset → offset = Text.size file.content) := by
  obtain ⟨hstart, hstop⟩ := file.bounds_lines range h
  have hpos := hbehind.pos
  constructor
  · rintro rfl
    rcases hstart with hzero | hfeed
    · omega
    · exact hc (hbehind.unique hfeed)
  · rintro rfl
    exact hstop.resolve_right fun hfeed => hc (hbehind.unique hfeed)

/-- Lines have the numbers from one to their count. -/
theorem isSome_line?_iff : (file.line? n).isSome = true ↔ 1 ≤ n ∧ n ≤ file.lineCount := by
  cases n with
  | zero => simp [line?]
  | succ n =>
    rw [line?_succ, isSome_getElem?, length_lineTexts]
    omega

/-- A line that is not the last is ended by its only line feed. -/
theorem exists_feed_of_line? {line : Text} (hline : file.line? n = some line)
    (hn : n < file.lineCount) : ∃ body, line = body ++ ['\n'] ∧ '\n' ∉ body := by
  cases n with
  | zero => exact nomatch hline
  | succ n =>
    rw [line?_succ] at hline
    rw [← length_lineTexts] at hn
    exact file.lines_lineTexts.exists_feed hn hline

/-- There is one line more than there are line feeds. -/
theorem lineCount_eq_count (file : SourceFile) : file.lineCount = 1 + file.content.count '\n' := by
  rw [← length_lineTexts]
  exact file.lines_lineTexts.length_eq

/-- The last line has no line feed. -/
theorem notMem_of_line?_lineCount {line : Text} (hline : file.line? file.lineCount = some line) :
    '\n' ∉ line := by
  have hcount : file.lineCount = file.content.count '\n' + 1 := by
    rw [lineCount_eq_count, Nat.add_comm]
  rw [hcount, line?_succ] at hline
  rw [← length_lineTexts] at hcount
  exact file.lines_lineTexts.notMem_last hcount.symm hline

/-- What holds of the lines of a file. -/
structure LinesPartition (file : SourceFile) : Prop where
  /-- The line table is the one that is told by the breaks of the lines, of which a carriage return
  and a line feed are one. -/
  table : file.lines = lineRangesByBreak 0 0 file.content
  /-- The first line starts at zero, every other where the one before it stops, and the last line
  stops at the size of the content. -/
  contiguous : Tiles 0 file.lines (Text.size file.content)
  /-- No line starts or stops inside a character. -/
  boundary : ∀ range ∈ file.lines, Text.isBoundary range.start file.content = true ∧
    Text.isBoundary range.stop file.content = true
  /-- Lines are numbered from one to their count. -/
  isSome_iff : ∀ n, (file.line? n).isSome = true ↔ 1 ≤ n ∧ n ≤ file.lineCount
  /-- Put together in this order, the lines are the content. -/
  joined : ∃ texts : List Text, (List.range' 1 file.lineCount).map file.line? = texts.map some ∧
    texts.flatten = file.content
  /-- There is a line for each line feed, and the last one. -/
  lineCount_eq : file.lineCount = 1 + file.content.count '\n'
  /-- A line that is not the last is ended by its only line feed. -/
  ended : ∀ n line, file.line? n = some line → n < file.lineCount →
    ∃ body, line = body ++ ['\n'] ∧ '\n' ∉ body
  /-- The last line has no line feed. -/
  last : ∀ line, file.line? file.lineCount = some line → '\n' ∉ line
  /-- A carriage return ends no line: none starts right behind it, and none stops there, unless that
  is where the content does. -/
  behindReturn : ∀ offset, Text.Behind '\r' file.content offset → ∀ range ∈ file.lines,
    range.start ≠ offset ∧ (range.stop = offset → offset = Text.size file.content)

/-- **The lines partition the content.** The line table has no gaps and splits no character, and
there is one line more than line feeds in the content, each of which ends a line. -/
theorem linesPartition (file : SourceFile) : file.LinesPartition where
  table := lineRangesFrom_eq_byBreak 0 0 file.content
  contiguous := by
    have htiles := tiles_lineRangesFrom (Nat.le_refl 0) file.content
    rwa [Nat.zero_add] at htiles
  boundary _ hrange := isBoundary_of_mem_lines hrange
  isSome_iff _ := isSome_line?_iff
  joined := ⟨file.lineTexts, file.map_line?_range', file.lines_lineTexts.flatten_eq⟩
  lineCount_eq := file.lineCount_eq_count
  ended _ _ hline hn := exists_feed_of_line? hline hn
  last _ hline := notMem_of_line?_lineCount hline
  behindReturn _ hreturn _ hrange := bounds_of_behind hrange hreturn (by decide)

/-- A carriage return alone stays on its line, and behind a line feed at the end of the content
there is an empty line. -/
example : (ofText "a" ['x', '\r', 'é', '\r', '\n', '\n']).lines = [⟨0, 6⟩, ⟨6, 7⟩, ⟨7, 7⟩] := by
  decide

end SourceFile

end Frontend
