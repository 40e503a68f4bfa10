import Mathlib
import Frontend.Stream.Basic
import Frontend.Proofs.Source.Spans

/-!
# What an excerpt underlines

The line of an excerpt is shown without the line feeds and carriage returns at its end. The carets
are counted on the text of the span, which may reach past what is shown: a line feed ends the first
line of the text, together with a carriage return before it, but any other carriage return at the
end of the line gets a caret of its own. `Span.overhang` is the number of those.
-/

namespace Frontend

namespace Span

/-- How many characters of a text at an offset the span covers. -/
def covered (s : Span) (offset : Nat) : Text → Nat
  | [] => 0
  | c :: t =>
    (if s.start ≤ offset ∧ offset < s.stop then 1 else 0) + s.covered (offset + c.utf8Size) t

variable {s : Span} {offset : Nat} {t : Text}

/-- The characters covered of two texts in a row are those covered of each. -/
theorem covered_append (s : Span) (offset : Nat) (t u : Text) :
    s.covered offset (t ++ u) = s.covered offset t + s.covered (offset + Text.size t) u := by
  induction t generalizing offset with
  | nil => simp [covered]
  | cons c t ih =>
    rw [List.cons_append, covered, covered, ih, Text.size_cons, Nat.add_assoc, Nat.add_assoc]

/-- All characters between the bounds are covered. -/
theorem covered_eq_length (hstart : s.start ≤ offset) (hstop : offset + Text.size t ≤ s.stop) :
    s.covered offset t = t.length := by
  induction t generalizing offset with
  | nil => rfl
  | cons c t ih =>
    have hpos := c.utf8Size_pos
    rw [Text.size_cons] at hstop
    rw [covered, if_pos (by omega), ih (by omega) (by omega), List.length_cons, Nat.add_comm]

/-- What ends before the start is not covered. -/
theorem covered_before (h : offset + Text.size t ≤ s.start) : s.covered offset t = 0 := by
  induction t generalizing offset with
  | nil => rfl
  | cons c t ih =>
    have hpos := c.utf8Size_pos
    rw [Text.size_cons] at h
    rw [covered, if_neg (by omega), ih (by omega)]

/-- What starts behind the end is not covered. -/
theorem covered_behind (h : s.stop ≤ offset) : s.covered offset t = 0 := by
  induction t generalizing offset with
  | nil => rfl
  | cons c t ih => rw [covered, if_neg (by omega), ih (by omega)]

end Span

namespace Excerpt

/-- A line is what is shown of it, and the breaks at its end. -/
theorem exists_eq_trimBreaks_append (line : Text) :
    ∃ tail, line = trimBreaks line ++ tail ∧ ∀ c ∈ tail, c = '\n' ∨ c = '\r' := by
  refine ⟨line.rtakeWhile fun c => c = '\n' || c = '\r', ?_, ?_⟩
  · exact List.rdropWhile_append_rtakeWhile.symm
  · intro c hc
    simpa using List.mem_rtakeWhile_imp hc

/-- What is shown of a line does not end with a break. -/
theorem getLast?_trimBreaks (line : Text) :
    ∀ c, (trimBreaks line).getLast? = some c → c ≠ '\n' ∧ c ≠ '\r' := by
  intro c hc
  have hne : trimBreaks line ≠ [] := by
    intro hnil
    rw [hnil] at hc
    exact nomatch hc
  have hlast : ¬((trimBreaks line).getLast hne = '\n' || (trimBreaks line).getLast hne = '\r') :=
    List.rdropWhile_last_not (fun c => c = '\n' || c = '\r') line hne
  rw [List.getLast?_eq_some_getLast hne] at hc
  rw [Option.some.inj hc] at hlast
  simpa using hlast

/-- The first line of a text without line feeds is the text. -/
theorem firstLine_of_notMem {t : Text} (h : '\n' ∉ t) : firstLine t = t := by
  have hline : t.takeWhile (· ≠ '\n') = t := by
    apply List.takeWhile_eq_self_iff.mpr
    intro c hc
    simpa using ne_of_mem_of_not_mem hc h
  rw [firstLine, hline]
  exact if_neg fun hshort => Nat.lt_irrefl _ hshort.1

/-- The first line of any other text ends with its line feed. -/
theorem firstLine_append_feed {line : Text} (h : '\n' ∉ line) (more : Text) :
    firstLine (line ++ '\n' :: more) =
      if line.getLast? = some '\r' then line.dropLast else line := by
  have hline : (line ++ '\n' :: more).takeWhile (· ≠ '\n') = line := by
    rw [List.takeWhile_append_of_pos, List.takeWhile_cons_of_neg (by simp), List.append_nil]
    intro c hc
    simpa using ne_of_mem_of_not_mem hc h
  have hshort : line.length < (line ++ '\n' :: more).length := by
    rw [List.length_append, List.length_cons]
    omega
  rw [firstLine, hline]
  simp only [hshort, true_and]

/-- A character repeated so many times is so many characters. -/
theorem length_repeated (n : Nat) (c : Char) : (repeated n c).length = n := by
  rw [repeated, String.length_ofList, List.length_replicate]

/-- The two rows under the header are the line and the carets, behind margins of the same width. -/
theorem render_plain (e : Excerpt) : ∃ header number gutter : String,
    gutter.length = number.length ∧
      e.render .plain none = header ++ "\n" ++
        (number ++ " | " ++ String.ofList e.line) ++ "\n" ++
          (gutter ++ " | " ++ repeated e.indent ' ' ++ repeated e.carets '^') := by
  have hpaint (ink : Ink) (piece : String) : ink.paint .plain piece = piece := rfl
  unfold render
  simp only [hpaint]
  generalize toString e.position.location.line = number
  refine ⟨" --> " ++ e.position.text ++ "\n" ++ repeated number.length ' ' ++ " |", number,
    repeated number.length ' ', length_repeated _ _, ?_⟩
  apply String.toList_inj.mp
  simp only [String.toList_append, List.append_assoc]
  simp

end Excerpt

/-! ## The line of a place -/

namespace Text

/-- The last line of a text goes on behind its last line feed. -/
theorem notMem_lastLine (t : Text) : '\n' ∉ lastLine t := by
  intro hmem
  simpa using List.mem_rtakeWhile_imp hmem

/-- A text up to its first line feed is a text without line feeds, and the line feed if there is
one. -/
theorem throughFeed_cases (t : Text) : ∃ line feed, throughFeed t = line ++ feed ∧ '\n' ∉ line ∧
    (feed = [] ∨ feed = ['\n']) := by
  induction t with
  | nil => exact ⟨[], [], rfl, List.not_mem_nil, .inl rfl⟩
  | cons c t ih =>
    by_cases hfeed : c = '\n'
    · exact ⟨[], ['\n'], by rw [hfeed, throughFeed_feed]; rfl, List.not_mem_nil, .inr rfl⟩
    · obtain ⟨line, feed, hline, hnotMem, hcases⟩ := ih
      refine ⟨c :: line, feed, ?_, by simp [Ne.symm hfeed, hnotMem], hcases⟩
      rw [throughFeed, if_neg hfeed, hline, List.cons_append]

/-- Carriage returns take one byte each. -/
theorem size_replicate_return (n : Nat) : size (List.replicate n '\r') = n := by
  induction n with
  | zero => rfl
  | succ n ih =>
    rw [List.replicate_succ, size_cons, ih, Nat.add_comm]
    rfl

end Text

/-- A line is cut into what is shown of it, carriage returns, and the line feed if it has one. -/
structure Cut (line kept : Text) (returns : Nat) (feed : Text) : Prop where
  eq : line = kept ++ List.replicate returns '\r' ++ feed
  feed : feed = [] ∨ feed = ['\n']
  notMem : '\n' ∉ kept
  getLast? : kept.getLast? ≠ some '\r'

namespace Cut

variable {line kept feed part rest : Text} {returns : Nat} {s : Span}

/-- What is shown of a line is what is left when its break is cut off, and carriage returns before
it. -/
theorem exists_trimBreaks (t : Text) : ∃ returns feed,
    Cut (Text.throughFeed t) (Excerpt.trimBreaks (Text.throughFeed t)) returns feed := by
  obtain ⟨body, feed, hbody, hnotMem, hfeed⟩ := Text.throughFeed_cases t
  obtain ⟨tail, htail, hbreaks⟩ := Excerpt.exists_eq_trimBreaks_append (Text.throughFeed t)
  have hlast := Excerpt.getLast?_trimBreaks (Text.throughFeed t)
  generalize Excerpt.trimBreaks (Text.throughFeed t) = kept at htail hlast
  -- behind what is shown come the carriage returns of the line
  obtain ⟨returns, hreturns⟩ : ∃ returns, body = kept ++ returns ∧ tail = returns ++ feed := by
    rcases hfeed with rfl | rfl
    · refine ⟨tail, ?_, by simp⟩
      rw [← htail, hbody, List.append_nil]
    · rcases List.eq_nil_or_concat' tail with rfl | ⟨returns, c, rfl⟩
      · have hkept : kept.getLast? = some '\n' := by
          rw [← List.append_nil kept, ← htail, hbody, List.getLast?_concat]
        exact absurd rfl (hlast _ hkept).1
      · rw [hbody, ← List.append_assoc] at htail
        obtain ⟨hbody, hc⟩ := List.append_inj' htail rfl
        exact ⟨returns, hbody, by rw [List.singleton_inj.mp hc]⟩
  obtain ⟨rfl, rfl⟩ := hreturns
  have hall : returns = List.replicate returns.length '\r' := by
    apply List.eq_replicate_of_mem
    intro c hc
    refine (hbreaks c (List.mem_append_left _ hc)).resolve_left ?_
    rintro rfl
    exact hnotMem (List.mem_append_right _ hc)
  refine ⟨returns.length, feed, ?_, hfeed, ?_, ?_⟩
  · rw [← hall, hbody]
  · exact fun hmem => hnotMem (List.mem_append_left _ hmem)
  · exact fun hreturn => (hlast _ hreturn).2 rfl

/-- Where more of a line is shown than the text in front, what is cut off the line is cut off the rest
of it. -/
theorem exists_kept {front shown : Text} (h : Cut (front ++ line) shown returns feed)
    (hshown : Text.size front < Text.size shown) :
    ∃ kept, shown = front ++ kept ∧ kept ≠ [] ∧ Cut line kept returns feed := by
  have heq := h.eq
  rw [List.append_assoc] at heq
  rcases List.append_eq_append_iff.mp heq with ⟨kept, rfl, hline⟩ | ⟨more, rfl, -⟩
  · have hkept : kept ≠ [] := by
      rintro rfl
      rw [List.append_nil] at hshown
      exact absurd hshown (Nat.lt_irrefl _)
    have hlast := h.getLast?
    rw [List.getLast?_append_of_ne_nil _ hkept] at hlast
    refine ⟨kept, rfl, hkept, ?_, h.feed, ?_, hlast⟩
    · rw [hline, List.append_assoc]
    · exact fun hmem => h.notMem (List.mem_append_right _ hmem)
  · rw [Text.size_append] at hshown
    omega

end Cut

/-- How many carriage returns at the end of a line get a caret: those that the span covers, without
the one that ends the line together with its line feed if the span covers that too. -/
def Span.overhang (s : Span) (offset returns : Nat) (feed : Text) : Nat :=
  s.covered offset (List.replicate returns '\r') - s.covered (offset + returns) feed

namespace Cut

variable {line kept feed part rest : Text} {returns : Nat} {s : Span}

/-- A part of a line without line feeds is a beginning of what is shown and the carriage returns. -/
theorem exists_eq_append (h : Cut (part ++ line) kept returns feed) (hpart : '\n' ∉ part) :
    ∃ back, kept ++ List.replicate returns '\r' = part ++ back := by
  rcases List.append_eq_append_iff.mp h.eq with ⟨back, hback, -⟩ | ⟨back, hback, hfeed⟩
  · exact ⟨back, hback⟩
  · -- the part would go on with the line feed
    rcases h.feed with rfl | rfl
    · obtain ⟨rfl, -⟩ := List.append_eq_nil_iff.mp hfeed.symm
      exact ⟨[], by rw [hback, List.append_nil, List.append_nil]⟩
    · rcases List.cons_eq_append_iff.mp hfeed with ⟨rfl, -⟩ | ⟨back, rfl, -⟩
      · exact ⟨[], by rw [hback, List.append_nil, List.append_nil]⟩
      · exact absurd (hback ▸ List.mem_append_right _ List.mem_cons_self) hpart

/-- A line with a line feed is what is shown, the carriage returns and the line feed. -/
theorem eq_of_feed (h : Cut (line ++ ['\n']) kept returns feed) :
    line = kept ++ List.replicate returns '\r' ∧ feed = ['\n'] := by
  have heq := h.eq
  rcases h.feed with rfl | rfl
  · -- the line feed would be shown, or be a carriage return
    have hmem : '\n' ∈ kept ++ List.replicate returns '\r' := by
      rw [← List.append_nil (kept ++ _), ← heq]
      exact List.mem_append_right _ List.mem_cons_self
    rcases List.mem_append.mp hmem with hkept | hreturn
    · exact absurd hkept h.notMem
    · exact absurd (List.eq_of_mem_replicate hreturn) (by decide)
  · exact ⟨List.append_cancel_right heq, rfl⟩

/-- The first line of a text that goes on behind the line feed has no carriage return before it. -/
theorem length_firstLine_feed (h : Cut (line ++ ['\n']) kept returns feed) (hline : '\n' ∉ line)
    (more : Text) : (Excerpt.firstLine (line ++ '\n' :: more)).length =
      kept.length + (returns - 1) := by
  rw [Excerpt.firstLine_append_feed hline, h.eq_of_feed.1]
  cases returns with
  | zero =>
    rw [List.replicate_zero, List.append_nil, if_neg h.getLast?]
    rfl
  | succ returns =>
    rw [List.replicate_succ', ← List.append_assoc, List.getLast?_concat, if_pos rfl,
      List.dropLast_concat, List.length_append, List.length_replicate]
    rfl

/-- Carets stand under what is shown of the span and under the carriage returns that overhang. -/
theorem length_firstLine (h : Cut (Text.throughFeed (part ++ rest)) kept returns feed)
    (hstop : s.start + Text.size part = s.stop) :
    (Excerpt.firstLine part).length =
      s.covered s.start kept + s.overhang (s.start + Text.size kept) returns feed := by
  by_cases hpart : '\n' ∈ part
  · -- the span covers the whole rest of the line
    obtain ⟨line, more, rfl, hline⟩ := List.eq_append_cons_of_mem hpart
    rw [List.append_assoc, List.cons_append, Text.throughFeed_append hline,
      Text.throughFeed_feed] at h
    obtain ⟨rfl, rfl⟩ := h.eq_of_feed
    have hfeed : ('\n' : Char).utf8Size = 1 := rfl
    simp only [Text.size_append, Text.size_cons, Text.size_replicate_return] at hstop
    rw [h.length_firstLine_feed hline, Span.overhang,
      Span.covered_eq_length (Nat.le_refl _) (by omega),
      Span.covered_eq_length (Nat.le_add_right _ _) (by rw [Text.size_replicate_return]; omega),
      Span.covered_eq_length (by omega) (by rw [Text.size_cons, Text.size_nil]; omega),
      List.length_replicate, List.length_singleton]
  · -- the span ends on the line
    rw [Text.throughFeed_append hpart] at h
    obtain ⟨back, hback⟩ := h.exists_eq_append hpart
    have hsize := congrArg Text.size hback
    simp only [Text.size_append, Text.size_replicate_return] at hsize
    have hcovered := congrArg (s.covered s.start) hback
    rw [Span.covered_append, Span.covered_append,
      Span.covered_eq_length (Nat.le_refl _) (Nat.le_of_eq hstop),
      Span.covered_behind (t := back) (Nat.le_of_eq hstop.symm)] at hcovered
    have hfeed : s.covered (s.start + Text.size kept + returns) feed = 0 :=
      Span.covered_behind (by omega)
    rw [Excerpt.firstLine_of_notMem hpart, Span.overhang, hfeed]
    omega

/-- Where the span covers no carriage return, no caret overhangs. -/
theorem overhang_eq_zero (h : Cut (Text.throughFeed (part ++ rest)) kept returns feed)
    (hstop : s.start + Text.size part = s.stop) (hpart : '\r' ∉ part) :
    s.overhang (s.start + Text.size kept) returns feed = 0 := by
  obtain ⟨back, hback⟩ := Text.exists_eq_throughFeed_append (part ++ rest)
  rw [h.eq, List.append_assoc, List.append_assoc] at hback
  rw [Span.overhang]
  rcases List.append_eq_append_iff.mp hback with ⟨tail, rfl, -⟩ | ⟨tail, rfl, htail⟩
  · -- the span ends in what is shown
    rw [Span.covered_behind (by rw [Text.size_append]; omega), Nat.zero_sub]
  · cases returns with
    | zero => exact Nat.zero_sub _
    | succ returns =>
      cases tail with
      | nil =>
        rw [List.append_nil] at hstop
        rw [Span.covered_behind (Nat.le_of_eq hstop.symm), Nat.zero_sub]
      | cons c tail =>
        have hc : '\r' = c := (List.cons.inj htail).1
        exact absurd (List.mem_append_right _ (hc ▸ List.mem_cons_self)) hpart

end Cut

namespace Span

variable {s : Span} {offset : Nat} {t : Text}

/-- No more characters are covered than there are. -/
theorem covered_le_length (s : Span) (offset : Nat) (t : Text) : s.covered offset t ≤ t.length := by
  induction t generalizing offset with
  | nil => exact Nat.le_refl _
  | cons c t ih =>
    have hrest := ih (offset + c.utf8Size)
    rw [covered, List.length_cons]
    split <;> omega

/-- A span that is not empty covers the character that it starts at. -/
theorem covered_pos (ht : t ≠ []) (h : s.start < s.stop) : 0 < s.covered s.start t := by
  obtain ⟨c, rest, rfl⟩ := List.exists_cons_of_ne_nil ht
  rw [covered, if_pos ⟨Nat.le_refl _, h⟩]
  omega

/-- An empty span covers nothing, and nothing overhangs. -/
theorem overhang_of_empty (h : s.stop ≤ s.start) (hoffset : s.start ≤ offset) (returns : Nat)
    (feed : Text) : s.overhang offset returns feed = 0 := by
  rw [overhang, covered_behind (by omega), Nat.zero_sub]

end Span

/-- How the excerpt of a span underlines the line that the span starts on, which starts at an
offset: so many carets stand behind what is shown of the line. -/
structure Underlined (s : Span) (start overhang : Nat) : Prop where
  /-- The first caret stands in the column of the span, under the character that it starts at. -/
  column : (Excerpt.ofSpan s).indent + 1 = s.position.location.column ∧
    ∃ front c back, (Excerpt.ofSpan s).line = front ++ c :: back ∧
      front.length = (Excerpt.ofSpan s).indent ∧ start + Text.size front = s.start
  /-- Every character shown that the span covers gets a caret; an empty span gets one, too. -/
  carets : (Excerpt.ofSpan s).carets =
    max 1 (s.covered start (Excerpt.ofSpan s).line + overhang)
  /-- The carets stand under what is shown of the span just if none is left over. -/
  exact_iff : (Excerpt.ofSpan s).carets = max 1 (s.covered start (Excerpt.ofSpan s).line) ↔
    overhang = 0
  /-- Carets that are not left over do not reach past the end of the line. -/
  within : (Excerpt.ofSpan s).indent + (Excerpt.ofSpan s).carets ≤
    (Excerpt.ofSpan s).line.length + overhang
  /-- The line and the carets are shown behind margins of the same width. -/
  rows : ∃ header number gutter : String, gutter.length = number.length ∧
    (Excerpt.ofSpan s).render .plain none = header ++ "\n" ++
      (number ++ " | " ++ String.ofList (Excerpt.ofSpan s).line) ++ "\n" ++
        (gutter ++ " | " ++ Excerpt.repeated (s.position.location.column - 1) ' ' ++
          Excerpt.repeated (Excerpt.ofSpan s).carets '^')

/-- Carets are counted behind the text before the span on its line, and that is shown if any of the
span is. -/
theorem Underlined.of_cut {s : Span} {front kept : Text} {start returns : Nat} {feed rest : Text}
    (hline : (Excerpt.ofSpan s).line = front ++ kept) (hkept : kept ≠ [])
    (hcolumn : s.position.location.column = front.length + 1)
    (hstart : start + Text.size front = s.start) (hstop : s.start + Text.size s.text = s.stop)
    (hcut : Cut (Text.throughFeed (s.text ++ rest)) kept returns feed) :
    Underlined s start (s.overhang (s.start + Text.size kept) returns feed) := by
  have hindent : (Excerpt.ofSpan s).indent = front.length := by
    change s.position.location.column - 1 = front.length
    omega
  have hcovered : s.covered start (Excerpt.ofSpan s).line = s.covered s.start kept := by
    rw [hline, Span.covered_append, Span.covered_before (Nat.le_of_eq hstart), hstart,
      Nat.zero_add]
  have hcarets : (Excerpt.ofSpan s).carets =
      max 1 (s.covered s.start kept + s.overhang (s.start + Text.size kept) returns feed) := by
    rw [← hcut.length_firstLine hstop]
    rfl
  have hlength := List.length_pos_iff.mpr hkept
  have hle := Span.covered_le_length s s.start kept
  refine ⟨⟨by omega, ?_⟩, by rw [hcovered, hcarets], ?_, ?_, ?_⟩
  · obtain ⟨c, back, rfl⟩ := List.exists_cons_of_ne_nil hkept
    exact ⟨front, c, back, hline, hindent.symm, hstart⟩
  · rw [hcovered, hcarets]
    rcases Nat.lt_or_ge s.start s.stop with hlt | hge
    · have hpos := Span.covered_pos hkept hlt
      omega
    · have hempty := Span.overhang_of_empty hge (Nat.le_add_right _ (Text.size kept)) returns feed
      omega
  · rw [hcarets, hindent, hline, List.length_append]
    omega
  · exact Excerpt.render_plain (Excerpt.ofSpan s)

/-- A valid span stands behind the text before it, and its line goes on to the next line feed. -/
theorem Span.Valid.exists_line {s : Span} (hs : s.Valid) : ∃ before rest,
    s.file.content = before ++ (s.text ++ rest) ∧ Text.size before = s.start ∧
      s.start + Text.size s.text = s.stop ∧ s.position.location = Location.after before ∧
      s.file.line? s.position.location.line =
        some (Text.lastLine before ++ Text.throughFeed (s.text ++ rest)) := by
  obtain ⟨before, rest, hcontent, hstart, hstop⟩ := hs.between
  rw [List.append_assoc] at hcontent
  have hlocation : s.position.location = Location.after before := by
    rw [Span.position, ← hstart, SourceFile.location?_size hcontent]
    rfl
  refine ⟨before, rest, hcontent, hstart, hstop, hlocation, ?_⟩
  rw [hlocation]
  exact SourceFile.line?_eq hcontent

/-- **Carets stand under the span.** Where a span starts at a character that is shown, every
character shown that it covers gets a caret, and nothing else does but carriage returns between what
is shown and the line break. -/
theorem Span.Valid.underlined {s : Span} (hs : s.Valid) {range : LineRange}
    (hrange : s.file.lines[s.position.location.line - 1]? = some range)
    (hshown : s.start < range.start + Text.size (Excerpt.ofSpan s).line) :
    ∃ returns feed, s.file.line? s.position.location.line =
        some ((Excerpt.ofSpan s).line ++ List.replicate returns '\r' ++ feed) ∧
      (feed = [] ∨ feed = ['\n']) ∧
      Underlined s range.start
        (s.overhang (range.start + Text.size (Excerpt.ofSpan s).line) returns feed) ∧
      ('\r' ∉ s.text →
        s.overhang (range.start + Text.size (Excerpt.ofSpan s).line) returns feed = 0) := by
  obtain ⟨before, rest, hcontent, hstart, hstop, hlocation, hline⟩ := hs.exists_line
  have hshow : (Excerpt.ofSpan s).line =
      Excerpt.trimBreaks (Text.lastLine before ++ Text.throughFeed (s.text ++ rest)) := by
    change Excerpt.trimBreaks ((s.file.line? s.position.location.line).getD []) = _
    rw [hline, Option.getD_some]
  -- the line starts with what stands before the span
  obtain ⟨range', hrange', hfront, -⟩ := SourceFile.exists_range hcontent
  obtain rfl : range = range' := by
    rw [hlocation] at hrange
    exact Option.some.inj (hrange.symm.trans hrange')
  obtain ⟨returns, feed, hcut⟩ := Cut.exists_trimBreaks (Text.lastLine before ++ (s.text ++ rest))
  rw [Text.throughFeed_append (Text.notMem_lastLine before), ← hshow] at hcut
  obtain ⟨kept, hkept, hne, hrest⟩ := hcut.exists_kept (by omega)
  have hend : range.start + Text.size (Excerpt.ofSpan s).line = s.start + Text.size kept := by
    rw [hkept, Text.size_append]
    omega
  have hcolumn : s.position.location.column = (Text.lastLine before).length + 1 := by
    rw [hlocation]
    rfl
  refine ⟨returns, feed, ?_, hcut.feed, ?_, ?_⟩
  · rw [hline, hcut.eq]
  · rw [hend]
    exact .of_cut hkept hne hcolumn (hfront.trans hstart) hstop hrest
  · rw [hend]
    exact hrest.overhang_eq_zero hstop

/-- An interpreted string that is not closed on its line, in a file whose lines end with a carriage
return and a line feed. -/
theorem Span.Valid.underlined_crlf :
    let file := SourceFile.ofText "crlf" ['\x22', 'a', '\r', '\n']
    let s : Span := ⟨file, 0, 3⟩
    TokenStream.ofText file.content = .error ⟨.unterminated .string, 0, ['\x22', 'a', '\r']⟩ ∧
      s.Valid ∧ file.lines[s.position.location.line - 1]? = some ⟨0, 4⟩ ∧
      0 < 0 + Text.size (Excerpt.ofSpan s).line ∧
      ∃ returns feed, file.line? s.position.location.line =
          some ((Excerpt.ofSpan s).line ++ List.replicate returns '\r' ++ feed) ∧
        (feed = [] ∨ feed = ['\n']) ∧
        Underlined s 0 (s.overhang (0 + Text.size (Excerpt.ofSpan s).line) returns feed) ∧
        ('\r' ∉ s.text →
          s.overhang (0 + Text.size (Excerpt.ofSpan s).line) returns feed = 0) := by
  intro file s
  have hvalid : s.Valid := by decide
  have hrange : file.lines[s.position.location.line - 1]? = some ⟨0, 4⟩ := by cbv
  have hshown : 0 < 0 + Text.size (Excerpt.ofSpan s).line := by decide
  exact ⟨by cbv, hvalid, hrange, hshown, hvalid.underlined hrange hshown⟩

/-- The carriage return of the line break gets a caret, although no character that is shown stands
above it. -/
theorem Span.carets_ne_covered :
    let file := SourceFile.ofText "crlf" ['\x22', 'a', '\r', '\n']
    let s : Span := ⟨file, 0, 3⟩
    TokenStream.ofText file.content = .error ⟨.unterminated .string, 0, ['\x22', 'a', '\r']⟩ ∧
      s.Valid ∧ file.lines[s.position.location.line - 1]? = some ⟨0, 4⟩ ∧
      s.start < 0 + Text.size (Excerpt.ofSpan s).line ∧
      (Excerpt.ofSpan s).line = ['\x22', 'a'] ∧
      (Excerpt.ofSpan s).carets ≠ max 1 (s.covered 0 (Excerpt.ofSpan s).line) := by
  intro file s
  exact ⟨by cbv, by decide, by cbv, by decide, by decide, by decide⟩

end Frontend
