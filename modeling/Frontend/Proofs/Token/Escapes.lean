import Mathlib.Algebra.Group.Nat.Even
import Mathlib.Data.List.DropRight
import Frontend.Proofs.Token.Reading
import Frontend.Proofs.Token.Rereading
import Frontend.Proofs.Text.Between

/-!
# Quotes that close a literal

A string literal is read with one bit of memory: whether the character before is a backslash that
escapes the next one. The bit is the parity of the backslashes that stand directly before, so a quote
closes the literal if their number is even, and the first quote for which it is ends the literal.
-/

namespace Frontend

namespace Text

/-- The number of backslashes at the end of a text. -/
def backslashes (t : Text) : Nat :=
  (t.rtakeWhile (· = '\\')).length

/-- A backslash behind others is one more. -/
theorem backslashes_concat_backslash (t : Text) :
    backslashes (t ++ ['\\']) = backslashes t + 1 := by
  rw [backslashes, List.rtakeWhile_concat_pos _ _ _ (by simp), List.length_append]
  rfl

/-- Behind any other character there are no backslashes. -/
theorem backslashes_concat {c : Char} (h : c ≠ '\\') (t : Text) : backslashes (t ++ [c]) = 0 := by
  rw [backslashes, List.rtakeWhile_concat_neg _ _ _ (by simpa using h)]
  rfl

end Text

/-- Between two quotes of one byte stands all of the text but its first and its last byte. -/
theorem Lexeme.unquoted_quoted (start : Nat) {quote : Char} (hquote : quote.utf8Size = 1)
    (body : Text) :
    let l : Lexeme := ⟨start, quote :: body ++ [quote]⟩
    l.unquoted = body ∧ Text.Between l.text 1 (Text.size l.text - 1) l.unquoted := by
  intro l
  have hbody : l.unquoted = body := by simp [l, Lexeme.unquoted]
  refine ⟨hbody, [quote], [quote], ?_, ?_, ?_⟩
  · rw [hbody]
    rfl
  · simp [hquote]
  · rw [hbody]
    simp [l, hquote]
    omega

namespace Quote

/-- Whether the character that comes next is escaped. -/
def escapes (before : Text) : Bool :=
  !decide (Even (Text.backslashes before))

/-- The first character is not escaped. -/
theorem escapes_nil : escapes [] = false := rfl

/-- A backslash escapes the next character unless it is escaped itself, and nothing else does. -/
theorem escapes_concat (before : Text) (c : Char) :
    escapes (before ++ [c]) = (c = '\\' && !escapes before) := by
  by_cases hc : c = '\\'
  · subst hc
    simp only [escapes, Text.backslashes_concat_backslash, Nat.even_add_one, decide_not,
      Bool.not_not, decide_true, Bool.true_and]
  · simp [escapes, Text.backslashes_concat hc, hc]

/-- A quote that closes a literal of the form, somewhere in the text after its opening quote: it is
unescaped, and on the same line if the form requires it. -/
structure Closes (form : StringForm) (t body rest : Text) : Prop where
  split : t = body ++ mark form :: rest
  unescaped : Even (Text.backslashes body)
  onLine : form = .interpreted → '\n' ∉ body

/-- The first of the quotes that close a literal. -/
def ClosesFirst (form : StringForm) (t body rest : Text) : Prop :=
  Closes form t body rest ∧
    ∀ body' rest', Closes form t body' rest' → body.length ≤ body'.length

/-- As far as a literal of the form reaches if nothing closes it. -/
def reach (form : StringForm) (t : Text) : Text :=
  match form with
  | .interpreted => t.takeWhile (· ≠ '\n')
  | .raw => t

variable {form : StringForm}

/-- One of the quotes that close a literal is the first. -/
theorem Closes.exists_first {t body rest : Text} (h : Closes form t body rest) :
    ∃ body rest, ClosesFirst form t body rest :=
  Text.exists_shortest ⟨body, rest, h⟩

/-- A quote on the line that does not close the literal is escaped. -/
theorem escapes_of_not_closes {t body rest : Text} (hsplit : t = body ++ mark form :: rest)
    (hline : form = .interpreted → '\n' ∉ body) (h : ¬Closes form t body rest) :
    escapes body = true := by
  by_contra hfree
  have heven : Even (Text.backslashes body) := by simpa [escapes] using hfree
  exact h ⟨hsplit, heven, hline⟩

/-- A part of a literal in which no quote closes it and no line ends is passed, and the memory of
the scan is right after it if it was before. -/
theorem stringBody_append {before body : Text}
    (hopen : ∀ a b, body = a ++ mark form :: b → escapes (before ++ a) = true)
    (hline : form = .interpreted → '\n' ∉ body) (rest : Text) :
    stringBody form (escapes before) (body ++ rest) =
      (stringBody form (escapes (before ++ body)) rest).prepend body := by
  induction body generalizing before with
  | nil =>
    rw [List.append_nil]
    rfl
  | cons c body ih =>
    have hbreak : ¬(c = '\n' ∧ form = .interpreted) := by
      rintro ⟨rfl, hform⟩
      exact hline hform List.mem_cons_self
    -- a mark that nothing escapes would close the literal
    have hquote : ¬(c = mark form ∧ !escapes before) := by
      rintro ⟨rfl, hfree⟩
      have hescaped := hopen [] body rfl
      rw [List.append_nil] at hescaped
      simp [hescaped] at hfree
    have hopen' : ∀ a b, body = a ++ mark form :: b → escapes (before ++ [c] ++ a) = true := by
      rintro a b rfl
      rw [List.append_assoc]
      exact hopen (c :: a) b rfl
    have hline' : form = .interpreted → '\n' ∉ body :=
      fun hform hmem => hline hform (List.mem_cons_of_mem _ hmem)
    rw [List.cons_append, stringBody, if_neg hbreak, if_neg hquote, ← escapes_concat,
      ih hopen' hline', List.append_assoc]
    rfl

/-- The first quote that closes a literal ends it. -/
theorem stringBody_of_closesFirst {t body rest : Text} (h : ClosesFirst form t body rest) :
    stringBody form false t = ⟨.stringLiteral form, body ++ [mark form], rest⟩ := by
  obtain ⟨⟨rfl, heven, hline⟩, hfirst⟩ := h
  have hopen : ∀ a b, body = a ++ mark form :: b → escapes ([] ++ a) = true := by
    rintro a b rfl
    have hline' : form = .interpreted → '\n' ∉ a :=
      fun hform hmem => hline hform (List.mem_append_left _ hmem)
    have hsplit : a ++ mark form :: b ++ mark form :: rest =
        a ++ mark form :: (b ++ mark form :: rest) := List.append_assoc _ _ _
    refine escapes_of_not_closes hsplit hline' fun hcloses => ?_
    -- the quote in the body would close the literal earlier
    have hlength := hfirst a _ hcloses
    rw [List.length_append, List.length_cons] at hlength
    omega
  have hpassed := stringBody_append hopen hline (mark form :: rest)
  have hfree : escapes body = false := by simpa [escapes] using heven
  have hquote : ¬(mark form = '\n' ∧ form = .interpreted) := by cases form <;> decide
  rw [escapes_nil, List.nil_append, hfree, stringBody, if_neg hquote, if_pos (by simp)] at hpassed
  exact hpassed

/-- A literal that no quote closes is left open as far as it reaches. -/
theorem stringBody_of_open {t : Text} (h : ∀ body rest, ¬Closes form t body rest) :
    stringBody form false t = ⟨.illegal (.unterminated (unclosed form)), reach form t,
      t.drop (reach form t).length⟩ := by
  obtain ⟨rest, hsplit, hrest, hline⟩ : ∃ rest, t = reach form t ++ rest ∧
      (rest = [] ∨ form = .interpreted ∧ ∃ more, rest = '\n' :: more) ∧
      (form = .interpreted → '\n' ∉ reach form t) := by
    cases form with
    | raw => exact ⟨[], by simp [reach], .inl rfl, fun hform => nomatch hform⟩
    | interpreted =>
      refine ⟨t.dropWhile (· ≠ '\n'), List.takeWhile_append_dropWhile.symm, ?_, ?_⟩
      · cases hdrop : t.dropWhile (· ≠ '\n') with
        | nil => exact .inl rfl
        | cons c more =>
          have hhead := List.head?_dropWhile_not (· ≠ '\n') t
          rw [hdrop] at hhead
          obtain rfl : c = '\n' := by simpa using hhead
          exact .inr ⟨rfl, more, rfl⟩
      · intro _ hmem
        simpa using List.all_eq_true.mp List.all_takeWhile _ hmem
  -- from here on all that matters of the reach is its end: that of the text, or of a line
  generalize reach form t = body at hsplit hline ⊢
  subst hsplit
  have hopen : ∀ a b, body = a ++ mark form :: b → escapes ([] ++ a) = true := by
    rintro a b rfl
    have hline' : form = .interpreted → '\n' ∉ a :=
      fun hform hmem => hline hform (List.mem_append_left _ hmem)
    have hsplit : a ++ mark form :: b ++ rest = a ++ mark form :: (b ++ rest) :=
      List.append_assoc _ _ _
    exact escapes_of_not_closes hsplit hline' (h a _)
  have hpassed := stringBody_append hopen hline rest
  rw [List.drop_left, ← escapes_nil, hpassed]
  rcases hrest with rfl | ⟨rfl, more, rfl⟩
  · simp [stringBody, Scan.prepend]
  · simp [stringBody, Scan.prepend]

/-- What stands between the quotes of a literal is its content, and takes all bytes but the first
and the last. -/
theorem unquoted_eq (start : Nat) (form : StringForm) (body : Text) :
    let l : Lexeme := ⟨start, mark form :: body ++ [mark form]⟩
    l.unquoted = body ∧ Text.Between l.text 1 (Text.size l.text - 1) l.unquoted :=
  Lexeme.unquoted_quoted start (by cases form <;> rfl) body

end Quote

/-- **A string literal closes at the first unescaped quote.** Behind an opening quote, if some quote
closes the literal, the first of them ends it, and its content is what stands between the quotes. If
none does, the literal is left open up to the end of its line, or of the text if it is raw. -/
theorem Cursor.yields_string {c : Cursor} {form : StringForm} {t : Text}
    (h : c.rest = Quote.mark form :: t) :
    ((∃ body rest, Quote.Closes form t body rest) → ∃ body rest,
      Quote.ClosesFirst form t body rest ∧
      c.Yields (.stringLiteral form) (Quote.mark form :: body ++ [Quote.mark form]) rest ∧
      ∀ l : Lexeme, l.text = Quote.mark form :: body ++ [Quote.mark form] →
        l.unquoted = body ∧ Text.Between l.text 1 (Text.size l.text - 1) l.unquoted) ∧
    ((¬∃ body rest, Quote.Closes form t body rest) →
      c.Yields (.illegal (.unterminated (Quote.unclosed form)))
        (Quote.mark form :: Quote.reach form t) (t.drop (Quote.reach form t).length)) := by
  have hyields := Cursor.yields_of_leading h (Scan.leading_string form t)
  constructor
  · rintro ⟨body, rest, hcloses⟩
    obtain ⟨first, rest', hfirst⟩ := hcloses.exists_first
    refine ⟨first, rest', hfirst, ?_, ?_⟩
    · rw [Quote.stringBody_of_closesFirst hfirst] at hyields
      exact hyields
    · rintro ⟨start, text⟩ rfl
      exact Quote.unquoted_eq start form first
  · intro hopen
    rw [Quote.stringBody_of_open fun body rest hcloses => hopen ⟨body, rest, hcloses⟩] at hyields
    exact hyields

/-- The first quote is escaped by a backslash, the second one not by two. Behind a back quote, one
backslash escapes the only other one, and the literal is left open over the end of the line. -/
theorem Cursor.yields_string_escaped :
    (ofText ['\x22', '\\', '\x22', '\\', '\\', '\x22', 'x']).Yields
      (.stringLiteral .interpreted) ['\x22', '\\', '\x22', '\\', '\\', '\x22'] ['x'] ∧
    (ofText ['\x60', '\n', '\\', '\x60']).Yields
      (.illegal (.unterminated .rawString)) ['\x60', '\n', '\\', '\x60'] [] := by
  constructor
  · have hcloses : Quote.Closes .interpreted ['\\', '\x22', '\\', '\\', '\x22', 'x']
        ['\\', '\x22', '\\', '\\'] ['x'] := ⟨rfl, by decide, by decide⟩
    obtain ⟨body, rest, ⟨⟨hsplit, heven, -⟩, hfirst⟩, hyields, -⟩ :=
      (@yields_string (ofText _) .interpreted _ rfl).1 ⟨_, _, hcloses⟩
    have hlength := hfirst _ _ hcloses
    rcases body with _ | ⟨a, _ | ⟨b, _ | ⟨c, _ | ⟨d, body⟩⟩⟩⟩
    all_goals simp [Quote.mark] at hsplit
    · -- the first quote stands behind one backslash
      obtain ⟨rfl, -⟩ := hsplit
      exact absurd heven (by decide)
    · obtain ⟨rfl, rfl, rfl, rfl, htail⟩ := hsplit
      simp only [List.length_cons, List.length_nil] at hlength
      obtain rfl : body = [] := List.length_eq_zero_iff.mp (by omega)
      obtain rfl : ['x'] = rest := by simpa using htail
      exact hyields
  · have hopen : ¬∃ body rest, Quote.Closes .raw ['\n', '\\', '\x60'] body rest := by
      rintro ⟨body, rest, hsplit, heven, -⟩
      rcases body with _ | ⟨a, _ | ⟨b, body⟩⟩
      all_goals simp [Quote.mark] at hsplit
      obtain ⟨rfl, rfl, htail⟩ := hsplit
      obtain rfl : body = [] := by
        cases body with
        | nil => rfl
        | cons c body => simp at htail
      exact absurd heven (by decide)
    exact (@yields_string (ofText _) .raw _ rfl).2 hopen

end Frontend
