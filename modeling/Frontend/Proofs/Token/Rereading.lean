import Frontend.Proofs.Token.Literals

/-!
# Tokens read again

A legal token of a text is read from its own text again, whatever it was read in front of: in front
of the end of the text, of a gap, or of anything else that goes on no further than what followed it.
The first characters of a text settle the rule that reads it (`leading_cases`), and each rule reads
its tokens again.
-/

namespace Frontend

namespace Scan

/-- The rule for words is stable: a word is a run of characters, and no gap is one of them. -/
theorem stable_word : Stable word :=
  stable_of_taken (Taken.stable_run (Solid.of_gaps ⟨by decide, by decide, by decide, by decide⟩))
    wordClass

/-- A text of nothing but what words go on with is one word. -/
theorem word_eq_self {w : Text} (h : ∀ x ∈ w, isWordPart x = true) :
    word w = ⟨wordClass w, w, []⟩ := by
  have hrun : Taken.run isWordPart (w ++ []) = ⟨w, []⟩ := Taken.run_append h rfl
  rw [List.append_nil] at hrun
  rw [word, hrun]

/-- No spelling of an operator or delimiter has a gap in it. -/
theorem solid_of_mem_continuations (c : Char) :
    ∀ entry ∈ Punctuation.continuations c, ∀ x ∈ entry.1, isGap x = false := by
  intro entry hentry x hx
  have hall : Punctuation.starts.all fun c => (Punctuation.continuations c).all fun entry =>
      entry.1.all fun x => !isGap x := by decide
  have hsolid := List.all_eq_true.mp (Punctuation.forall_continuations hall c entry hentry) x hx
  simpa using hsolid

/-- What is read as an operator or delimiter is solid. -/
theorem solid_operator {c : Char} (hc : isGap c = false) (t : Text) :
    ∀ x ∈ (operator c t).text, isGap x = false := by
  intro x hx
  unfold operator at hx
  split at hx
  · rename_i rest p hfind
    rcases List.mem_cons.mp hx with rfl | hx
    · exact hc
    · exact solid_of_mem_continuations c _ (List.mem_of_find?_eq_some hfind) x hx
  · rwa [List.mem_singleton.mp hx]

/-- An operator or delimiter is found again where nothing longer can be. -/
theorem operator_again {c : Char} {w t new : Text} (htext : (operator c t).text = c :: w)
    (h : NoFurther (w ++ new) t) : operator c (w ++ new) = ⟨(operator c t).cls, c :: w, new⟩ := by
  have hlonger : ∀ entry ∈ Punctuation.continuations c, ¬entry.1 <+: t → ¬entry.1 <+: w ++ new :=
    fun entry hentry hnot hpre => hnot (h entry.1 (solid_of_mem_continuations c entry hentry) hpre)
  unfold operator at htext ⊢
  split at htext
  · rename_i rest p hfind
    obtain rfl : rest = w := (List.cons.inj htext).2
    obtain ⟨-, before, after, hlist, hbefore⟩ := List.find?_eq_some_iff_append.mp hfind
    have hagain : (Punctuation.continuations c).find?
        (fun entry => entry.1.isPrefixOf (rest ++ new)) = some (rest, p) := by
      refine List.find?_eq_some_iff_append.mpr ⟨by simp, before, after, hlist, ?_⟩
      intro entry hentry
      have hmem : entry ∈ Punctuation.continuations c := by
        rw [hlist]
        exact List.mem_append_left _ hentry
      have hnot : ¬entry.1 <+: t := by
        simpa [← List.isPrefixOf_iff_prefix] using hbefore entry hentry
      simpa [← List.isPrefixOf_iff_prefix] using hlonger entry hmem hnot
    simp only [hagain, List.drop_left]
  · rename_i hfind
    obtain rfl : [] = w := (List.cons.inj htext).2
    have hagain : (Punctuation.continuations c).find? (fun entry => entry.1.isPrefixOf new) =
        none := by
      refine List.find?_eq_none.mpr ?_
      intro entry hentry
      simpa using hlonger entry hentry (by simpa using List.find?_eq_none.mp hfind entry hentry)
    simp only [List.nil_append, hagain]

/-- A comment to the end of the line is read again where the line ends. -/
theorem lineComment_again {t w new : Text} (htext : (lineComment t).text = w)
    (hends : Comments.EndsLine w new) : lineComment (w ++ new) = ⟨.comment .line, w, new⟩ := by
  have hbody : Comments.lineBody t = ⟨w, (Comments.lineBody t).rest⟩ := by
    rw [← htext]
    rfl
  obtain ⟨-, hfeed, -⟩ := Comments.endsLine_of_lineBody hbody
  rw [lineComment, Comments.lineBody_of_endsLine hfeed hends]

/-! The first characters of a text settle which rule reads its leading token. -/

/-- What starts like a word is read as one. -/
theorem leading_word {c : Char} (h : isWordStart c = true) (t : Text) :
    leading c t = word (c :: t) := by
  rw [leading, if_pos h]

/-- What starts with a digit is read as a number. -/
theorem leading_digit {c : Char} (hword : isWordStart c = false) (h : c.isDigit = true) (t : Text) :
    leading c t = Number.literal (c :: t) := by
  rw [leading, if_neg (by simp [hword]), if_pos h]

/-- What starts with a point and a digit is read as a number without digits before its point. -/
theorem leading_point {t : Text} (h : t.head?.any Char.isDigit = true) :
    leading '.' t = (Number.afterPoint t).prepend ['.'] := by
  rw [leading, if_neg (by decide), if_neg (by decide), if_pos ⟨rfl, h⟩]

/-- What starts with a single quote is read as a character literal. -/
theorem leading_char (t : Text) : leading '\x27' t = (Quote.charBody t).prepend ['\x27'] := by
  rw [leading, if_neg (by decide), if_neg (by decide), if_neg (fun h => nomatch h.1), if_pos rfl]

/-- What starts with the quote of a form of string literals is read as one of that form. -/
theorem leading_string (form : StringForm) (t : Text) :
    leading (Quote.mark form) t = (Quote.stringBody form false t).prepend [Quote.mark form] := by
  cases form with
  | interpreted =>
    rw [leading, if_neg (by decide), if_neg (by decide), if_neg (fun h => nomatch h.1),
      if_neg (by decide), if_pos rfl]
  | raw =>
    rw [leading, if_neg (by decide), if_neg (by decide), if_neg (fun h => nomatch h.1),
      if_neg (by decide), if_neg (by decide), if_pos rfl]

/-- What starts with two slashes is read as a comment to the end of the line. -/
theorem leading_lineComment (t : Text) :
    leading '/' ('/' :: t) = (lineComment t).prepend ['/', '/'] := by
  rw [leading, if_neg (by decide), if_neg (by decide), if_neg (fun h => nomatch h.1),
    if_neg (by decide), if_neg (by decide), if_neg (by decide), if_pos ⟨rfl, rfl⟩, List.tail_cons]

/-- What starts with a slash and a star is read as a delimited comment. -/
theorem leading_delimitedComment (t : Text) :
    leading '/' ('*' :: t) = (Comments.delimitedBody t).prepend ['/', '*'] := by
  rw [leading, if_neg (by decide), if_neg (by decide), if_neg (fun h => nomatch h.1),
    if_neg (by decide), if_neg (by decide), if_neg (by decide), if_neg (fun h => nomatch h.2),
    if_pos ⟨rfl, rfl⟩, List.tail_cons]

/-- No rule but the one for operators and delimiters reads a text of the character and others. -/
structure OnlyOperator (c : Char) (t : Text) : Prop where
  word : isWordStart c = false
  digit : c.isDigit = false
  point : c = '.' → t.head?.any Char.isDigit = false
  char : c ≠ '\x27'
  string : ∀ form, c ≠ Quote.mark form
  comment : c = '/' → t.head? ≠ some '/' ∧ t.head? ≠ some '*'

/-- What no other rule reads is left to the one for operators and delimiters. -/
theorem leading_operator {c : Char} {t : Text} (h : OnlyOperator c t) :
    leading c t = operator c t := by
  have hpoint : ¬(c = '.' ∧ t.head?.any Char.isDigit = true) := by
    rintro ⟨hc, hdigit⟩
    rw [h.point hc] at hdigit
    exact nomatch hdigit
  rw [leading, if_neg (by simp [h.word]), if_neg (by simp [h.digit]), if_neg hpoint, if_neg h.char,
    if_neg (h.string _), if_neg (h.string _), if_neg (fun hc => (h.comment hc.1).1 hc.2),
    if_neg (fun hc => (h.comment hc.1).2 hc.2)]

/-- What goes on no further is left to the same rule. -/
theorem OnlyOperator.of_noFurther {c : Char} {new old : Text} (h : OnlyOperator c old)
    (hnew : NoFurther new old) : OnlyOperator c new where
  word := h.word
  digit := h.digit
  point hc := hnew.head_any (Solid.of_gaps ⟨rfl, rfl, rfl, rfl⟩) (h.point hc)
  char := h.char
  string := h.string
  comment hc := ⟨fun hhead => (h.comment hc).1 (hnew.head_eq rfl hhead),
    fun hhead => (h.comment hc).2 (hnew.head_eq rfl hhead)⟩

/-- One of the rules reads a text. -/
theorem leading_cases (c : Char) (t : Text) :
    isWordStart c = true ∨ (isWordStart c = false ∧ c.isDigit = true) ∨
      (c = '.' ∧ t.head?.any Char.isDigit = true) ∨ c = '\x27' ∨ (∃ form, c = Quote.mark form) ∨
        (c = '/' ∧ ∃ u, t = '/' :: u) ∨ (c = '/' ∧ ∃ u, t = '*' :: u) ∨ OnlyOperator c t := by
  by_cases hword : isWordStart c = true
  · exact .inl hword
  refine .inr ?_
  by_cases hdigit : c.isDigit = true
  · exact .inl ⟨Bool.eq_false_iff.mpr hword, hdigit⟩
  refine .inr ?_
  by_cases hpoint : c = '.' ∧ t.head?.any Char.isDigit = true
  · exact .inl hpoint
  refine .inr ?_
  by_cases hchar : c = '\x27'
  · exact .inl hchar
  refine .inr ?_
  by_cases hstring : ∃ form, c = Quote.mark form
  · exact .inl hstring
  refine .inr ?_
  by_cases hline : c = '/' ∧ t.head? = some '/'
  · exact .inl ⟨hline.1, List.head?_eq_some_iff.mp hline.2⟩
  refine .inr ?_
  by_cases hdelimited : c = '/' ∧ t.head? = some '*'
  · exact .inl ⟨hdelimited.1, List.head?_eq_some_iff.mp hdelimited.2⟩
  refine .inr ?_
  refine ⟨Bool.eq_false_iff.mpr hword, Bool.eq_false_iff.mpr hdigit, ?_, hchar, ?_, ?_⟩
  · intro hc
    exact Bool.eq_false_iff.mpr fun hdigits => hpoint ⟨hc, hdigits⟩
  · intro form hform
    exact hstring ⟨form, hform⟩
  · intro hc
    exact ⟨fun hhead => hline ⟨hc, hhead⟩, fun hhead => hdelimited ⟨hc, hhead⟩⟩

/-- A literal that starts with a point is read again. -/
theorem leading_point_again {t w new : Text} (hpoint : t.head?.any Char.isDigit = true)
    (htext : (leading '.' t).text = '.' :: w) (hnew : NoFurther new (leading '.' t).rest) :
    leading '.' (w ++ new) = ⟨(leading '.' t).cls, '.' :: w, new⟩ := by
  rw [leading_point hpoint] at htext hnew ⊢
  obtain rfl : (Number.afterPoint t).text = w := (List.cons.inj htext).2
  have hagain := Number.stable_afterPoint.again t new hnew
  -- the literal has a digit after its point, so the same digit follows the point
  have hhead : ((Number.afterPoint t).text ++ new).head?.any Char.isDigit = true := by
    cases t with
    | nil => cases hpoint
    | cons d t =>
      obtain ⟨v, hv, -⟩ := Text.exists_tail (Number.stable_afterPoint.append (d :: t))
        (Number.afterPoint_text_ne_nil hpoint)
      rw [hv]
      exact hpoint
  rw [leading_point hhead, hagain]
  rfl

/-- **A legal token is read again** from its own text in front of any text that goes on no further
than the one it was read in front of, if that ends the line of a line comment. -/
theorem leading_again {c : Char} {t w new : Text} (htext : (leading c t).text = c :: w)
    (hlegal : (leading c t).Legal) (hnew : NoFurther new (leading c t).rest)
    (hline : (leading c t).cls = .comment .line → Comments.EndsLine (c :: w) new) :
    leading c (w ++ new) = ⟨(leading c t).cls, c :: w, new⟩ := by
  have hrest : w ++ (leading c t).rest = t := by
    have happend := leading_of c t
    rw [Of, htext] at happend
    exact (List.cons.inj happend).2
  rcases leading_cases c t with hword | ⟨hword, hdigit⟩ | ⟨rfl, hpoint⟩ | rfl | ⟨form, rfl⟩ |
    ⟨rfl, u, rfl⟩ | ⟨rfl, u, rfl⟩ | honly
  · rw [leading_word hword] at htext hnew ⊢
    have hagain := stable_word.again (c :: t) new hnew
    rw [htext] at hagain
    rw [leading_word hword, ← List.cons_append, hagain]
  · rw [leading_digit hword hdigit] at htext hnew ⊢
    have hagain := Number.literal_again hdigit hnew
    rw [htext] at hagain
    rw [leading_digit hword hdigit, ← List.cons_append, hagain]
  · exact leading_point_again hpoint htext hnew
  · rw [leading_char] at htext hlegal ⊢
    rw [leading_char, Quote.closed_charBody.again_prepend hlegal htext]
    rfl
  · rw [leading_string] at htext hlegal ⊢
    rw [leading_string, (Quote.closed_stringBody form false).again_prepend hlegal htext]
    rfl
  · rw [leading_lineComment] at htext hline ⊢
    obtain rfl : '/' :: (lineComment u).text = w := (List.cons.inj htext).2
    rw [List.cons_append, leading_lineComment, lineComment_again rfl (hline rfl).of_cons.of_cons]
    rfl
  · rw [leading_delimitedComment] at htext hlegal ⊢
    obtain rfl : '*' :: (Comments.delimitedBody u).text = w := (List.cons.inj htext).2
    rw [List.cons_append, leading_delimitedComment,
      Comments.closed_delimitedBody.again u hlegal new]
    rfl
  · -- no longer operator is found either, since the new text goes on no further than the old
    have hsame : NoFurther (w ++ new) t := by
      have happend := NoFurther.append hnew w
      rwa [hrest] at happend
    rw [leading_operator honly] at htext ⊢
    rw [leading_operator (honly.of_noFurther hsame), operator_again htext hsame]

/-- What a rule reads has one of its classes, or is illegal. -/
theorem cls_leading (c : Char) (t : Text) :
    (isWordStart c = true ∧
      ((leading c t).cls = .identifier ∨ ∃ k, (leading c t).cls = .keyword k)) ∨
    ((c.isDigit = true ∨ (c = '.' ∧ t.head?.any Char.isDigit = true)) ∧
      ∃ form, (leading c t).cls = .numeric form) ∨
    (c = '\x27' ∧ (leading c t).cls = .charLiteral) ∨
    (∃ form, c = Quote.mark form ∧ (leading c t).cls = .stringLiteral form) ∨
    (c = '/' ∧ ∃ u, t = '/' :: u ∧ (leading c t).cls = .comment .line) ∨
    (c = '/' ∧ ∃ u, t = '*' :: u ∧ (leading c t).cls = .comment .delimited) ∨
    (∃ p, (leading c t).cls = .punctuation p) ∨ ∃ reason, (leading c t).cls = .illegal reason := by
  rcases leading_cases c t with hword | ⟨hword, hdigit⟩ | ⟨rfl, hpoint⟩ | rfl | ⟨form, rfl⟩ |
    ⟨rfl, u, rfl⟩ | ⟨rfl, u, rfl⟩ | honly
  · rw [leading_word hword]
    exact .inl ⟨hword, cls_word _⟩
  · rw [leading_digit hword hdigit]
    rcases Number.isNumeric_literal (c :: t) with hcls | hcls <;> simp [hdigit, hcls]
  · rw [leading_point hpoint, cls_prepend]
    rcases Number.isNumeric_afterPoint t with hcls | hcls <;> simp [hpoint, hcls]
  · rw [leading_char, cls_prepend]
    rcases Quote.cls_charBody t with hcls | hcls <;> simp [hcls]
  · rw [leading_string, cls_prepend]
    rcases Quote.cls_stringBody form false t with hcls | hcls <;> simp [hcls]
  · rw [leading_lineComment]
    simp [lineComment]
  · rw [leading_delimitedComment, cls_prepend]
    rcases Comments.cls_delimitedBody u with hcls | hcls <;> simp [hcls]
  · rw [leading_operator honly]
    rcases cls_operator c t with ⟨p, hcls⟩ | hcls <;> simp [hcls]

/-- Literals in quotes and comments are told by the characters they start with: a string literal by
its quote, a comment by its mark, and anything else is neither. -/
theorem cls_leading_cases (c : Char) (t : Text) :
    ((∀ form, (leading c t).cls ≠ .stringLiteral form) ∧
      ∀ form, (leading c t).cls ≠ .comment form) ∨
    (∃ form, c = Quote.mark form ∧ (leading c t).cls = .stringLiteral form) ∨
    (c = '/' ∧ ∃ u, t = '/' :: u ∧ (leading c t).cls = .comment .line) ∨
    (c = '/' ∧ ∃ u, t = '*' :: u ∧ (leading c t).cls = .comment .delimited) := by
  rcases cls_leading c t with ⟨-, hcls | ⟨k, hcls⟩⟩ | ⟨-, form, hcls⟩ | ⟨-, hcls⟩ | hstring |
    hline | hdelimited | ⟨p, hcls⟩ | ⟨reason, hcls⟩
  · exact .inl (by simp [hcls])
  · exact .inl (by simp [hcls])
  · exact .inl (by simp [hcls])
  · exact .inl (by simp [hcls])
  · exact .inr (.inl hstring)
  · exact .inr (.inr (.inl hline))
  · exact .inr (.inr (.inr hdelimited))
  · exact .inl (by simp [hcls])
  · exact .inl (by simp [hcls])

/-- An identifier is spelled like no keyword. -/
theorem text_ne_of_identifier {c : Char} {t : Text} (h : (leading c t).cls = .identifier)
    (k : Keyword) : k.text ≠ (leading c t).text := by
  rcases cls_leading c t with ⟨hword, -⟩ | ⟨-, form, hcls⟩ | ⟨-, hcls⟩ | ⟨form, -, hcls⟩ |
    ⟨-, u, -, hcls⟩ | ⟨-, u, -, hcls⟩ | ⟨p, hcls⟩ | ⟨reason, hcls⟩
  · rw [leading_word hword] at h ⊢
    unfold word wordClass at h
    dsimp only at h
    split at h
    · exact nomatch h
    · rename_i hnone
      exact Keyword.ofText?_eq_none_iff.mp hnone k
  all_goals exact nomatch h.symm.trans hcls

/-- A string literal is read again in front of any text. -/
theorem leading_again_string {c : Char} {t w : Text} {form : StringForm}
    (hcls : (leading c t).cls = .stringLiteral form) (htext : (leading c t).text = c :: w)
    (new : Text) : leading c (w ++ new) = ⟨.stringLiteral form, c :: w, new⟩ := by
  have hlegal : (leading c t).Legal := fun reason h => nomatch hcls.symm.trans h
  rcases cls_leading_cases c t with ⟨hstring, -⟩ | ⟨form', rfl, -⟩ | ⟨-, u, -, hcomment⟩ |
    ⟨-, u, -, hcomment⟩
  · exact absurd hcls (hstring form)
  · rw [leading_string] at hcls htext hlegal ⊢
    rw [(Quote.closed_stringBody form' false).again_prepend hlegal htext, hcls]
    rfl
  · exact nomatch hcls.symm.trans hcomment
  · exact nomatch hcls.symm.trans hcomment

/-- What follows a comment to the end of the line ends the line. -/
theorem endsLine_leading {c : Char} {t : Text} (h : (leading c t).cls = .comment .line) :
    Comments.EndsLine (leading c t).text (leading c t).rest := by
  rcases cls_leading_cases c t with ⟨-, hcomment⟩ | ⟨form, -, hstring⟩ | ⟨rfl, u, rfl, -⟩ |
    ⟨-, u, -, hdelimited⟩
  · exact absurd h (hcomment .line)
  · exact nomatch h.symm.trans hstring
  · rw [leading_lineComment]
    obtain ⟨-, -, hends⟩ := Comments.endsLine_of_lineBody (Eq.refl (Comments.lineBody u))
    exact (hends.cons (by decide)).cons (by decide)
  · exact nomatch h.symm.trans hdelimited

/-- A text without gaps does not end with a line feed. -/
private theorem getLast?_ne_of_solid {text : Text} (h : ∀ x ∈ text, isGap x = false) :
    text.getLast? ≠ some '\n' := by
  intro hlast
  exact nomatch h '\n' (List.mem_of_getLast? hlast)

/-- A text in front of one that ends with a character ends with it too. -/
private theorem getLast?_append_ne {front back : Text} {last : Char} (h : back.getLast? = some last)
    (hlast : last ≠ '\n') : (front ++ back).getLast? ≠ some '\n' := by
  rw [List.getLast?_append, h, Option.some_or]
  exact fun heq => hlast (Option.some.inj heq)

/-- A legal token does not end with a line feed. -/
theorem getLast?_text_leading_ne {c : Char} (hc : isGap c = false) {t : Text}
    (hlegal : (leading c t).Legal) : (leading c t).text.getLast? ≠ some '\n' := by
  rcases leading_cases c t with hword | ⟨hword, hdigit⟩ | ⟨rfl, hpoint⟩ | rfl | ⟨form, rfl⟩ |
    ⟨rfl, u, rfl⟩ | ⟨rfl, u, rfl⟩ | honly
  · rw [leading_word hword]
    exact getLast?_ne_of_solid (stable_word.solid _)
  · rw [leading_digit hword hdigit]
    exact getLast?_ne_of_solid (Number.solid_literal c t)
  · rw [leading_point hpoint]
    apply getLast?_ne_of_solid
    intro x hx
    rcases List.mem_cons.mp hx with rfl | hx
    · rfl
    · exact Number.stable_afterPoint.solid t x hx
  · rw [leading_char] at hlegal ⊢
    exact getLast?_append_ne (Quote.closed_charBody.last_eq t hlegal) (by decide)
  · rw [leading_string] at hlegal ⊢
    refine getLast?_append_ne ((Quote.closed_stringBody form false).last_eq t hlegal) ?_
    cases form <;> decide
  · rw [leading_lineComment]
    intro hlast
    have hmem := List.mem_of_getLast? hlast
    have hbody := Comments.notMem_text_lineBody u
    simp only [text_prepend, List.mem_append, List.mem_cons, List.not_mem_nil, or_false] at hmem
    rcases hmem with (h | h) | h
    · exact nomatch h
    · exact nomatch h
    · exact hbody h
  · rw [leading_delimitedComment] at hlegal ⊢
    exact getLast?_append_ne (Comments.closed_delimitedBody.last_eq u hlegal) (by decide)
  · rw [leading_operator honly]
    exact getLast?_ne_of_solid (solid_operator hc t)

end Scan

end Frontend
