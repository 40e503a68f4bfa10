import Frontend.Proofs.Source.Reached
import Frontend.Proofs.Source.Spans
import Frontend.Proofs.Token.Rereading

/-!
# Tokens that stand alone

A rule of the scanner may look past the end of its token, but what it finds there only stops it, and
the end of the text stops it as well. So every token is read again from its own text alone, and that
goes for illegal ones too: what was left open in front of a line break is left open at the end, and
what closed a token is part of its text.
-/

namespace Frontend

/-- A rule that reads each of its tokens, illegal ones included, from the text of the token alone. -/
def Scan.Alone (f : Text → Scan) : Prop :=
  ∀ t, f (f t).text = ⟨(f t).cls, (f t).text, []⟩

namespace Quote

/-- The text of a literal is its payload, and the quote behind it if there is one. -/
private theorem closeChar_alone (payload t : Text) :
    ∃ w, (closeChar payload t).text = payload ++ w ∧
      closeChar payload w = ⟨(closeChar payload t).cls, (closeChar payload t).text, []⟩ := by
  unfold closeChar
  split
  · exact ⟨['\x27'], rfl, rfl⟩
  · exact ⟨[], (List.append_nil payload).symm, rfl⟩

/-- A character literal is read from its text alone, be it closed or left open. -/
theorem alone_charBody : Scan.Alone charBody := by
  intro t
  cases t with
  | nil => rfl
  | cons c t =>
    by_cases hfeed : c = '\n'
    · subst hfeed
      rfl
    by_cases hquote : c = '\x27'
    · subst hquote
      rfl
    by_cases hbackslash : c = '\\'
    · subst hbackslash
      cases t with
      | nil => rfl
      | cons d t =>
        by_cases hline : d = '\n'
        · subst hline
          rfl
        · have hescape (u : Text) : charBody ('\\' :: d :: u) = closeChar ['\\', d] u := by
            rw [charBody, if_neg hline]
          obtain ⟨w, htext, halone⟩ := closeChar_alone ['\\', d] t
          rw [hescape, htext, List.cons_append, List.singleton_append, hescape, halone, htext]
          rfl
    · obtain ⟨w, htext, halone⟩ := closeChar_alone [c] t
      rw [charBody_cons hfeed hquote hbackslash, htext, List.singleton_append,
        charBody_cons hfeed hquote hbackslash, halone, htext]
      rfl

/-- A string literal is read from its text alone, be it closed or left open. -/
theorem alone_stringBody (form : StringForm) (escaped : Bool) :
    Scan.Alone (stringBody form escaped) := by
  intro t
  induction t generalizing escaped with
  | nil => rfl
  | cons c t ih =>
    rw [stringBody]
    split
    · rfl
    · rename_i hbreak
      split
      · rename_i hquote
        rw [stringBody, if_neg hbreak, if_pos hquote]
      · rename_i hquote
        rw [Scan.text_prepend, List.singleton_append, stringBody, if_neg hbreak, if_neg hquote, ih]
        rfl

end Quote

namespace Comments

/-- A delimited comment is read from its text alone, be it closed or left open. -/
theorem alone_delimitedBody : Scan.Alone delimitedBody := by
  intro t
  induction t with
  | nil => rfl
  | cons c t ih =>
    rw [delimitedBody]
    split
    · rfl
    · rename_i hopen
      -- what is left of the comment is a beginning of what was left of the text
      have hopen' : ¬(c = '*' ∧ (delimitedBody t).text.head? = some '/') := by
        rintro ⟨hc, hhead⟩
        obtain ⟨w, hw⟩ := List.head?_eq_some_iff.mp hhead
        have happend : (delimitedBody t).text ++ (delimitedBody t).rest = t := delimitedBody_of t
        rw [hw] at happend
        exact hopen ⟨hc, by rw [← happend]; rfl⟩
      rw [Scan.text_prepend, List.singleton_append, delimitedBody, if_neg hopen', ih]
      rfl

end Comments

namespace Scan

/-- A rule that reads its tokens alone does so behind their opening text too. -/
theorem Alone.prepend {f : Text → Scan} (hf : Alone f) {t w front : Text}
    (htext : ((f t).prepend front).text = front ++ w) :
    (f w).prepend front = ⟨((f t).prepend front).cls, front ++ w, []⟩ := by
  obtain rfl : (f t).text = w := List.append_cancel_left htext
  rw [hf]
  rfl

/-- **Every token is read again from its own text alone**, be it legal or not. -/
theorem leading_alone {c : Char} {t w : Text} (htext : (leading c t).text = c :: w) :
    leading c w = ⟨(leading c t).cls, c :: w, []⟩ := by
  have hnew : NoFurther [] (leading c t).rest := .nil _
  rcases leading_cases c t with hword | ⟨hword, hdigit⟩ | ⟨rfl, hpoint⟩ | rfl | ⟨form, rfl⟩ |
    ⟨rfl, u, rfl⟩ | ⟨rfl, u, rfl⟩ | honly
  · rw [leading_word hword] at htext hnew
    have hagain := stable_word.again (c :: t) [] hnew
    rw [htext, List.append_nil] at hagain
    rw [leading_word hword, leading_word hword, hagain]
  · rw [leading_digit hword hdigit] at htext hnew
    have hagain := Number.literal_again hdigit hnew
    rw [htext, List.append_nil] at hagain
    rw [leading_digit hword hdigit, leading_digit hword hdigit, hagain]
  · have hagain := leading_point_again hpoint htext hnew
    rwa [List.append_nil] at hagain
  · rw [leading_char] at htext ⊢
    rw [leading_char, Quote.alone_charBody.prepend htext]
    rfl
  · rw [leading_string] at htext ⊢
    rw [leading_string, (Quote.alone_stringBody form false).prepend htext]
    rfl
  · rw [leading_lineComment] at htext ⊢
    obtain rfl : '/' :: (lineComment u).text = w := (List.cons.inj htext).2
    have hagain := lineComment_again (Eq.refl (lineComment u).text) (.inl (Eq.refl []))
    rw [List.append_nil] at hagain
    rw [leading_lineComment, hagain]
    rfl
  · rw [leading_delimitedComment] at htext ⊢
    obtain rfl : '*' :: (Comments.delimitedBody u).text = w := (List.cons.inj htext).2
    rw [leading_delimitedComment, Comments.alone_delimitedBody]
    rfl
  · -- the token alone goes on no further than the text did, so no longer operator is found
    have hrest : w ++ (leading c t).rest = t := by
      have happend := leading_of c t
      rw [Of, htext] at happend
      exact (List.cons.inj happend).2
    have hsame : NoFurther (w ++ []) t := by
      have happend := NoFurther.append hnew w
      rwa [hrest] at happend
    rw [leading_operator honly] at htext ⊢
    have hagain := operator_again htext hsame
    rw [List.append_nil] at hagain hsame
    rw [leading_operator (honly.of_noFurther hsame), hagain]

end Scan

namespace Cursor

variable {file : SourceFile} {c after : Cursor} {t : Token}

/-- The span of a token that is read at a cursor covers the text of the token. -/
theorem In.text_span_token (hc : c.In file.content) (h : c.token = (.ok t, after)) :
    (t.span file).text = t.text :=
  (hc.between_token h).2.2.slice_eq

/-- A token that is read at a cursor is read from its own text, and nothing is left. -/
theorem yields_of_token (h : c.token = (.ok t, after)) :
    (ofText t.text).Yields t.cls t.text [] := by
  rcases c.token_eq with ⟨-, hread⟩ | ⟨x, u, after', -, hread, -⟩
  · rw [h] at hread
    exact nomatch hread
  · obtain rfl := Except.ok.inj (congrArg Prod.fst (h.symm.trans hread))
    obtain ⟨w, htext, -⟩ := Text.exists_tail (Scan.leading_of x u) (Scan.leading_text_ne_nil x u)
    rw [htext]
    exact yields_of_leading rfl (Scan.leading_alone htext)

/-- Before the end of a text every cursor reads some token. -/
theorem exists_token (h : c.rest ≠ []) : ∃ t after, c.token = (.ok t, after) := by
  rcases c.token_eq with ⟨hnil, -⟩ | ⟨x, u, after, -, htoken, -⟩
  · exact absurd hnil h
  · exact ⟨_, after, htoken⟩

/-- **Every token is reproduced by its own text.** Before the end of a file every cursor reads some
token. The text that its span covers, in a file of its own under whatever name, is read as a token of
the same class, whose span is all of that file, and nothing is left. -/
theorem token_of_own_text (hc : c.In file.content) (hrest : c.rest ≠ []) :
    ∃ t after, c.token = (.ok t, after) ∧ ∀ name,
      let own := SourceFile.ofText name (t.span file).text
      ∃ t' last, (ofText own.content).token = (.ok t', last) ∧ t'.cls = t.cls ∧
        t'.span own = ⟨own, 0, Text.size own.content⟩ ∧ (t'.span own).text = (t.span file).text ∧
        last.rest = [] ∧ last.offset = Text.size own.content := by
  obtain ⟨t, after, htoken⟩ := exists_token hrest
  refine ⟨t, after, htoken, fun name => ?_⟩
  rw [hc.text_span_token htoken]
  obtain ⟨last, hlast, hend, hoffset⟩ := yields_of_token htoken
  have hin : (ofText t.text).In (SourceFile.ofText name t.text).content := in_ofText t.text
  have hsize : (ofText t.text).offset + Text.size t.text = Text.size t.text := Nat.zero_add _
  refine ⟨_, last, hlast, rfl, ?_, hin.text_span_token hlast, hend, hoffset.trans hsize⟩
  rw [Token.span, Lexeme.span, Lexeme.stop, hsize]
  rfl

/-- A character literal on the second line that the line break leaves open, with a quote of its own
behind: the literal is left open at the end of its own text too. -/
theorem token_of_own_text_open :
    let file := SourceFile.ofText "a" ['x', '\n', '\x27', 'é', '\n', '\x27']
    ∃ t after, (ofText file.content).next.next.token = (.ok t, after) ∧
      t.cls = .illegal (.unterminated .char) ∧ (t.span file).text = ['\x27', 'é'] ∧
      ∃ t' last, (ofText ['\x27', 'é']).token = (.ok t', last) ∧
        t'.cls = .illegal (.unterminated .char) ∧ last.rest = [] ∧ last.offset = 3 := by
  intro file
  have hin : (ofText file.content).next.next.In file.content := Reached.start.next.next.inText
  obtain ⟨t, after, htoken, hown⟩ := token_of_own_text hin (by decide)
  have hread : (ofText file.content).next.next.token =
      (.ok ⟨.illegal (.unterminated .char), 2, ['\x27', 'é']⟩, ⟨5, some (3, 'é'), ['\n', '\x27']⟩) := by
    cbv
  obtain rfl := Except.ok.inj (congrArg Prod.fst (htoken.symm.trans hread))
  have htext := hin.text_span_token htoken
  obtain ⟨t', last, htoken', hcls, -, -, hend, hoffset⟩ := hown "b"
  rw [htext] at htoken' hoffset
  exact ⟨_, after, htoken, rfl, htext, t', last, htoken', hcls, hend, hoffset⟩

end Cursor

end Frontend
