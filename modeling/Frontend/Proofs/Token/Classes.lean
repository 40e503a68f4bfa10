import Frontend.Token.Leading

/-!
# Classes of scans

What each rule of the scanner can come out with, whatever text it reads. Together these say of the
leading token of a text that it is never the end of the file, and that it is a line comment only
where its text stays on one line.
-/

namespace Frontend

namespace Scan

/-- Text in front does not change the class of a scan. -/
@[simp] theorem cls_prepend (front : Text) (s : Scan) : (s.prepend front).cls = s.cls := rfl

/-- Text in front of a scan is in front of the text that it has read. -/
@[simp] theorem text_prepend (front : Text) (s : Scan) :
    (s.prepend front).text = front ++ s.text := rfl

end Scan

namespace Number

/-- The classes of numeric literals, complete ones and malformed ones. -/
def IsNumeric (cls : TokenClass) : Prop :=
  (∃ form, cls = .numeric form) ∨ cls = .illegal .malformedNumber

/-- Behind a radix mark there are digits, or the literal is malformed. -/
private theorem isNumeric_afterMark (radix : Nat) (t : Text) :
    IsNumeric (afterMark radix t).cls := by
  unfold afterMark
  dsimp only
  split
  · exact .inl ⟨_, rfl⟩
  · exact .inr rfl

/-- A complete literal is numeric, with an imaginary mark or without. -/
private theorem isNumeric_suffix (form : NumericForm) (t : Text) :
    IsNumeric (suffix form t).cls :=
  .inl ⟨_, rfl⟩

/-- An exponent has digits, or the literal is malformed. -/
private theorem isNumeric_exponentDigits (t : Text) : IsNumeric (exponentDigits t).cls := by
  unfold exponentDigits
  dsimp only
  split
  · exact isNumeric_suffix _ _
  · exact .inr rfl

/-- Behind the digits of a literal there is an exponent, which may be malformed, or its end. -/
private theorem isNumeric_tail (form : NumericForm) (t : Text) : IsNumeric (tail form t).cls := by
  unfold tail
  dsimp only
  split
  · exact isNumeric_suffix _ _
  · exact isNumeric_exponentDigits _

/-- A decimal literal is a numeric literal or a malformed one. -/
private theorem isNumeric_decimal (t : Text) : IsNumeric (decimal t).cls := by
  unfold decimal afterWhole
  dsimp only [Scan.cls_prepend]
  split
  · exact isNumeric_tail _ _
  · exact isNumeric_tail _ _

/-- A literal after its point is a numeric literal or a malformed one. -/
theorem isNumeric_afterPoint (t : Text) : IsNumeric (afterPoint t).cls :=
  isNumeric_tail _ _

/-- What starts like a number is a numeric literal or a malformed one. -/
theorem isNumeric_literal (t : Text) : IsNumeric (literal t).cls := by
  have hzero (u : Text) : IsNumeric (afterZero u).cls := by
    unfold afterZero
    dsimp only
    split
    · exact isNumeric_decimal _
    · exact .inl ⟨_, rfl⟩
  unfold literal
  split
  · split
    · exact isNumeric_afterMark _ _
    · exact hzero _
  · exact hzero _
  · exact isNumeric_decimal _

end Number

namespace Quote

/-- A payload with a quote behind it is a character literal, and any other is unterminated. -/
private theorem cls_closeChar (payload t : Text) :
    (closeChar payload t).cls = .charLiteral ∨
      (closeChar payload t).cls = .illegal (.unterminated .char) := by
  unfold closeChar
  split
  · exact .inl rfl
  · exact .inr rfl

/-- What starts with a single quote is a character literal or an unterminated one. -/
theorem cls_charBody (t : Text) :
    (charBody t).cls = .charLiteral ∨ (charBody t).cls = .illegal (.unterminated .char) := by
  unfold charBody
  split
  · split <;> exact cls_closeChar _ _
  · exact cls_closeChar _ _
  · exact .inr rfl
  · split <;> exact cls_closeChar _ _
  · exact cls_closeChar _ _

/-- What starts with the quote of a form of string literals is one of that form or left open. -/
theorem cls_stringBody (form : StringForm) (escaped : Bool) (t : Text) :
    (stringBody form escaped t).cls = .stringLiteral form ∨
      (stringBody form escaped t).cls = .illegal (.unterminated (unclosed form)) := by
  induction t generalizing escaped with
  | nil => exact .inr rfl
  | cons c t ih =>
    unfold stringBody
    split
    · exact .inr rfl
    split
    · exact .inl rfl
    · exact ih _

end Quote

namespace Comments

/-- What starts like a delimited comment is one or is left open. -/
theorem cls_delimitedBody (t : Text) :
    (delimitedBody t).cls = .comment .delimited ∨
      (delimitedBody t).cls = .illegal (.unterminated .comment) := by
  induction t with
  | nil => exact .inr rfl
  | cons c t ih =>
    unfold delimitedBody
    split
    · exact .inl rfl
    · exact ih

/-- A line comment stays on its line. -/
theorem notMem_text_lineBody (t : Text) : '\n' ∉ (lineBody t).text := by
  induction t with
  | nil => exact List.not_mem_nil
  | cons c t ih =>
    unfold lineBody
    split
    · exact List.not_mem_nil
    · rename_i h
      have hc : '\n' ≠ c := fun heq => h (.inl heq.symm)
      simpa [hc] using ih

end Comments

namespace Scan

/-- A word is a keyword or an identifier. -/
theorem cls_word (t : Text) :
    (word t).cls = .identifier ∨ ∃ k, (word t).cls = .keyword k := by
  unfold word wordClass
  dsimp only
  split
  · exact .inr ⟨_, rfl⟩
  · exact .inl rfl

/-- What no other rule reads is an operator or delimiter, or its first character is to blame. -/
theorem cls_operator (c : Char) (t : Text) :
    (∃ p, (operator c t).cls = .punctuation p) ∨
      (operator c t).cls = .illegal (.unexpected c) := by
  unfold operator
  split
  · exact .inl ⟨_, rfl⟩
  · exact .inr rfl

/-- What a piece of text between tokens may be: never the end of the file, and a line comment only
if it stays on its line. -/
def Sound (s : Scan) : Prop :=
  s.cls ≠ .endOfFile ∧ (s.cls = .comment .line → '\n' ∉ s.text)

/-- What is numeric is neither the end of the file nor a comment. -/
private theorem sound_of_isNumeric {s : Scan} (h : Number.IsNumeric s.cls) : s.Sound := by
  rcases h with ⟨form, h⟩ | h <;> simp [Sound, h]

/-- The leading token of a text is sound. -/
theorem sound_leading (c : Char) (t : Text) : (leading c t).Sound := by
  unfold leading
  split
  · rcases cls_word (c :: t) with h | ⟨k, h⟩ <;> simp [Sound, h]
  split
  · exact sound_of_isNumeric (Number.isNumeric_literal _)
  split
  · exact sound_of_isNumeric (Number.isNumeric_afterPoint t)
  split
  · rcases Quote.cls_charBody t with h | h <;> simp [Sound, h]
  split
  · rcases Quote.cls_stringBody .interpreted false t with h | h <;> simp [Sound, h]
  split
  · rcases Quote.cls_stringBody .raw false t with h | h <;> simp [Sound, h]
  split
  · rename_i h
    have hc : '\n' ≠ c := by rw [h.1]; decide
    simpa [Sound, lineComment, hc] using Comments.notMem_text_lineBody t.tail
  split
  · rcases Comments.cls_delimitedBody t.tail with h | h <;> simp [Sound, h]
  · rcases cls_operator c t with ⟨p, h⟩ | h <;> simp [Sound, h]

/-- Keywords, operators and delimiters are spelled as they are called. -/
def Spelled (s : Scan) : Prop :=
  (∀ k, s.cls = .keyword k → s.text = k.text) ∧ ∀ p, s.cls = .punctuation p → s.text = p.text

/-- Tokens of other classes have no spelling to keep to. -/
theorem spelled_of_ne {s : Scan} (hkeyword : ∀ k, s.cls ≠ .keyword k)
    (hpunctuation : ∀ p, s.cls ≠ .punctuation p) : s.Spelled :=
  ⟨fun k h => absurd h (hkeyword k), fun p h => absurd h (hpunctuation p)⟩

/-- What is numeric has no spelling to keep to. -/
private theorem spelled_of_isNumeric {s : Scan} (h : Number.IsNumeric s.cls) : s.Spelled := by
  rcases h with ⟨form, h⟩ | h <;> exact spelled_of_ne (by simp [h]) (by simp [h])

/-- A word is read as a keyword only if it spells that keyword. -/
private theorem spelled_word (t : Text) : (word t).Spelled := by
  unfold word wordClass
  dsimp only
  split
  · rename_i k hword
    refine ⟨?_, nofun⟩
    intro k' hk'
    obtain rfl : k = k' := TokenClass.keyword.inj hk'
    exact (Keyword.ofText?_eq_some_iff.mp hword).symm
  · exact spelled_of_ne nofun nofun

/-- An operator is listed with the text that is read for it. -/
private theorem spelled_operator (c : Char) (t : Text) : (operator c t).Spelled := by
  unfold operator
  split
  · rename_i rest p hfind
    refine ⟨nofun, ?_⟩
    intro p' hp'
    obtain rfl : p = p' := TokenClass.punctuation.inj hp'
    exact (Punctuation.mem_continuations_iff.mp (List.mem_of_find?_eq_some hfind)).symm
  · exact spelled_of_ne nofun nofun

/-- The leading token of a text is spelled as it is called. -/
theorem spelled_leading (c : Char) (t : Text) : (leading c t).Spelled := by
  unfold leading
  split
  · exact spelled_word _
  split
  · exact spelled_of_isNumeric (Number.isNumeric_literal _)
  split
  · exact spelled_of_isNumeric (Number.isNumeric_afterPoint t)
  split
  · rcases Quote.cls_charBody t with h | h <;> exact spelled_of_ne (by simp [h]) (by simp [h])
  split
  · rcases Quote.cls_stringBody .interpreted false t with h | h <;>
      exact spelled_of_ne (by simp [h]) (by simp [h])
  split
  · rcases Quote.cls_stringBody .raw false t with h | h <;>
      exact spelled_of_ne (by simp [h]) (by simp [h])
  split
  · exact spelled_of_ne nofun nofun
  split
  · rcases Comments.cls_delimitedBody t.tail with h | h <;>
      exact spelled_of_ne (by simp [h]) (by simp [h])
  · exact spelled_operator c t

end Scan

end Frontend
