import Frontend.Token.Number
import Frontend.Token.Quote
import Frontend.Token.Comment
import Frontend.Unicode.Classes

/-!
# The leading token of a text

The first character, and for a few of them the second, decides which rule reads a token: words,
numbers, literals in quotes, comments, and the longest operator or delimiter. A character that no
rule reads is a token by itself, an illegal one. `leading_of` and `leading_text_ne_nil` say that
a scan loses nothing and always gets ahead.
-/

namespace Frontend

/-- A character that a word can start with. -/
def isWordStart (c : Char) : Bool :=
  c = '_' || Unicode.isLetter c

/-- A character that a word can go on with. -/
def isWordPart (c : Char) : Bool :=
  isWordStart c || Unicode.isDecimalDigit c

/-- White space between tokens. Line feeds are not among it, they may end a statement. -/
def isBlank (c : Char) : Bool :=
  c = ' ' || c = '\t' || c = '\r'

namespace Scan

/-- The class of a word: a keyword if it is spelled like one, an identifier otherwise. -/
def wordClass (word : Text) : TokenClass :=
  match Keyword.ofText? word with
  | some k => .keyword k
  | none => .identifier

/-- The longest word a text starts with. -/
def word (t : Text) : Scan :=
  let run := Taken.run isWordPart t
  ⟨wordClass run.text, run.text, run.rest⟩

/-- A comment that runs to the end of the line. -/
def lineComment (t : Text) : Scan :=
  let body := Comments.lineBody t
  ⟨.comment .line, body.text, body.rest⟩

/-- The longest operator or delimiter that starts with the character, or the character alone. -/
def operator (c : Char) (t : Text) : Scan :=
  match (Punctuation.continuations c).find? fun entry => entry.1.isPrefixOf t with
  | some (rest, p) => ⟨.punctuation p, c :: rest, t.drop rest.length⟩
  | none => ⟨.illegal (.unexpected c), [c], t⟩

/-- The token that a text of a first character and others starts with. -/
def leading (c : Char) (t : Text) : Scan :=
  if isWordStart c then word (c :: t)
  else if c.isDigit then Number.literal (c :: t)
  else if c = '.' ∧ t.head?.any Char.isDigit then (Number.afterPoint t).prepend [c]
  else if c = '\x27' then (Quote.charBody t).prepend [c]
  else if c = Quote.mark .interpreted then (Quote.stringBody .interpreted false t).prepend [c]
  else if c = Quote.mark .raw then (Quote.stringBody .raw false t).prepend [c]
  else if c = '/' ∧ t.head? = some '/' then (lineComment t.tail).prepend [c, '/']
  else if c = '/' ∧ t.head? = some '*' then (Comments.delimitedBody t.tail).prepend [c, '*']
  else operator c t

/-- The token that a text starts with, if there is a text. -/
def leading? : Text → Option Scan
  | [] => none
  | c :: t => some (leading c t)

/-- Scanning a word loses nothing of the text. -/
private theorem word_of (t : Text) : (word t).Of t :=
  Taken.text_append_rest_run _ t

/-- Scanning a line comment loses nothing of the text behind its slashes. -/
private theorem lineComment_of (t : Text) : (lineComment t).Of t :=
  Comments.lineBody_append t

/-- Scanning an operator or delimiter loses nothing of the text. -/
theorem operator_of (c : Char) (t : Text) : (operator c t).Of (c :: t) := by
  unfold operator
  split
  · rename_i rest p h
    have hp : rest <+: t := by simpa using List.find?_some h
    obtain ⟨after, rfl⟩ := hp
    simp [Of]
  · rfl

/-- Scanning the leading token loses nothing of the text. -/
theorem leading_of (c : Char) (t : Text) : (leading c t).Of (c :: t) := by
  have hsecond {d : Char} (h : t.head? = some d) : [c, d] ++ t.tail = c :: t := by
    obtain ⟨rest, rfl⟩ := List.head?_eq_some_iff.mp h
    rfl
  unfold leading
  split
  · exact word_of _
  split
  · exact Number.literal_of _
  split
  · exact (Number.fraction_of t).prepend [c]
  split
  · exact (Quote.charBody_of t).prepend [c]
  split
  · exact (Quote.stringBody_of _ _ t).prepend [c]
  split
  · exact (Quote.stringBody_of _ _ t).prepend [c]
  split
  · rename_i h
    exact (lineComment_of _).prepend_taken (hsecond h.2)
  split
  · rename_i h
    exact (Comments.delimitedBody_of _).prepend_taken (hsecond h.2)
  · exact operator_of c t

/-- A word has at least the character it starts with. -/
private theorem word_text_ne_nil {c : Char} (h : isWordPart c) (t : Text) :
    (word (c :: t)).text ≠ [] := by
  simp [word, Taken.run, h]

/-- An operator or delimiter, or what is read in place of one, has at least one character. -/
theorem operator_text_ne_nil (c : Char) (t : Text) : (operator c t).text ≠ [] := by
  unfold operator
  split <;> simp

/-- The leading token has at least one character. -/
theorem leading_text_ne_nil (c : Char) (t : Text) : (leading c t).text ≠ [] := by
  unfold leading
  split
  · rename_i h
    exact word_text_ne_nil (by simp [isWordPart, h]) t
  split
  · rename_i h
    exact Number.literal_text_ne_nil h t
  iterate 6
    split
    · simp [Scan.prepend]
  exact operator_text_ne_nil c t

/-- What is left after the leading token is shorter than the text. -/
theorem length_rest_leading (c : Char) (t : Text) :
    (leading c t).rest.length < (c :: t).length := by
  have hof := congrArg List.length (leading_of c t)
  have hpos := List.length_pos_iff.mpr (leading_text_ne_nil c t)
  rw [List.length_append] at hof
  omega

end Scan

end Frontend
