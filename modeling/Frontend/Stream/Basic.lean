import Frontend.Stream.LexicalError
import Frontend.Token.Leading

/-!
# Token streams

A token stream is what a reader of the language works on: the tokens of a text without its white
space and comments, closed by an end-of-file token, and the comments apart. Where a line ends
after a token that can end a statement, a semicolon with an empty lexeme is inserted; a comment
that spans lines counts as the line break it contains.

A pass over a text stops at the first illegal token. `Pass` keeps what was found up to there, and
`TokenStream.ofText` is the stream of a text all of whose tokens are legal.
-/

namespace Frontend

/-- A comment and its form. -/
structure Comment where
  form : CommentForm
  lexeme : Lexeme
  deriving DecidableEq, Repr

/-- The tokens of a text, inserted semicolons and the end of the file included, and its comments,
both in the order of the text. -/
structure TokenStream where
  tokens : List Token
  comments : List Comment
  deriving DecidableEq, Repr

/-- The semicolon inserted at an offset. -/
def insertedSemicolon (offset : Nat) : Token :=
  ⟨.punctuation .semicolon, offset, []⟩

/-- The end of a file of the given size. -/
def endOfFile (size : Nat) : Token :=
  ⟨.endOfFile, size, []⟩

/-- What a pass over a text has found, and the error that stopped it, if one did. -/
structure Pass where
  tokens : List Token
  comments : List Comment
  error : Option LexicalError
  deriving DecidableEq, Repr

namespace Pass

/-- The pass that found the end of the file first. -/
def finished (size : Nat) : Pass :=
  ⟨[endOfFile size], [], none⟩

/-- The pass that found an illegal token first. -/
def stopped (e : LexicalError) : Pass :=
  ⟨[], [], some e⟩

/-- The pass that found a token before others. -/
def withToken (t : Token) (p : Pass) : Pass :=
  { p with tokens := t :: p.tokens }

/-- The pass that found a comment before others. -/
def withComment (c : Comment) (p : Pass) : Pass :=
  { p with comments := c :: p.comments }

/-- The pass that inserted a semicolon at an offset before others, if there is an offset. -/
def withSemicolon (offset : Option Nat) (p : Pass) : Pass :=
  match offset with
  | none => p
  | some offset => p.withToken (insertedSemicolon offset)

/-- Where the first line feed of a comment stands, if the comment spans lines. -/
def lineFeedOffset? (form : CommentForm) (l : Lexeme) : Option Nat :=
  if form = .delimited ∧ '\n' ∈ l.text then
    some (l.start + Text.size (l.text.takeWhile (· ≠ '\n')))
  else none

/-- A pass over what is left of a text from an offset on; `armed` says whether the last token can
end a statement that no line break has ended yet. -/
def through (armed : Bool) (offset : Nat) : Text → Pass
  | [] => finished offset
  | c :: t =>
    if c = '\n' then
      (through false (offset + c.utf8Size) t).withSemicolon (if armed then some offset else none)
    else if isBlank c then through armed (offset + c.utf8Size) t
    else
      let scan := Scan.leading c t
      let lexeme : Lexeme := ⟨offset, scan.text⟩
      match scan.cls with
      | .comment form =>
        let feed? := if armed then lineFeedOffset? form lexeme else none
        ((through (armed && feed?.isNone) lexeme.stop scan.rest).withComment
          ⟨form, lexeme⟩).withSemicolon feed?
      | .illegal reason => stopped ⟨reason, lexeme⟩
      | cls => (through cls.arms lexeme.stop scan.rest).withToken ⟨cls, lexeme⟩
termination_by t => t.length
decreasing_by
  · simp
  · simp
  · exact Scan.length_rest_leading c t
  · exact Scan.length_rest_leading c t

end Pass

/-- The pass over a text from its start on. -/
def passOver (t : Text) : Pass :=
  Pass.through false 0 t

namespace TokenStream

/-- The token stream of a text, or the error that its first illegal token is. -/
def ofText (t : Text) : Except LexicalError TokenStream :=
  let pass := passOver t
  match pass.error with
  | none => .ok ⟨pass.tokens, pass.comments⟩
  | some e => .error e

/-- The kinds of the tokens. -/
def kinds (s : TokenStream) : List TokenKind :=
  s.tokens.map Token.kind

end TokenStream

end Frontend
