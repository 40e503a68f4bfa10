import Frontend.Token.Keyword
import Frontend.Token.Punctuation
import Frontend.Source.Span

/-!
# Tokens

A token is a class and the stretch of text that was read as it. The class carries what the text
alone does not say at a glance: which keyword, which operator, which form of a literal, or why
the text is no token of the language. `TokenKind` is the coarser view that readers of a token
stream take.
-/

namespace Frontend

/-- A stretch of a text: where it starts and what it says. -/
structure Lexeme where
  start : Nat
  text : Text
  deriving DecidableEq, Repr

namespace Lexeme

/-- The offset after the last character. -/
def stop (l : Lexeme) : Nat :=
  l.start + Text.size l.text

/-- The span of the lexeme in the file it was read from. -/
def span (file : SourceFile) (l : Lexeme) : Span :=
  ⟨file, l.start, l.stop⟩

/-- The first and the last character taken off, which are the quotes of a literal. -/
def unquoted (l : Lexeme) : Text :=
  l.text.tail.dropLast

end Lexeme

/-- The lexeme that a span covers. -/
def Span.lexeme (s : Span) : Lexeme :=
  ⟨s.start, s.text⟩

/-- The forms of numeric literals. -/
inductive NumericForm where
  | int
  | float
  | imaginary
  deriving DecidableEq, Ord, Repr

/-- The forms of string literals. -/
inductive StringForm where
  /-- In double quotes, on one line. -/
  | interpreted
  /-- In back quotes, over any number of lines. -/
  | raw
  deriving DecidableEq, Ord, Repr

/-- The forms of comments. -/
inductive CommentForm where
  /-- From two slashes to the end of the line. -/
  | line
  /-- From an opening to a closing mark. -/
  | delimited
  deriving DecidableEq, Ord, Repr

/-- What can be opened and left open. -/
inductive Unclosed where
  | char
  | string
  | rawString
  | comment
  deriving DecidableEq, Ord, Repr

/-- Why a stretch of text is no token of the language. -/
inductive IllegalReason where
  /-- A literal or a comment is never closed. -/
  | unterminated (what : Unclosed)
  /-- A radix mark or an exponent has no digits. -/
  | malformedNumber
  /-- No token starts with the character. -/
  | unexpected (c : Char)
  deriving DecidableEq, Ord, Repr

/-- What a token is. -/
inductive TokenClass where
  | identifier
  | keyword (k : Keyword)
  | punctuation (p : Punctuation)
  | numeric (form : NumericForm)
  | charLiteral
  | stringLiteral (form : StringForm)
  | comment (form : CommentForm)
  | illegal (reason : IllegalReason)
  | endOfFile
  deriving DecidableEq, Ord, Repr

/-- A token of a text. -/
structure Token where
  cls : TokenClass
  lexeme : Lexeme
  deriving DecidableEq, Repr

/-- The classes of tokens as readers of a token stream tell them apart. -/
inductive TokenKind where
  | identifier
  | int
  | float
  | imaginary
  | char
  | string
  | comment
  | illegal
  | endOfFile
  | keyword (k : Keyword)
  | punctuation (p : Punctuation)
  deriving DecidableEq, Ord, Repr

namespace TokenClass

/-- The kind of tokens of the class. -/
def kind : TokenClass → TokenKind
  | identifier => .identifier
  | keyword k => .keyword k
  | punctuation p => .punctuation p
  | numeric .int => .int
  | numeric .float => .float
  | numeric .imaginary => .imaginary
  | charLiteral => .char
  | stringLiteral _ => .string
  | comment _ => .comment
  | illegal _ => .illegal
  | endOfFile => .endOfFile

/-- Whether a line break after a token of the class ends the statement: after names and literals,
and after the keywords, operators and delimiters that can stand last in a statement. -/
def arms : TokenClass → Bool
  | identifier | numeric _ | charLiteral | stringLiteral _ => true
  | keyword k => k.endsStatement
  | punctuation p => p.endsStatement
  | comment _ | illegal _ | endOfFile => false

/-- Place of the class among the others, whatever it carries. -/
def rank : TokenClass → Nat
  | identifier => 0
  | keyword _ => 1
  | punctuation _ => 2
  | numeric _ => 3
  | charLiteral => 4
  | stringLiteral _ => 5
  | comment _ => 6
  | illegal _ => 7
  | endOfFile => 8

end TokenClass

namespace Token

/-- The text of the token. -/
def text (t : Token) : Text :=
  t.lexeme.text

/-- Offset of the first character. -/
def start (t : Token) : Nat :=
  t.lexeme.start

/-- Offset after the last character. -/
def stop (t : Token) : Nat :=
  t.lexeme.stop

/-- The span of the token in the file it was read from. -/
def span (file : SourceFile) (t : Token) : Span :=
  t.lexeme.span file

/-- The kind of the token. -/
def kind (t : Token) : TokenKind :=
  t.cls.kind

/-- Whether a line break after the token ends the statement. -/
def arms (t : Token) : Bool :=
  t.cls.arms

/-- Tokens are ordered by their classes, then by where they stand, then by what they carry. -/
def compare (a b : Token) : Ordering :=
  (Ord.compare a.cls.rank b.cls.rank).then <|
    (Ord.compare a.start b.start).then <|
      (Ord.compare a.stop b.stop).then (Ord.compare a.cls b.cls)

/-- The places of the tokens of a list in increasing order of the tokens; equal ones keep their
order. -/
def sortedPlaces (tokens : List Token) : List Nat :=
  (tokens.zipIdx.mergeSort fun a b => (a.1.compare b.1).isLE).map Prod.snd

end Token

namespace TokenKind

/-- What the kind is called in a message. -/
def text : TokenKind → String
  | identifier => "identifier"
  | int => "integer literal"
  | float => "floating-point literal"
  | imaginary => "imaginary literal"
  | char => "character literal"
  | string => "string literal"
  | comment => "comment"
  | illegal => "illegal token"
  | endOfFile => "end of file"
  | keyword k => "keyword `" ++ String.ofList k.text ++ "`"
  | punctuation p => "`" ++ String.ofList p.text ++ "`"

/-- The kinds that occur in a list of tokens, each of them once, in increasing order. -/
def occurring (tokens : List Token) : List TokenKind :=
  (tokens.map Token.kind).eraseDups.mergeSort fun a b => (Ord.compare a b).isLE

end TokenKind

/-- How the literal or comment is opened. -/
def Unclosed.opening : Unclosed → Text
  | char => ['\x27']
  | string => ['\x22']
  | rawString => ['\x60']
  | comment => ['/', '*']

end Frontend
