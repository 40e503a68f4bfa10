import Frontend.Grammar.SyntaxError
import Frontend.Grammar.Tree

/-!
# Parsers

A parser is a place in a list of tokens. A parse step either yields a value or fails, and in both
cases leaves the parser somewhere: a step made of others keeps what they consumed before one of
them failed. The steps for a single token consume it if it fits and nothing otherwise.
-/

namespace Frontend

/-- A place in a list of tokens: how many tokens were consumed, and those that are left. -/
structure Parser where
  index : Nat
  rest : List Token

/-- The parser at the start of a list of tokens. -/
def Parser.ofTokens (tokens : List Token) : Parser :=
  ⟨0, tokens⟩

/-- A step of a parser. -/
def Parse (α : Type) : Type :=
  Parser → Except SyntaxError α × Parser

namespace Parse

/-- The step that consumes nothing. -/
def pure {α : Type} (a : α) : Parse α :=
  fun p => (.ok a, p)

/-- One step after another, if the first does not fail. -/
def bind {α β : Type} (first : Parse α) (next : α → Parse β) : Parse β := fun p =>
  match first p with
  | (.ok a, q) => next a q
  | (.error e, q) => (.error e, q)

/-- Steps are put in a row by `Parse.bind`, so the first one to fail is the last. -/
instance : Monad Parse where
  pure := Parse.pure
  bind := Parse.bind

/-- The step that fails where it stands. -/
def fail {α : Type} (e : SyntaxError) : Parse α :=
  fun p => (.error e, p)

end Parse

namespace Parser

/-- The next token. -/
def peek (p : Parser) : Option Token :=
  p.rest.head?

/-- The kind of the next token. -/
def peekKind (p : Parser) : Option TokenKind :=
  p.peek.map Token.kind

/-- Whether nothing is left but the end of the file. -/
def isExhausted (p : Parser) : Bool :=
  p.peekKind.all (· = .endOfFile)

/-- Whether the next token is the operator or delimiter. -/
def atPunctuation (expected : Punctuation) (p : Parser) : Bool :=
  p.peekKind = some (.punctuation expected)

/-- Whether the next token is the keyword. -/
def atKeyword (expected : Keyword) (p : Parser) : Bool :=
  p.peekKind = some (.keyword expected)

/-- Passes the next token and yields it. After the last token the parser stays where it is. -/
def next (p : Parser) : Option Token × Parser :=
  match p.rest with
  | [] => (none, p)
  | t :: rest => (some t, ⟨p.index + 1, rest⟩)

/-- The error that something else than the next token was expected. -/
def unexpected (expected : Expected) (p : Parser) : SyntaxError :=
  .unexpected ⟨expected, p.peek⟩

/-- Passes the next token if `accept` finds something in it. -/
def take {α : Type} (expected : Expected) (accept : Token → Option α) : Parse α := fun p =>
  match p.next with
  | (none, _) => (.error (p.unexpected expected), p)
  | (some t, after) =>
    match accept t with
    | none => (.error (p.unexpected expected), p)
    | some a => (.ok a, after)

/-- A token of a kind. -/
def eat (expected : TokenKind) : Parse Token :=
  take (.ofKind expected) fun t => if t.kind = expected then some t else none

/-- A keyword. -/
def keyword (expected : Keyword) : Parse Lexeme :=
  take (.keyword expected) fun t =>
    match t.cls with
    | .keyword k => if k = expected then some t.lexeme else none
    | _ => none

/-- An identifier. -/
def identifier : Parse Lexeme :=
  take .identifier fun t =>
    match t.cls with
    | .identifier => some t.lexeme
    | _ => none

/-- An operator or delimiter. -/
def punctuation (expected : Punctuation) : Parse Lexeme :=
  take (.punctuation expected) fun t =>
    match t.cls with
    | .punctuation q => if q = expected then some t.lexeme else none
    | _ => none

/-- A string literal. -/
def stringLiteral : Parse StringLiteral :=
  take .stringLiteral fun t =>
    match t.cls with
    | .stringLiteral form => some ⟨form, t.lexeme⟩
    | _ => none

/-- What ends a declaration. -/
def terminatorExpected : Expected :=
  .either [.punctuation .semicolon, .endOfFile]

/-- The semicolon that ends a declaration, which may be missing at the end of the file. -/
def terminator : Parse (Option Lexeme) := fun p =>
  if p.isExhausted then (.ok none, p)
  else
    take terminatorExpected (fun t =>
      match t.cls with
      | .punctuation .semicolon => some (some t.lexeme)
      | _ => none) p

end Parser

end Frontend
