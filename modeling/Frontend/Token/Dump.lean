import Frontend.Token.Basic

/-!
# Tokens laid out for inspection

A token is shown as a record of its span and of what its class carries, inside a tuple that names
the class once more.
-/

namespace Frontend

/-- The name of a form of numeric literals. -/
def NumericForm.name : NumericForm → String
  | int => "Int"
  | float => "Float"
  | imaginary => "Imaginary"

/-- The name of a form of string literals. -/
def StringForm.name : StringForm → String
  | interpreted => "Interpreted"
  | raw => "Raw"

/-- The name of a form of comments. -/
def CommentForm.name : CommentForm → String
  | line => "Line"
  | delimited => "Delimited"

/-- The name of what is left open. -/
def Unclosed.name : Unclosed → String
  | char => "Char"
  | string => "String"
  | rawString => "RawString"
  | comment => "Comment"

/-- Everything that can be left open. -/
def Unclosed.all : List Unclosed := [.char, .string, .rawString, .comment]

/-- The reason and what it carries. -/
def IllegalReason.dump : IllegalReason → Dump
  | unterminated what => .tuple "UnterminatedLiteral" [.leaf what.name]
  | malformedNumber => .leaf "MalformedNumber"
  | unexpected c => .tuple "UnexpectedCharacter" [.leaf (Quoted.char c)]

/-- The kind and what it carries. -/
def TokenKind.dump : TokenKind → Dump
  | identifier => .leaf "Identifier"
  | int => .leaf "Int"
  | float => .leaf "Float"
  | imaginary => .leaf "Imaginary"
  | char => .leaf "Char"
  | string => .leaf "String"
  | comment => .leaf "Comment"
  | illegal => .leaf "Illegal"
  | endOfFile => .leaf "EndOfFile"
  | keyword k => .tuple "Keyword" [.leaf k.name]
  | punctuation p => .tuple "Punctuation" [.leaf p.name]

namespace TokenClass

/-- The name of the class. -/
def name : TokenClass → String
  | identifier => "Identifier"
  | keyword _ => "Keyword"
  | punctuation _ => "Punctuation"
  | numeric _ => "Numeric"
  | charLiteral => "CharLiteral"
  | stringLiteral _ => "StringLiteral"
  | comment _ => "Comment"
  | illegal _ => "Illegal"
  | endOfFile => "EndOfFile"

/-- What the class carries, as a field of a record. -/
def payload : TokenClass → List (String × Dump)
  | keyword k => [("keyword", .leaf k.name)]
  | punctuation p => [("punctuation", .leaf p.name)]
  | numeric form => [("kind", .leaf form.name)]
  | stringLiteral form => [("kind", .leaf form.name)]
  | comment form => [("kind", .leaf form.name)]
  | illegal reason => [("kind", reason.dump)]
  | identifier | charLiteral | endOfFile => []

end TokenClass

namespace Token

/-- The record of a token. -/
def record (file : SourceFile) (t : Token) : Dump :=
  .record t.cls.name (("span", (t.span file).dump) :: t.cls.payload)

/-- The record of a token under the name of its class. -/
def dump (file : SourceFile) (t : Token) : Dump :=
  .tuple t.cls.name [t.record file]

end Token

end Frontend
