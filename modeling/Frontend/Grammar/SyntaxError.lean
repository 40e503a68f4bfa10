import Frontend.Token.Basic
import Frontend.Source.Excerpt
import Frontend.Text.EditDistance

/-!
# Syntax errors

A syntax error is either a token that does not fit, with what would have fitted in its place, or
an argument that the grammar accepts and the language does not. Where a keyword would have
fitted and an identifier that nearly spells it was found, the keyword is suggested.
-/

namespace Frontend

/-- What fits at a place in a program. -/
inductive Expected where
  | either (options : List Expected)
  | punctuation (p : Punctuation)
  | keyword (k : Keyword)
  | identifier
  | stringLiteral
  | importSpec
  | endOfFile

namespace Expected

/-- The alternatives of a list of texts. No alternative is left at the end of the file only. -/
def alternatives (texts : List String) : String :=
  match texts.getLast? with
  | none => "end of file"
  | some last =>
    if texts.length = 1 then last else ", ".intercalate texts.dropLast ++ ", or " ++ last

mutual

/-- What fits, in words. -/
def text : Expected → String
  | either options => alternatives (textAll options)
  | punctuation p => "a punctuation token `" ++ String.ofList p.text ++ "`"
  | keyword k => "a keyword token `" ++ String.ofList k.text ++ "`"
  | identifier => "an identifier token"
  | stringLiteral => "a string literal"
  | importSpec => "an import path"
  | endOfFile => "end of file"

/-- What fits, in words, for each of a list. -/
def textAll : List Expected → List String
  | [] => []
  | e :: es => text e :: textAll es

end

mutual

/-- The keywords that fit, from left to right. -/
def keywords : Expected → List Keyword
  | either options => keywordsAll options
  | keyword k => [k]
  | _ => []

/-- The keywords that one of a list accepts, from left to right. -/
def keywordsAll : List Expected → List Keyword
  | [] => []
  | e :: es => keywords e ++ keywordsAll es

end

mutual

/-- What fits, laid out for inspection. -/
def dump : Expected → Dump
  | either options => .tuple "Either" [.list (dumpAll options)]
  | punctuation p => .tuple "Punctuation" [.leaf p.name]
  | keyword k => .tuple "Keyword" [.leaf k.name]
  | identifier => .leaf "Identifier"
  | stringLiteral => .leaf "StringLiteral"
  | importSpec => .leaf "ImportSpec"
  | endOfFile => .leaf "EndOfFile"

/-- What fits, laid out for inspection, for each of a list. -/
def dumpAll : List Expected → List Dump
  | [] => []
  | e :: es => dump e :: dumpAll es

end

/-- What fits where a token of the kind is asked for. Kinds that no rule of the grammar asks for
count as identifiers. -/
def ofKind : TokenKind → Expected
  | .keyword k => keyword k
  | .punctuation p => punctuation p
  | .string => stringLiteral
  | .endOfFile => endOfFile
  | _ => identifier

end Expected

/-- What was found in place of something else, in words. The tokens that end a file and those
after its end read the same. -/
def foundText : Option Token → String
  | none => "EOF"
  | some t =>
    match t.cls with
    | .identifier => "an identifier token"
    | .keyword k => "a keyword token `" ++ String.ofList k.text ++ "`"
    | .punctuation p =>
      if t.text.isEmpty then "a line break"
      else "a punctuation token `" ++ String.ofList p.text ++ "`"
    | .numeric _ => "a numeric token"
    | .charLiteral => "a character literal token"
    | .stringLiteral _ => "a string literal token"
    | .comment _ => "a comment token"
    | .illegal _ => "an illegal token"
    | .endOfFile => "EOF"

/-- The first of the keywords at the least distance. -/
def nearest? (distance : Keyword → Nat) : List Keyword → Option Keyword
  | [] => none
  | k :: ks =>
    match nearest? distance ks with
    | none => some k
    | some other => if distance k ≤ distance other then some k else some other

/-- The keyword that a word is probably a misspelling of: the nearest one, at most two edits
away. -/
def misspelled? (word : Text) (candidates : List Keyword) : Option Keyword :=
  let distance (k : Keyword) := editDistance word k.text
  nearest? distance (candidates.filter fun k => distance k ≤ 2)

/-- A token that does not fit. -/
structure UnexpectedToken where
  /-- What would have fitted. -/
  expected : Expected
  /-- The token in its place; none after the end of the file. -/
  found : Option Token

namespace UnexpectedToken

/-- The keyword that was probably meant. -/
def suggestion? (e : UnexpectedToken) : Option Keyword :=
  match e.found with
  | some ⟨.identifier, lexeme⟩ => misspelled? lexeme.text e.expected.keywords
  | _ => none

/-- What is wrong. -/
def summary (e : UnexpectedToken) : String :=
  "expected " ++ e.expected.text ++ ", but found " ++ foundText e.found

/-- The error as it is shown to the user. -/
def message (styling : Styling) (file : SourceFile) (e : UnexpectedToken) : String :=
  match e.found with
  | none => headline styling e.summary
  | some t =>
    diagnostic styling e.summary (t.span file)
      (e.suggestion?.map fun k => "did you mean `" ++ String.ofList k.text ++ "`?")

end UnexpectedToken

/-- An argument that the language does not accept. -/
structure InvalidArgument where
  /-- What is wrong with it. -/
  summary : String
  lexeme : Lexeme

/-- The error as it is shown to the user. -/
def InvalidArgument.message (styling : Styling) (file : SourceFile) (e : InvalidArgument) :
    String :=
  diagnostic styling e.summary (e.lexeme.span file) none

/-- Why a list of tokens is no program. -/
inductive SyntaxError where
  | unexpected (e : UnexpectedToken)
  | invalid (e : InvalidArgument)

/-- The error as it is shown to the user. -/
def SyntaxError.message (styling : Styling) (file : SourceFile) : SyntaxError → String
  | unexpected e => e.message styling file
  | invalid e => e.message styling file

end Frontend
