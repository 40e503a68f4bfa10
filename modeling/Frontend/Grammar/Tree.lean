import Frontend.Token.Basic

/-!
# Syntax trees

The head of a program: its package clause and its import declarations. Every leaf is a lexeme of
the program, so a tree says where each of its parts stands, and a node spans from its first part
to its last; terminators are outside the spans.
-/

namespace Frontend

/-- A string literal and its form. -/
structure StringLiteral where
  form : StringForm
  lexeme : Lexeme
  deriving DecidableEq, Repr

/-- The text between the quotes. -/
def StringLiteral.content (s : StringLiteral) : Text :=
  s.lexeme.unquoted

/-- The name that an imported package is bound to. -/
inductive ImportName where
  /-- A point: the names of the package become names of the file. -/
  | dot (point : Lexeme)
  | identifier (word : Lexeme)
  deriving DecidableEq, Repr

/-- The lexeme of a name. -/
def ImportName.lexeme : ImportName → Lexeme
  | dot point => point
  | identifier word => word

/-- One imported package. -/
structure ImportSpec where
  name : Option ImportName
  path : StringLiteral
  deriving DecidableEq, Repr

/-- What an import declaration imports. -/
inductive ImportBody where
  | single (spec : ImportSpec)
  /-- Any number of specs in parentheses. -/
  | group (opening : Lexeme) (specs : List ImportSpec) (closing : Lexeme)
  deriving DecidableEq, Repr

/-- The specs of a body, in order. -/
def ImportBody.specs : ImportBody → List ImportSpec
  | single spec => [spec]
  | group _ specs _ => specs

/-- An import declaration. The terminator is missing where the declaration ends the file. -/
structure ImportDeclaration where
  keyword : Lexeme
  body : ImportBody
  terminator : Option Lexeme
  deriving DecidableEq, Repr

/-- The specs of a declaration, in order. -/
def ImportDeclaration.specs (d : ImportDeclaration) : List ImportSpec :=
  d.body.specs

/-- The clause that names the package of a file. The terminator is missing where the clause ends
the file. -/
structure PackageClause where
  keyword : Lexeme
  name : Lexeme
  terminator : Option Lexeme
  deriving DecidableEq, Repr

/-- The head of a program. -/
structure Program where
  package : PackageClause
  imports : List ImportDeclaration
  deriving DecidableEq, Repr

/-- The specs of all import declarations, in order. -/
def Program.importSpecs (p : Program) : List ImportSpec :=
  p.imports.flatMap ImportDeclaration.specs

/-- From the start of one lexeme to the end of another. -/
def Span.cover (file : SourceFile) (first last : Lexeme) : Span :=
  ⟨file, first.start, last.stop⟩

/-- From the name, or from the path if there is no name, to the end of the path. -/
def ImportSpec.span (file : SourceFile) (s : ImportSpec) : Span :=
  Span.cover file ((s.name.map ImportName.lexeme).getD s.path.lexeme) s.path.lexeme

/-- From the keyword to the closing parenthesis, or to the path of the only spec. -/
def ImportDeclaration.span (file : SourceFile) (d : ImportDeclaration) : Span :=
  match d.body with
  | .single spec => Span.cover file d.keyword spec.path.lexeme
  | .group _ _ closing => Span.cover file d.keyword closing

/-- From the keyword to the name. -/
def PackageClause.span (file : SourceFile) (c : PackageClause) : Span :=
  Span.cover file c.keyword c.name

end Frontend
