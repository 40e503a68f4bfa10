import Frontend.Grammar.Tree
import Frontend.Token.Dump

/-!
# Syntax trees laid out for inspection

Every node is a record of its parts, and every leaf the record of the token it was.
-/

namespace Frontend

/-- The record of the token that a lexeme of a class was. -/
def Lexeme.record (file : SourceFile) (cls : TokenClass) (l : Lexeme) : Dump :=
  Token.record file ⟨cls, l⟩

/-- A terminator, if there is one. -/
def dumpTerminator (file : SourceFile) (l : Option Lexeme) : Dump :=
  .option (l.map (Lexeme.record file (.punctuation .semicolon)))

/-- The name with the token it was. -/
def ImportName.dump (file : SourceFile) : ImportName → Dump
  | dot point => .tuple "Dot" [point.record file (.punctuation .period)]
  | identifier word => .tuple "Identifier" [word.record file .identifier]

/-- The record of a spec. -/
def ImportSpec.dump (file : SourceFile) (s : ImportSpec) : Dump :=
  .record "ImportSpec"
    [("name", .option (s.name.map (ImportName.dump file))),
      ("path", s.path.lexeme.record file (.stringLiteral s.path.form))]

/-- The parentheses of a body, if it has them. -/
def ImportBody.dumpParentheses (file : SourceFile) : ImportBody → Dump
  | single _ => .option none
  | group opening _ closing =>
    .option (some (.tuple ""
      [opening.record file (.punctuation .leftParen),
        closing.record file (.punctuation .rightParen)]))

/-- The record of a declaration. -/
def ImportDeclaration.dump (file : SourceFile) (d : ImportDeclaration) : Dump :=
  .record "ImportDeclaration"
    [("import_keyword", d.keyword.record file (.keyword .kwImport)),
      ("delimiters", d.body.dumpParentheses file),
      ("specs", .list (d.specs.map (ImportSpec.dump file))),
      ("semicolon", dumpTerminator file d.terminator)]

/-- The record of a package clause. -/
def PackageClause.dump (file : SourceFile) (c : PackageClause) : Dump :=
  .record "PackageClause"
    [("package_keyword", c.keyword.record file (.keyword .kwPackage)),
      ("name", c.name.record file .identifier),
      ("semicolon", dumpTerminator file c.terminator)]

/-- The record of a program. -/
def Program.dump (file : SourceFile) (p : Program) : Dump :=
  .record "ProgramFile"
    [("package", p.package.dump file),
      ("imports", .list (p.imports.map (ImportDeclaration.dump file)))]

end Frontend
