import Frontend.Proofs.Grammar.Steps
import Frontend.Stream.Basic

/-!
# The grammar of a program

What a tree derives from, one relation for each rule of the grammar. A terminator can be missing at
the end of the file, so where one ends a rule the relation is told which tokens follow. The leaves
of a tree are the tokens it keeps; of those it derives from, it leaves out the semicolons between
the specs of a group and nothing else.
-/

namespace Frontend

/-- Nothing but the end of the file comes next, if there is a next token at all. -/
def AtEnd (rest : List Token) : Prop :=
  ∀ t, rest.head? = some t → t.kind = .endOfFile

/-- Where the end of the file is next, nothing else matters. -/
theorem atEnd_cons {t : Token} (h : t.kind = .endOfFile) (rest : List Token) :
    AtEnd (t :: rest) := by
  intro x hx
  rwa [← Option.some.inj hx]

/-- The token at the end of the file is of that kind. -/
@[simp] theorem kind_endOfFile (size : Nat) : (endOfFile size).kind = .endOfFile :=
  rfl

/-- The token of a semicolon. -/
def semicolonToken (l : Lexeme) : Token :=
  ⟨.punctuation .semicolon, l⟩

/-- The rule `Terminator = ";" | end of file`. -/
inductive DerivesTerminator (rest : List Token) : Option Lexeme → List Token → Prop where
  | semicolon (l : Lexeme) : DerivesTerminator rest (some l) [semicolonToken l]
  | missing (hend : AtEnd rest) : DerivesTerminator rest none []

/-- The rule `ImportSpec = ("." | identifier)? string`. -/
inductive DerivesSpec : ImportSpec → List Token → Prop where
  | unnamed (path : StringLiteral) : DerivesSpec ⟨none, path⟩ [path.token]
  | named (name : ImportName) (path : StringLiteral) :
    DerivesSpec ⟨some name, path⟩ [name.token, path.token]

/-- The specs of a group, `(ImportSpec ";")* ImportSpec?`. -/
inductive DerivesGroup : List ImportSpec → List Token → Prop where
  | empty : DerivesGroup [] []
  | last {spec : ImportSpec} {tokens : List Token} (hspec : DerivesSpec spec tokens) :
    DerivesGroup [spec] tokens
  | separated {spec : ImportSpec} {specs : List ImportSpec} {front back : List Token}
    (hspec : DerivesSpec spec front) (l : Lexeme) (hspecs : DerivesGroup specs back) :
    DerivesGroup (spec :: specs) (front ++ semicolonToken l :: back)

/-- A spec, or the specs of a group in parentheses. -/
inductive DerivesBody : ImportBody → List Token → Prop where
  | single {spec : ImportSpec} {tokens : List Token} (hspec : DerivesSpec spec tokens) :
    DerivesBody (.single spec) tokens
  | group (opening closing : Lexeme) {specs : List ImportSpec} {tokens : List Token}
    (hspecs : DerivesGroup specs tokens) :
    DerivesBody (.group opening specs closing)
      (⟨.punctuation .leftParen, opening⟩ :: tokens ++ [⟨.punctuation .rightParen, closing⟩])

/-- The rule for an import declaration that other tokens follow. -/
inductive DerivesDeclaration (rest : List Token) : ImportDeclaration → List Token → Prop where
  | intro (keyword : Lexeme) {body : ImportBody} {terminator : Option Lexeme}
    {tokens ending : List Token} (hbody : DerivesBody body tokens)
    (hterminator : DerivesTerminator rest terminator ending) :
    DerivesDeclaration rest ⟨keyword, body, terminator⟩
      (⟨.keyword .kwImport, keyword⟩ :: tokens ++ ending)

/-- Import declarations one after another that other tokens follow. -/
inductive DerivesImports (rest : List Token) : List ImportDeclaration → List Token → Prop where
  | none : DerivesImports rest [] []
  | more {declaration : ImportDeclaration} {declarations : List ImportDeclaration}
    {front back : List Token} (hfirst : DerivesDeclaration (back ++ rest) declaration front)
    (hothers : DerivesImports rest declarations back) :
    DerivesImports rest (declaration :: declarations) (front ++ back)

/-- The rule for the head of a program that other tokens follow. The package is not named by the
blank identifier. -/
inductive DerivesProgram (rest : List Token) : Program → List Token → Prop where
  | intro (keyword name : Lexeme) {terminator : Option Lexeme}
    {imports : List ImportDeclaration} {ending tokens : List Token}
    (hname : name.text ≠ Parser.blankIdentifier)
    (hterminator : DerivesTerminator (tokens ++ rest) terminator ending)
    (himports : DerivesImports rest imports tokens) :
    DerivesProgram rest ⟨⟨keyword, name, terminator⟩, imports⟩
      (⟨.keyword .kwPackage, keyword⟩ :: ⟨.identifier, name⟩ :: ending ++ tokens)

/-! ## Leaves -/

/-- The tokens of a terminator. -/
def terminatorLeaves (terminator : Option Lexeme) : List Token :=
  (terminator.map semicolonToken).toList

/-- The tokens of a spec. -/
def ImportSpec.leaves (s : ImportSpec) : List Token :=
  (s.name.map ImportName.token).toList ++ [s.path.token]

/-- The tokens of a body, without those that separate its specs. -/
def ImportBody.leaves : ImportBody → List Token
  | single spec => spec.leaves
  | group opening specs closing =>
    ⟨.punctuation .leftParen, opening⟩ :: specs.flatMap ImportSpec.leaves ++
      [⟨.punctuation .rightParen, closing⟩]

/-- The tokens of a declaration, without those that separate its specs. -/
def ImportDeclaration.leaves (d : ImportDeclaration) : List Token :=
  ⟨.keyword .kwImport, d.keyword⟩ :: d.body.leaves ++ terminatorLeaves d.terminator

/-- The tokens of a package clause. -/
def PackageClause.leaves (c : PackageClause) : List Token :=
  ⟨.keyword .kwPackage, c.keyword⟩ :: ⟨.identifier, c.name⟩ :: terminatorLeaves c.terminator

/-- The tokens of a program, without those that separate specs. -/
def Program.leaves (p : Program) : List Token :=
  p.package.leaves ++ p.imports.flatMap ImportDeclaration.leaves

/-- The tokens without the semicolons that stand in parentheses; `inGroup` says whether the first
one does. -/
def dropSeparators (inGroup : Bool) : List Token → List Token
  | [] => []
  | t :: tokens =>
    if t.kind = .punctuation .leftParen then t :: dropSeparators true tokens
    else if t.kind = .punctuation .rightParen then t :: dropSeparators false tokens
    else if inGroup ∧ t.kind = .punctuation .semicolon then dropSeparators inGroup tokens
    else t :: dropSeparators inGroup tokens

/-- Behind an opening parenthesis, semicolons are dropped. -/
@[simp] theorem dropSeparators_leftParen (inGroup : Bool) (l : Lexeme) (tokens : List Token) :
    dropSeparators inGroup (⟨.punctuation .leftParen, l⟩ :: tokens) =
      ⟨.punctuation .leftParen, l⟩ :: dropSeparators true tokens :=
  rfl

/-- Behind a closing parenthesis, semicolons are kept. -/
@[simp] theorem dropSeparators_rightParen (inGroup : Bool) (l : Lexeme) (tokens : List Token) :
    dropSeparators inGroup (⟨.punctuation .rightParen, l⟩ :: tokens) =
      ⟨.punctuation .rightParen, l⟩ :: dropSeparators false tokens :=
  rfl

/-- In parentheses a semicolon is dropped. -/
@[simp] theorem dropSeparators_semicolon (l : Lexeme) (tokens : List Token) :
    dropSeparators true (semicolonToken l :: tokens) = dropSeparators true tokens :=
  rfl

/-- Outside of groups nothing is dropped. -/
theorem dropSeparators_cons {t : Token} (hleft : t.kind ≠ .punctuation .leftParen)
    (hright : t.kind ≠ .punctuation .rightParen) (tokens : List Token) :
    dropSeparators false (t :: tokens) = t :: dropSeparators false tokens := by
  rw [dropSeparators, if_neg hleft, if_neg hright, if_neg (fun h => nomatch h.1)]

/-- Whether a token can be part of a spec. -/
def Token.isSpecPart (t : Token) : Bool :=
  t.kind = .punctuation .period ∨ t.kind = .identifier ∨ t.kind = .string

variable {rest : List Token}

/-- A terminator derives from its leaves. -/
theorem DerivesTerminator.leaves_eq {terminator : Option Lexeme} {tokens : List Token}
    (h : DerivesTerminator rest terminator tokens) : terminatorLeaves terminator = tokens := by
  cases h <;> rfl

/-- A spec derives from its leaves. -/
theorem DerivesSpec.leaves_eq {spec : ImportSpec} {tokens : List Token}
    (h : DerivesSpec spec tokens) : spec.leaves = tokens := by
  cases h <;> rfl

/-- The token of a string literal is of the kind of string literals. -/
@[simp] theorem StringLiteral.kind_token (s : StringLiteral) : s.token.kind = .string :=
  rfl

/-- The name of an import is a point or an identifier. -/
theorem ImportName.kind_token (n : ImportName) :
    n.token.kind = .punctuation .period ∨ n.token.kind = .identifier := by
  cases n with
  | dot point => exact .inl rfl
  | identifier word => exact .inr rfl

/-- The tokens of a spec can be parts of one. -/
theorem DerivesSpec.isSpecPart {spec : ImportSpec} {tokens : List Token}
    (h : DerivesSpec spec tokens) : ∀ t ∈ tokens, t.isSpecPart = true := by
  cases h with
  | unnamed path => simp [Token.isSpecPart]
  | named name path =>
    rcases name.kind_token with hname | hname <;> simp [Token.isSpecPart, hname]

/-- Parts of specs are no separators. -/
theorem dropSeparators_append {inGroup : Bool} {tokens : List Token}
    (h : ∀ t ∈ tokens, t.isSpecPart = true) (back : List Token) :
    dropSeparators inGroup (tokens ++ back) = tokens ++ dropSeparators inGroup back := by
  induction tokens with
  | nil => rfl
  | cons t tokens ih =>
    have hpart := h t List.mem_cons_self
    have hrest := ih fun x hx => h x (List.mem_cons_of_mem _ hx)
    simp only [Token.isSpecPart, decide_eq_true_eq] at hpart
    rw [List.cons_append, dropSeparators, hrest]
    rcases hpart with hkind | hkind | hkind <;> simp [hkind]

/-- In a group, the separators are what its specs leave out. -/
theorem DerivesGroup.dropSeparators_append {specs : List ImportSpec} {tokens : List Token}
    (h : DerivesGroup specs tokens) (back : List Token) :
    dropSeparators true (tokens ++ back) =
      specs.flatMap ImportSpec.leaves ++ dropSeparators true back := by
  induction h with
  | empty => rfl
  | last hspec =>
    rw [Frontend.dropSeparators_append hspec.isSpecPart, ← hspec.leaves_eq]
    simp
  | separated hspec l hspecs ih =>
    rw [List.append_assoc, Frontend.dropSeparators_append hspec.isSpecPart, ← hspec.leaves_eq,
      List.cons_append, dropSeparators_semicolon, ih, List.flatMap_cons, List.append_assoc]

/-- In a body, the separators are what it leaves out. -/
theorem DerivesBody.dropSeparators_append {body : ImportBody} {tokens : List Token}
    (h : DerivesBody body tokens) (back : List Token) :
    dropSeparators false (tokens ++ back) = body.leaves ++ dropSeparators false back := by
  cases h with
  | single hspec =>
    rw [Frontend.dropSeparators_append hspec.isSpecPart, ← hspec.leaves_eq]
    rfl
  | group opening closing hspecs =>
    rw [List.append_assoc, List.cons_append, dropSeparators_leftParen,
      hspecs.dropSeparators_append, List.singleton_append, dropSeparators_rightParen]
    simp [ImportBody.leaves]

/-- A terminator is no separator, so it is kept. -/
theorem DerivesTerminator.dropSeparators_append {terminator : Option Lexeme}
    {tokens : List Token} (h : DerivesTerminator rest terminator tokens) (back : List Token) :
    dropSeparators false (tokens ++ back) = tokens ++ dropSeparators false back := by
  cases h with
  | semicolon l => exact dropSeparators_cons (by nofun) (by nofun) back
  | missing hend => rfl

/-- In a declaration, the separators are what it leaves out. -/
theorem DerivesDeclaration.dropSeparators_append {d : ImportDeclaration} {tokens : List Token}
    (h : DerivesDeclaration rest d tokens) (back : List Token) :
    dropSeparators false (tokens ++ back) = d.leaves ++ dropSeparators false back := by
  obtain ⟨keyword, hbody, hterminator⟩ := h
  rw [List.append_assoc, List.cons_append, dropSeparators_cons (by nofun) (by nofun),
    hbody.dropSeparators_append, hterminator.dropSeparators_append, ← hterminator.leaves_eq]
  simp [ImportDeclaration.leaves]

/-- In a list of declarations, the separators are what they leave out. -/
theorem DerivesImports.dropSeparators_eq {ds : List ImportDeclaration} {tokens : List Token}
    (h : DerivesImports rest ds tokens) :
    dropSeparators false tokens = ds.flatMap ImportDeclaration.leaves := by
  induction h with
  | none => rfl
  | more hfirst hothers ih =>
    rw [hfirst.dropSeparators_append, ih]
    rfl

/-- In a program, the separators are what it leaves out. -/
theorem DerivesProgram.dropSeparators_eq {program : Program} {tokens : List Token}
    (h : DerivesProgram rest program tokens) : dropSeparators false tokens = program.leaves := by
  obtain ⟨keyword, name, hname, hterminator, himports⟩ := h
  rw [List.cons_append, List.cons_append, dropSeparators_cons (by nofun) (by nofun),
    dropSeparators_cons (by nofun) (by nofun), hterminator.dropSeparators_append,
    himports.dropSeparators_eq, ← hterminator.leaves_eq]
  rfl

/-! ## Specs in order -/

/-- The parts of a spec are all of it. -/
theorem DerivesSpec.filter_isSpecPart {spec : ImportSpec} {tokens : List Token}
    (h : DerivesSpec spec tokens) : tokens.filter Token.isSpecPart = spec.leaves := by
  rw [h.leaves_eq]
  exact List.filter_eq_self.mpr h.isSpecPart

/-- In a group, the parts of specs are the leaves of its specs in order. -/
theorem DerivesGroup.filter_isSpecPart {specs : List ImportSpec} {tokens : List Token}
    (h : DerivesGroup specs tokens) :
    tokens.filter Token.isSpecPart = specs.flatMap ImportSpec.leaves := by
  induction h with
  | empty => rfl
  | last hspec =>
    rw [hspec.filter_isSpecPart]
    exact (List.append_nil _).symm
  | separated hspec l hspecs ih =>
    rw [List.filter_append, hspec.filter_isSpecPart,
      List.filter_cons_of_neg (by nofun), ih, List.flatMap_cons]

/-- A terminator is no part of a spec. -/
theorem DerivesTerminator.filter_isSpecPart {terminator : Option Lexeme} {tokens : List Token}
    (h : DerivesTerminator rest terminator tokens) : tokens.filter Token.isSpecPart = [] := by
  cases h <;> rfl

/-- In a body, the parts of specs are the leaves of its specs in order. -/
theorem DerivesBody.filter_isSpecPart {body : ImportBody} {tokens : List Token}
    (h : DerivesBody body tokens) :
    tokens.filter Token.isSpecPart = body.specs.flatMap ImportSpec.leaves := by
  cases h with
  | single hspec =>
    rw [hspec.filter_isSpecPart]
    exact (List.append_nil _).symm
  | group opening closing hspecs =>
    rw [List.filter_append, List.filter_cons_of_neg (by nofun), hspecs.filter_isSpecPart]
    exact List.append_nil _

/-- In a declaration, the parts of specs are the leaves of its specs in order. -/
theorem DerivesDeclaration.filter_isSpecPart {d : ImportDeclaration} {tokens : List Token}
    (h : DerivesDeclaration rest d tokens) :
    tokens.filter Token.isSpecPart = d.specs.flatMap ImportSpec.leaves := by
  obtain ⟨keyword, hbody, hterminator⟩ := h
  rw [List.filter_append, List.filter_cons_of_neg (by nofun), hbody.filter_isSpecPart,
    hterminator.filter_isSpecPart]
  exact List.append_nil _

/-- In a list of declarations, the parts of specs are the leaves of all their specs in order. -/
theorem DerivesImports.filter_isSpecPart {ds : List ImportDeclaration} {tokens : List Token}
    (h : DerivesImports rest ds tokens) : tokens.filter Token.isSpecPart =
      (ds.flatMap ImportDeclaration.specs).flatMap ImportSpec.leaves := by
  induction h with
  | none => rfl
  | more hfirst hothers ih =>
    rw [List.filter_append, hfirst.filter_isSpecPart, ih, List.flatMap_cons, List.flatMap_append]

/-- After the package clause, what can be part of a spec is part of one, in the order of the
specs. -/
theorem DerivesProgram.filter_isSpecPart {program : Program} {tokens : List Token}
    (h : DerivesProgram rest program tokens) :
    (tokens.drop 2).filter Token.isSpecPart = program.importSpecs.flatMap ImportSpec.leaves := by
  obtain ⟨keyword, name, hname, hterminator, himports⟩ := h
  have htokens := himports.filter_isSpecPart
  simpa [Program.importSpecs, hterminator.filter_isSpecPart] using htokens

end Frontend
