import Frontend.Proofs.Grammar.Recognition
import Frontend.Proofs.Stream.Composition

/-!
# Programs printed and parsed

An outline is what a program says, without where it says it. It can be printed one line for each
declaration, and the program parsed from the print has the outline again. Each part of the print
is read by itself (`Pass.Reads`), as tokens that derive from the rule for a tree of the same
outline; the parts then join as the tokens of a derivation do.
-/

namespace Frontend

/-! ## Outlines -/

/-- The name of an import. -/
inductive NameOutline where
  | dot
  | word (text : Text)
  deriving DecidableEq, Repr

/-- One imported package: its name, if it has one, and the literal of its path. -/
structure SpecOutline where
  name : Option NameOutline
  path : Text
  deriving DecidableEq, Repr

/-- What an import declaration imports. -/
inductive ImportOutline where
  | single (spec : SpecOutline)
  | group (specs : List SpecOutline)
  deriving DecidableEq, Repr

/-- The name of the package and what the declarations import. -/
structure Outline where
  package : Text
  imports : List ImportOutline
  deriving DecidableEq, Repr

/-- The outline of a name. -/
def ImportName.outline : ImportName → NameOutline
  | dot _ => .dot
  | identifier word => .word word.text

/-- The outline of a spec. -/
def ImportSpec.outline (s : ImportSpec) : SpecOutline :=
  ⟨s.name.map ImportName.outline, s.path.lexeme.text⟩

/-- The outline of a body. -/
def ImportBody.outline : ImportBody → ImportOutline
  | single spec => .single spec.outline
  | group _ specs _ => .group (specs.map ImportSpec.outline)

/-- The outline of a program. -/
def Program.outline (p : Program) : Outline :=
  ⟨p.package.name.text, p.imports.map fun d => d.body.outline⟩

/-! ## Printing -/

/-- How a group is printed. -/
inductive GroupLayout where
  /-- Each spec on a line of its own. -/
  | lines
  /-- All specs on one line, semicolons between them. -/
  | oneLine
  deriving DecidableEq, Repr

/-- The text of a name. -/
def NameOutline.print : NameOutline → Text
  | dot => ['.']
  | word text => text

/-- The name, if there is one, a space, and the path. -/
def SpecOutline.print (s : SpecOutline) : Text :=
  match s.name with
  | none => s.path
  | some name => name.print ++ [' '] ++ s.path

/-- The specs of a group, as they stand between the parentheses. -/
def GroupLayout.print (specs : List SpecOutline) : GroupLayout → Text
  | lines => ['\n'] ++ specs.flatMap fun s => s.print ++ ['\n']
  | oneLine => [';'].intercalate (specs.map SpecOutline.print)

/-- A spec, or a group in parentheses. -/
def ImportOutline.print (layout : GroupLayout) : ImportOutline → Text
  | single spec => spec.print
  | group specs => ['('] ++ layout.print specs ++ [')']

/-- A declaration, and the end of its last line. -/
def ImportOutline.printLine (layout : GroupLayout) (d : ImportOutline) : Text :=
  Keyword.kwImport.text ++ [' '] ++ d.print layout ++ ['\n']

/-- The package clause and the declarations, each on its own line. -/
def Outline.print (layout : GroupLayout) (o : Outline) : Text :=
  Keyword.kwPackage.text ++ [' '] ++ o.package ++ ['\n'] ++
    o.imports.flatMap (ImportOutline.printLine layout)

/-- A word that can be a name. -/
def IsName (word : Text) : Prop :=
  ∃ c rest, word = c :: rest ∧ isWordStart c = true ∧ rest.all isWordPart = true ∧
    Keyword.ofText? word = none

/-- A text that is read as one string literal. -/
def IsPath (text : Text) : Prop :=
  ∃ form, TokenStream.ofText text =
    .ok ⟨[⟨.stringLiteral form, 0, text⟩, endOfFile (Text.size text)], []⟩

/-- What holds of the outlines of specs. -/
structure SpecOutline.WellFormed (s : SpecOutline) : Prop where
  name : ∀ text, s.name = some (.word text) → IsName text
  path : IsPath s.path

/-- The specs that a declaration imports. -/
def ImportOutline.specs : ImportOutline → List SpecOutline
  | single spec => [spec]
  | group specs => specs

/-- What holds of the outlines of programs. -/
structure Outline.WellFormed (o : Outline) : Prop where
  package : IsName o.package
  package_ne : o.package ≠ Parser.blankIdentifier
  specs : ∀ d ∈ o.imports, ∀ s ∈ d.specs, s.WellFormed

/-! ## What is read in print -/

/-- A name is read as an identifier. -/
theorem IsName.freestanding {word : Text} (h : IsName word) :
    Freestanding .identifier word := by
  obtain ⟨c, rest, rfl, hstart, hpart, hkeyword⟩ := h
  have hcls : Scan.wordClass (c :: rest) = .identifier := by
    rw [Scan.wordClass, hkeyword]
  exact hcls ▸ freestanding_word hstart hpart

/-- The keyword of a package clause is read as such in front of a gap. -/
theorem freestanding_package : Freestanding (.keyword .kwPackage) Keyword.kwPackage.text :=
  freestanding_word (by decide) (by decide)

/-- The keyword of an import declaration is read as such in front of a gap. -/
theorem freestanding_import : Freestanding (.keyword .kwImport) Keyword.kwImport.text :=
  freestanding_word (by decide) (by decide)

/-- A point is read as such in front of a gap, where no digit can follow it. -/
theorem freestanding_period : Freestanding (.punctuation .period) ['.'] := by
  have hpieces : .token (.punctuation .period) ['.'] ∈ pieces ['.'] := by
    rw [pieces_token (by decide)]
    exact List.mem_cons_self
  exact freestanding_of_mem_pieces hpieces rfl

/-- A path is read as a string literal, whatever follows it. -/
theorem IsPath.spells {text : Text} (h : IsPath text) :
    ∃ form, Spells text [.token (.stringLiteral form) text] := by
  obtain ⟨form, hok⟩ := h
  have hwritten : [⟨.stringLiteral form, 0, text⟩] ++ [endOfFile (Text.size text)] =
      (Piece.placed 0 (pieces text)).filter Token.isListed ++ [endOfFile (Text.size text)] :=
    TokenStream.written_of_ok hok
  have hmem : ⟨.stringLiteral form, 0, text⟩ ∈
      (Piece.placed 0 (pieces text)).filter Token.isListed := by
    rw [← List.append_cancel_right hwritten]
    exact List.mem_cons_self
  exact ⟨form, spells_of_mem_pieces (Piece.mem_of_mem_placed (List.mem_filter.mp hmem).1)⟩

open Pass

/-- A printed name and the space behind it are read as the name. -/
theorem NameOutline.exists_reads {n : NameOutline} (h : ∀ text, n = .word text → IsName text)
    (armed : Bool) (offset : Nat) :
    ∃ name : ImportName, name.outline = n ∧
      Reads armed offset (n.print ++ [' ']) [name.token] [] name.token.arms := by
  cases n with
  | dot => exact ⟨.dot ⟨offset, ['.']⟩, rfl, freestanding_period.reads_space rfl⟩
  | word text => exact ⟨.identifier ⟨offset, text⟩, rfl, (h text rfl).freestanding.reads_space rfl⟩

/-- A printed spec is read as tokens of a spec, the last of which can end a statement. -/
theorem SpecOutline.WellFormed.exists_reads {s : SpecOutline} (h : s.WellFormed) (armed : Bool)
    (offset : Nat) :
    ∃ spec tokens, spec.outline = s ∧ DerivesSpec spec tokens ∧
      Reads armed offset s.print tokens [] true := by
  obtain ⟨form, hpath⟩ := h.path.spells
  obtain ⟨name, path⟩ := s
  cases name with
  | none => exact ⟨_, _, rfl, .unnamed ⟨form, offset, path⟩, hpath.reads_listed rfl⟩
  | some n =>
    obtain ⟨name, rfl, hname⟩ :=
      NameOutline.exists_reads (fun text hn => h.name text (congrArg some hn)) armed offset
    refine ⟨_, _, ?_, .named name ⟨form, _, path⟩, hname.append (hpath.reads_listed rfl)⟩
    rfl

/-- The specs of a group on lines of their own are read as tokens of the specs of a group. -/
theorem exists_reads_lines {specs : List SpecOutline} (h : ∀ s ∈ specs, s.WellFormed)
    (offset : Nat) :
    ∃ trees tokens, trees.map ImportSpec.outline = specs ∧ DerivesGroup trees tokens ∧
      Reads false offset (specs.flatMap fun s => s.print ++ ['\n']) tokens [] false := by
  induction specs generalizing offset with
  | nil => exact ⟨[], [], rfl, .empty, reads_nil false offset⟩
  | cons s specs ih =>
    obtain ⟨spec, front, rfl, hspec, hfront⟩ := (h s List.mem_cons_self).exists_reads false offset
    -- the spec ends with a literal, so the line feed is read as the semicolon behind it
    have hline := hfront.append reads_feed
    obtain ⟨trees, back, rfl, hgroup, hback⟩ :=
      ih (fun x hx => h x (List.mem_cons_of_mem _ hx))
        (offset + Text.size (spec.outline.print ++ ['\n']))
    have hall := hline.append hback
    rw [List.append_assoc front] at hall
    exact ⟨spec :: trees, _, rfl, .separated hspec ⟨_, []⟩ hgroup, hall⟩

/-- The specs of a group on one line are read as tokens of the specs of a group. -/
theorem exists_reads_oneLine {specs : List SpecOutline} (h : ∀ s ∈ specs, s.WellFormed)
    (offset : Nat) :
    ∃ trees tokens armed, trees.map ImportSpec.outline = specs ∧ DerivesGroup trees tokens ∧
      Reads false offset ([';'].intercalate (specs.map SpecOutline.print)) tokens [] armed := by
  induction specs generalizing offset with
  | nil => exact ⟨[], [], false, rfl, .empty, reads_nil false offset⟩
  | cons s specs ih =>
    obtain ⟨spec, front, rfl, hspec, hfront⟩ := (h s List.mem_cons_self).exists_reads false offset
    cases specs with
    | nil =>
      refine ⟨[spec], front, true, rfl, .last hspec, ?_⟩
      rwa [List.map_singleton, List.intercalate_singleton]
    | cons next specs =>
      have hsemicolon := hfront.append (Spells.semicolon.reads_listed rfl)
      obtain ⟨trees, back, armed, houtline, hgroup, hback⟩ :=
        ih (fun x hx => h x (List.mem_cons_of_mem _ hx))
          (offset + Text.size (spec.outline.print ++ [';']))
      have hall := hsemicolon.append hback
      rw [List.append_assoc front] at hall
      rw [List.map_cons, ← List.intercalate_cons_cons] at hall
      exact ⟨spec :: trees, _, armed, congrArg (spec.outline :: ·) houtline,
        .separated hspec ⟨_, [';']⟩ hgroup, hall⟩

/-- The specs of a group are read as tokens of the specs of a group, however they are printed. -/
theorem GroupLayout.exists_reads (layout : GroupLayout) {specs : List SpecOutline}
    (h : ∀ s ∈ specs, s.WellFormed) (offset : Nat) :
    ∃ trees tokens armed, trees.map ImportSpec.outline = specs ∧ DerivesGroup trees tokens ∧
      Reads false offset (layout.print specs) tokens [] armed := by
  cases layout with
  | oneLine => exact exists_reads_oneLine h offset
  | lines =>
    -- a line feed after the opening parenthesis is read as nothing
    have hfeed : Reads false offset ['\n'] [] [] false := reads_feed
    obtain ⟨trees, tokens, houtline, hgroup, htokens⟩ :=
      exists_reads_lines h (offset + Text.size ['\n'])
    exact ⟨trees, tokens, false, houtline, hgroup, hfeed.append htokens⟩

/-- What a declaration imports is read as tokens of a body, the last of which can end a
statement. -/
theorem ImportOutline.exists_reads {d : ImportOutline} (h : ∀ s ∈ d.specs, s.WellFormed)
    (layout : GroupLayout) (offset : Nat) :
    ∃ body tokens, body.outline = d ∧ DerivesBody body tokens ∧
      Reads false offset (d.print layout) tokens [] true := by
  cases d with
  | single s =>
    obtain ⟨spec, tokens, rfl, hspec, htokens⟩ := (h s List.mem_cons_self).exists_reads false offset
    exact ⟨.single spec, tokens, rfl, .single hspec, htokens⟩
  | group specs =>
    have hopening : Reads false offset ['('] [⟨.punctuation .leftParen, offset, ['(']⟩] [] false :=
      Spells.leftParen.reads_listed rfl
    obtain ⟨trees, tokens, armed, rfl, hgroup, htokens⟩ :=
      layout.exists_reads h (offset + Text.size ['('])
    have hclosing := (hopening.append htokens).append (Spells.rightParen.reads_listed rfl)
    exact ⟨_, _, rfl, .group ⟨offset, ['(']⟩ ⟨_, [')']⟩ hgroup, hclosing⟩

/-- A printed declaration is read as tokens of a declaration, whatever tokens follow. -/
theorem exists_reads_declaration {d : ImportOutline} (h : ∀ s ∈ d.specs, s.WellFormed)
    (layout : GroupLayout) (offset : Nat) :
    ∃ tree tokens, tree.body.outline = d ∧ (∀ rest, DerivesDeclaration rest tree tokens) ∧
      Reads false offset (d.printLine layout) tokens [] false := by
  have hkeyword : Reads false offset (Keyword.kwImport.text ++ [' '])
      [⟨.keyword .kwImport, offset, Keyword.kwImport.text⟩] [] false :=
    freestanding_import.reads_space rfl
  obtain ⟨body, tokens, rfl, hbody, htokens⟩ :=
    ImportOutline.exists_reads h layout (offset + Text.size (Keyword.kwImport.text ++ [' ']))
  have hline := (hkeyword.append htokens).append reads_feed
  exact ⟨⟨_, body, _⟩, _, rfl, fun rest => .intro _ hbody (.semicolon _), hline⟩

/-- Printed declarations are read as tokens of declarations. -/
theorem exists_reads_imports {ds : List ImportOutline} (h : ∀ d ∈ ds, ∀ s ∈ d.specs, s.WellFormed)
    (layout : GroupLayout) (rest : List Token) (offset : Nat) :
    ∃ trees tokens, trees.map (fun d => d.body.outline) = ds ∧ DerivesImports rest trees tokens ∧
      Reads false offset (ds.flatMap (ImportOutline.printLine layout)) tokens [] false := by
  induction ds generalizing offset with
  | nil => exact ⟨[], [], rfl, .none, reads_nil false offset⟩
  | cons d ds ih =>
    obtain ⟨tree, front, rfl, htree, hfront⟩ :=
      exists_reads_declaration (h d List.mem_cons_self) layout offset
    obtain ⟨trees, back, rfl, htrees, hback⟩ := ih (fun x hx => h x (List.mem_cons_of_mem _ hx)) _
    exact ⟨tree :: trees, _, rfl, .more (htree _) htrees, hfront.append hback⟩

/-- A printed program is read as tokens of a program. -/
theorem Outline.WellFormed.exists_reads {o : Outline} (h : o.WellFormed) (layout : GroupLayout)
    (rest : List Token) :
    ∃ tree tokens, tree.outline = o ∧ DerivesProgram rest tree tokens ∧
      Reads false 0 (o.print layout) tokens [] false := by
  obtain ⟨package, ds⟩ := o
  have hkeyword : Reads false 0 (Keyword.kwPackage.text ++ [' '])
      [⟨.keyword .kwPackage, 0, Keyword.kwPackage.text⟩] [] false :=
    freestanding_package.reads_space rfl
  have hclause := hkeyword.append (h.package.freestanding.reads_feed rfl)
  rw [← List.append_assoc] at hclause
  obtain ⟨trees, tokens, rfl, htrees, htokens⟩ := exists_reads_imports h.specs layout rest
    (0 + Text.size (Keyword.kwPackage.text ++ [' '] ++ package ++ ['\n']))
  exact ⟨⟨⟨_, ⟨_, package⟩, _⟩, trees⟩, _, rfl, .intro _ _ h.package_ne (.semicolon _) htrees,
    hclause.append htokens⟩

/-- **A printed program is parsed again.** The print of an outline has a token stream, and a program
of the same outline is parsed from it, up to the end of the file. Nothing is reported. -/
theorem parse_print {o : Outline} (h : o.WellFormed) (layout : GroupLayout) {σ : Type}
    (handler : Handler Error σ) (kept : σ) (file : SourceFile)
    (hfile : file.content = o.print layout) :
    ∃ s tree q, file.tokenize handler kept = (.ok s, kept) ∧
      (Parser.ofTokens s.tokens).programOf handler file kept = ((.ok tree, q), kept) ∧
      tree.outline = o ∧ q.rest = [endOfFile (Text.size file.content)] ∧
      ∀ provider path, SourceFile.load provider path path = .ok file →
        parse handler provider path kept = (.ok ⟨file, tree⟩, kept) := by
  obtain ⟨tree, tokens, houtline, hderives, hreads⟩ :=
    h.exists_reads layout [endOfFile (Text.size file.content)]
  rw [← hfile] at hreads
  have hok : TokenStream.ofText file.content =
      .ok ⟨tokens ++ [endOfFile (Text.size file.content)], []⟩ := TokenStream.ofText_of_reads hreads
  have hinside : Inside tokens := by
    obtain ⟨front, last, htokens, -, hfront⟩ := TokenStream.closed_of_ok hok
    obtain ⟨rfl, -⟩ := List.append_inj' htokens rfl
    exact hfront
  have htokenize : file.tokenize handler kept =
      (.ok ⟨tokens ++ [endOfFile (Text.size file.content)], []⟩, kept) := by
    rw [SourceFile.tokenize, hok]
  have hprogram := Parser.program_of_derives hderives hinside
  have hparsed : (Parser.ofTokens (tokens ++ [endOfFile (Text.size file.content)])).programOf
      handler file kept =
        ((.ok tree, ⟨tokens.length, [endOfFile (Text.size file.content)]⟩), kept) := by
    rw [Parser.programOf, hprogram]
  refine ⟨_, tree, _, htokenize, hparsed, houtline, rfl, ?_⟩
  intro provider path hload
  have htokenized : tokenize handler provider path kept =
      (.ok ⟨file, ⟨tokens ++ [endOfFile (Text.size file.content)], []⟩⟩, kept) := by
    rw [tokenize, hload, tokenizeLoaded, htokenize]
  rw [parse, htokenized]
  dsimp only
  rw [hparsed]

/-- A group on one line, with a raw string over two lines and a word in it. -/
theorem parse_print_group :
    ∃ o : Outline, o = ⟨['p'], [.group [⟨some .dot, ['\x60', '\n', '\x22', '\x60']⟩,
        ⟨some (.word ['x']), ['\x22', '\x22']⟩]]⟩ ∧
      o.print .oneLine = ['p', 'a', 'c', 'k', 'a', 'g', 'e', ' ', 'p', '\n', 'i', 'm', 'p', 'o',
        'r', 't', ' ', '(', '.', ' ', '\x60', '\n', '\x22', '\x60', ';', 'x', ' ', '\x22', '\x22',
        ')', '\n'] ∧
      ∃ parsed, parse Handler.log ⟨fun _ => .ok [], fun _ => .ok (o.print .oneLine)⟩ "group" [] =
          (.ok parsed, []) ∧
        parsed.program.outline = o := by
  have hname (c : Char) (hstart : isWordStart c = true) (hkeyword : Keyword.ofText? [c] = none) :
      IsName [c] := ⟨c, [], rfl, hstart, rfl, hkeyword⟩
  have hdot : SpecOutline.WellFormed ⟨some .dot, ['\x60', '\n', '\x22', '\x60']⟩ :=
    ⟨nofun, .raw, by cbv⟩
  have hword : SpecOutline.WellFormed ⟨some (.word ['x']), ['\x22', '\x22']⟩ := by
    refine ⟨?_, .interpreted, by cbv⟩
    rintro text ⟨⟩
    exact hname 'x' (by decide) (by decide)
  have hwell : Outline.WellFormed ⟨['p'], [.group [⟨some .dot, ['\x60', '\n', '\x22', '\x60']⟩,
      ⟨some (.word ['x']), ['\x22', '\x22']⟩]]⟩ :=
    ⟨hname 'p' (by decide) (by decide), by decide, by simp [ImportOutline.specs, hdot, hword]⟩
  obtain ⟨s, tree, q, -, -, houtline, -, hparse⟩ :=
    parse_print hwell .oneLine Handler.log [] ⟨"group", "group", _, 0⟩ rfl
  exact ⟨_, rfl, by decide, ⟨_, tree⟩, hparse _ "group" rfl, houtline⟩

end Frontend
