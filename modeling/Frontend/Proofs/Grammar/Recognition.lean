import Frontend.Pipeline
import Frontend.Proofs.Grammar.Derivation
import Frontend.Proofs.Stream.Cover

/-!
# What the parser accepts

Every step of the parser succeeds exactly where the tokens it passes derive from its rule, and
yields the tree of the derivation. Each statement is an equivalence, so that a step made of others
is read off the steps it is made of, in both directions.
-/

namespace Frontend

/-- The tokens of a stream are closed. -/
theorem TokenStream.closed_of_ok {t : Text} {s : TokenStream} (h : ofText t = .ok s) :
    Closed s.tokens := by
  obtain ⟨front, htokens, hfront⟩ := ending_of_ok h
  refine ⟨front, _, htokens, rfl, ?_⟩
  intro x hx hkind
  exact hfront x hx (TokenClass.eq_of_kind (d := .endOfFile) hkind (by decide))

namespace Parser

variable {p q : Parser}

/-- The parser takes for the end what the grammar takes for it. -/
theorem isExhausted_iff : p.isExhausted = true ↔ AtEnd p.rest := by
  unfold isExhausted peekKind peek AtEnd
  cases p.rest.head? <;> simp

/-- The parser is at the operator or delimiter that the next token is. -/
theorem atPunctuation_of_peek {t : Token} (h : p.peek = some t) (x : Punctuation) :
    p.atPunctuation x = true ↔ t.kind = .punctuation x := by
  simp [atPunctuation, peekKind, h]

/-- The parser is at the keyword that the next token is. -/
theorem atKeyword_of_peek {t : Token} (h : p.peek = some t) (k : Keyword) :
    p.atKeyword k = true ↔ t.kind = .keyword k := by
  simp [atKeyword, peekKind, h]

/-- The next token is the operator that the parser is at. -/
theorem exists_of_atPunctuation {x : Punctuation} (h : p.atPunctuation x = true) :
    ∃ l, p.peek = some ⟨.punctuation x, l⟩ := by
  obtain ⟨t, hpeek, hkind⟩ : ∃ t, p.peek = some t ∧ t.kind = .punctuation x := by
    simpa [atPunctuation, peekKind] using h
  rw [Token.eq_of_kind (.punctuation x) hkind (by nofun)] at hpeek
  exact ⟨t.lexeme, hpeek⟩

/-- The next token is the keyword that the parser is at. -/
theorem exists_of_atKeyword {k : Keyword} (h : p.atKeyword k = true) :
    ∃ l, p.peek = some ⟨.keyword k, l⟩ := by
  obtain ⟨t, hpeek, hkind⟩ : ∃ t, p.peek = some t ∧ t.kind = .keyword k := by
    simpa [atKeyword, peekKind] using h
  rw [Token.eq_of_kind (.keyword k) hkind (by nofun)] at hpeek
  exact ⟨t.lexeme, hpeek⟩

/-- A terminator is read exactly where one is next, or nothing where the file ends. -/
theorem terminator_eq_ok_iff {terminator : Option Lexeme} :
    Parser.terminator p = (.ok terminator, q) ↔
      ∃ front, DerivesTerminator q.rest terminator front ∧ p.Advances front q := by
  unfold Parser.terminator
  split
  · rename_i hend
    constructor
    · intro h
      obtain ⟨rfl, rfl⟩ := pure_eq_ok h
      exact ⟨[], .missing (isExhausted_iff.mp hend), .refl p⟩
    · rintro ⟨front, hderives, hadvances⟩
      cases hderives with
      | semicolon l => cases isExhausted_iff.mp hend _ hadvances.peek_eq
      | missing hrest =>
        obtain rfl := hadvances.eq_of_nil
        rfl
  · rename_i hend
    have hinside (l : Lexeme) : (semicolonToken l).kind ≠ .endOfFile := by
      intro h
      cases h
    rw [take_eq_ok_iff (f := some) (g := semicolonToken) ?haccept hinside]
    case haccept =>
      rintro ⟨cls, lexeme⟩ a
      split <;> simp_all [semicolonToken]
    constructor
    · rintro ⟨l, rfl, hadvances⟩
      exact ⟨_, .semicolon l, hadvances⟩
    · rintro ⟨front, hderives, hadvances⟩
      cases hderives with
      | semicolon l => exact ⟨l, rfl, hadvances⟩
      | missing hrest =>
        obtain rfl := hadvances.eq_of_nil
        exact absurd (isExhausted_iff.mpr hrest) hend

/-- A name is read where one is next, and none where the path is. -/
theorem importName_eq_ok_iff {name : Option ImportName} : importName p = (.ok name, q) ↔
    (name = none ∧ q = p ∧ ∃ path : StringLiteral, p.peek = some path.token) ∨
      ∃ n, some n = name ∧ p.Advances [n.token] q := by
  unfold importName
  split
  · rename_i form lexeme hpeek
    constructor
    · intro h
      obtain ⟨rfl, rfl⟩ := pure_eq_ok h
      exact .inl ⟨rfl, rfl, ⟨form, lexeme⟩, hpeek⟩
    · rintro (⟨rfl, rfl, path, hpath⟩ | ⟨n, rfl, hadvances⟩)
      · rfl
      · rw [hadvances.peek_eq] at hpeek
        cases n <;> cases hpeek
  · rename_i hpath
    rw [take_eq_ok_iff (f := some) (g := ImportName.token) ?haccept ImportName.kind_token_ne]
    case haccept =>
      rintro ⟨cls, lexeme⟩ a
      constructor
      · intro h
        split at h
        · rename_i hcls
          obtain rfl : cls = .punctuation .period := hcls
          exact ⟨.dot lexeme, Option.some.inj h, rfl⟩
        · rename_i hcls
          obtain rfl : cls = .identifier := hcls
          exact ⟨.identifier lexeme, Option.some.inj h, rfl⟩
        · cases h
      · rintro ⟨n, rfl, hn⟩
        cases n <;> obtain ⟨rfl, rfl⟩ := Token.mk.inj hn <;> rfl
    constructor
    · exact .inr
    · rintro (⟨-, -, path, hpeek⟩ | hname)
      · exact absurd hpeek (hpath path.form path.lexeme)
      · exact hname

/-- A spec is read exactly where one is next. -/
theorem importSpec_eq_ok_iff {spec : ImportSpec} : importSpec p = (.ok spec, q) ↔
    ∃ front, DerivesSpec spec front ∧ p.Advances front q := by
  constructor
  · intro h
    obtain ⟨name, r, hname, h⟩ := bind_eq_ok h
    obtain ⟨path, r', hpath, h⟩ := bind_eq_ok h
    obtain ⟨rfl, rfl⟩ := pure_eq_ok h
    have hpath := stringLiteral_eq_ok_iff.mp hpath
    rcases importName_eq_ok_iff.mp hname with ⟨rfl, rfl, -⟩ | ⟨n, rfl, hfirst⟩
    · exact ⟨_, .unnamed path, hpath⟩
    · exact ⟨_, .named n path, hfirst.trans hpath⟩
  · rintro ⟨front, hderives, hadvances⟩
    cases hderives with
    | unnamed path =>
      have hname : importName p = (.ok none, p) :=
        importName_eq_ok_iff.mpr (.inl ⟨rfl, rfl, path, hadvances.peek_eq⟩)
      exact (bind_of_ok hname).trans (bind_of_ok (stringLiteral_eq_ok_iff.mpr hadvances))
    | named name path =>
      obtain ⟨r, hname, hpath⟩ := hadvances.split_cons
      have hname := importName_eq_ok_iff.mpr (.inr ⟨name, rfl, hname⟩)
      exact (bind_of_ok hname).trans (bind_of_ok (stringLiteral_eq_ok_iff.mpr hpath))

/-- Where a spec is next, no operator that cannot start one is. -/
theorem not_atPunctuation_of_derives {spec : ImportSpec} {front : List Token}
    (h : DerivesSpec spec front) (hadvances : p.Advances front q) {x : Punctuation}
    (hx : x ≠ .period) : ¬p.atPunctuation x = true := by
  cases h with
  | unnamed path =>
    rw [atPunctuation_of_peek hadvances.peek_eq]
    nofun
  | named name path =>
    rw [atPunctuation_of_peek hadvances.peek_eq]
    rcases name.kind_token with hkind | hkind <;> simp [hkind, Ne.symm hx]

/-- Between two specs a semicolon is passed, and before the closing parenthesis nothing. -/
theorem separator_eq_ok_iff : separator p = (.ok (), q) ↔
    (p.atPunctuation .rightParen = true ∧ q = p) ∨ ∃ l, p.Advances [semicolonToken l] q := by
  rw [separator_eq]
  constructor
  · intro h
    split at h
    · rename_i hclosing
      exact .inl ⟨hclosing, (pure_eq_ok h).2.symm⟩
    · obtain ⟨l, r, hsemicolon, h⟩ := bind_eq_ok h
      obtain ⟨-, rfl⟩ := pure_eq_ok h
      exact .inr ⟨l, punctuation_eq_ok_iff.mp hsemicolon⟩
  · rintro (⟨hclosing, rfl⟩ | ⟨l, hadvances⟩)
    · rw [if_pos hclosing]
      rfl
    · have hclosing : ¬p.atPunctuation .rightParen = true := fun h =>
        nomatch (atPunctuation_of_peek hadvances.peek_eq _).mp h
      rw [if_neg hclosing]
      exact bind_of_ok (punctuation_eq_ok_iff.mpr hadvances)

/-- A spec of a group is read with the semicolon after it, if there is one. -/
theorem groupItem_eq_ok_iff {spec : ImportSpec} : groupItem p = (.ok spec, q) ↔
    ∃ front, DerivesSpec spec front ∧ ((p.Advances front q ∧ q.atPunctuation .rightParen = true) ∨
      ∃ l, p.Advances (front ++ [semicolonToken l]) q) := by
  constructor
  · intro h
    obtain ⟨spec, r, hspec, h⟩ := bind_eq_ok h
    obtain ⟨⟨⟩, r', hseparator, h⟩ := bind_eq_ok h
    obtain ⟨rfl, rfl⟩ := pure_eq_ok h
    obtain ⟨front, hderives, hfront⟩ := importSpec_eq_ok_iff.mp hspec
    rcases separator_eq_ok_iff.mp hseparator with ⟨hclosing, rfl⟩ | ⟨l, hsemicolon⟩
    · exact ⟨front, hderives, .inl ⟨hfront, hclosing⟩⟩
    · exact ⟨front, hderives, .inr ⟨l, hfront.trans hsemicolon⟩⟩
  · rintro ⟨front, hderives, ⟨hfront, hclosing⟩ | ⟨l, hadvances⟩⟩
    · have hspec := importSpec_eq_ok_iff.mpr ⟨front, hderives, hfront⟩
      have hseparator := separator_eq_ok_iff.mpr (.inl ⟨hclosing, rfl⟩)
      exact (bind_of_ok hspec).trans (bind_of_ok hseparator)
    · obtain ⟨r, hfront, hsemicolon⟩ := hadvances.split
      have hspec := importSpec_eq_ok_iff.mpr ⟨front, hderives, hfront⟩
      have hseparator := separator_eq_ok_iff.mpr (.inr ⟨l, hsemicolon⟩)
      exact (bind_of_ok hspec).trans (bind_of_ok hseparator)

/-- At the closing parenthesis a group has no more specs. -/
theorem groupRest_eq_ok_iff_of_closing {specs : List ImportSpec} {closing : Lexeme}
    (hclosing : p.atPunctuation .rightParen = true) :
    groupRest p = (.ok (specs, closing), q) ↔
      specs = [] ∧ p.Advances [⟨.punctuation .rightParen, closing⟩] q := by
  rw [groupRest_eq, if_pos hclosing]
  constructor
  · intro h
    obtain ⟨closing', r, hadvances, h⟩ := bind_eq_ok h
    obtain ⟨hothers, rfl⟩ := pure_eq_ok h
    obtain ⟨rfl, rfl⟩ := Prod.mk.inj hothers
    exact ⟨rfl, punctuation_eq_ok_iff.mp hadvances⟩
  · rintro ⟨rfl, hadvances⟩
    exact bind_of_ok (punctuation_eq_ok_iff.mpr hadvances)

/-- The rest of a group derives from the rule for its specs. -/
theorem derives_of_groupRest {p q : Parser} {specs : List ImportSpec} {closing : Lexeme}
    (h : groupRest p = (.ok (specs, closing), q)) : ∃ front, DerivesGroup specs front ∧
      p.Advances (front ++ [⟨.punctuation .rightParen, closing⟩]) q := by
  by_cases hclosing : p.atPunctuation .rightParen = true
  · obtain ⟨rfl, hadvances⟩ := (groupRest_eq_ok_iff_of_closing hclosing).mp h
    exact ⟨[], .empty, hadvances⟩
  · rw [groupRest_eq, if_neg hclosing] at h
    obtain ⟨spec, r, hitem, h⟩ := bind_eq_ok h
    obtain ⟨⟨others, closing'⟩, r', hothers, h⟩ := bind_eq_ok h
    obtain ⟨hspecs, rfl⟩ := pure_eq_ok h
    obtain ⟨rfl, rfl⟩ := Prod.mk.inj hspecs
    obtain ⟨front, hspec, ⟨hfront, hnext⟩ | ⟨l, hfront⟩⟩ := groupItem_eq_ok_iff.mp hitem
    · obtain ⟨rfl, hadvances⟩ := (groupRest_eq_ok_iff_of_closing hnext).mp hothers
      exact ⟨front, .last hspec, hfront.trans hadvances⟩
    · obtain ⟨back, hback, hadvances⟩ := derives_of_groupRest hothers
      refine ⟨front ++ semicolonToken l :: back, .separated hspec l hback, ?_⟩
      simpa using hfront.trans hadvances
termination_by p.rest.length
decreasing_by exact progresses_groupItem hitem

/-- The specs of a group are read as they derive from the rule, up to the closing parenthesis. -/
theorem groupRest_of_derives {specs : List ImportSpec} {front : List Token} {closing : Lexeme}
    (h : DerivesGroup specs front)
    (hadvances : p.Advances (front ++ [⟨.punctuation .rightParen, closing⟩]) q) :
    groupRest p = (.ok (specs, closing), q) := by
  induction h generalizing p with
  | empty =>
    have hclosing := (atPunctuation_of_peek hadvances.peek_eq .rightParen).mpr rfl
    exact (groupRest_eq_ok_iff_of_closing hclosing).mpr ⟨rfl, hadvances⟩
  | last hspec =>
    obtain ⟨r, hfront, hback⟩ := hadvances.split
    have hnext := (atPunctuation_of_peek hback.peek_eq .rightParen).mpr rfl
    have hitem := groupItem_eq_ok_iff.mpr ⟨_, hspec, .inl ⟨hfront, hnext⟩⟩
    have hothers := (groupRest_eq_ok_iff_of_closing hnext).mpr ⟨rfl, hback⟩
    rw [groupRest_eq, if_neg (not_atPunctuation_of_derives hspec hfront (by nofun))]
    exact (bind_of_ok hitem).trans (bind_of_ok hothers)
  | @separated spec specs front back hspec l hspecs ih =>
    rw [List.append_assoc, List.cons_append, List.append_cons] at hadvances
    obtain ⟨r, hfront, hback⟩ := hadvances.split
    have hitem := groupItem_eq_ok_iff.mpr ⟨_, hspec, .inr ⟨l, hfront⟩⟩
    obtain ⟨r', hfirst, -⟩ := hfront.split
    rw [groupRest_eq, if_neg (not_atPunctuation_of_derives hspec hfirst (by nofun))]
    exact (bind_of_ok hitem).trans (bind_of_ok (ih hback))

/-- A body is read exactly where one is next. -/
theorem importBody_eq_ok_iff {body : ImportBody} : importBody p = (.ok body, q) ↔
    ∃ front, DerivesBody body front ∧ p.Advances front q := by
  unfold importBody
  constructor
  · intro h
    split at h
    · obtain ⟨opening, r, hopening, h⟩ := bind_eq_ok h
      obtain ⟨⟨specs, closing⟩, r', hothers, h⟩ := bind_eq_ok h
      obtain ⟨rfl, rfl⟩ := pure_eq_ok h
      obtain ⟨tokens, hspecs, hadvances⟩ := derives_of_groupRest hothers
      have hopening := punctuation_eq_ok_iff.mp hopening
      exact ⟨_, .group opening closing hspecs, hopening.trans hadvances⟩
    · obtain ⟨spec, r, hspec, h⟩ := bind_eq_ok h
      obtain ⟨rfl, rfl⟩ := pure_eq_ok h
      obtain ⟨front, hderives, hadvances⟩ := importSpec_eq_ok_iff.mp hspec
      exact ⟨front, .single hderives, hadvances⟩
  · rintro ⟨front, hderives, hadvances⟩
    cases hderives with
    | single hspec =>
      rw [if_neg (not_atPunctuation_of_derives hspec hadvances (by nofun))]
      exact bind_of_ok (importSpec_eq_ok_iff.mpr ⟨front, hspec, hadvances⟩)
    | @group opening closing specs tokens hspecs =>
      rw [if_pos ((atPunctuation_of_peek hadvances.peek_eq _).mpr rfl)]
      obtain ⟨r, hopening, hback⟩ := hadvances.split_cons
      have hopening := punctuation_eq_ok_iff.mpr hopening
      have hothers := groupRest_of_derives hspecs hback
      exact (bind_of_ok hopening).trans (bind_of_ok hothers)

/-- An import declaration is read exactly where one is next. -/
theorem importDeclaration_eq_ok_iff {d : ImportDeclaration} :
    importDeclaration p = (.ok d, q) ↔
      ∃ front, DerivesDeclaration q.rest d front ∧ p.Advances front q := by
  constructor
  · intro h
    obtain ⟨keyword, r, hkeyword, h⟩ := bind_eq_ok h
    obtain ⟨body, r', hbody, h⟩ := bind_eq_ok h
    obtain ⟨terminator, r'', hterminator, h⟩ := bind_eq_ok h
    obtain ⟨rfl, rfl⟩ := pure_eq_ok h
    obtain ⟨tokens, hbody, htokens⟩ := importBody_eq_ok_iff.mp hbody
    obtain ⟨ending, hterminator, hending⟩ := terminator_eq_ok_iff.mp hterminator
    have hfront := (keyword_eq_ok_iff.mp hkeyword).trans htokens
    exact ⟨_, .intro keyword hbody hterminator, hfront.trans hending⟩
  · rintro ⟨front, ⟨keyword, hbody, hterminator⟩, hadvances⟩
    obtain ⟨r, hfront, hending⟩ := hadvances.split
    obtain ⟨r', hkeyword, htokens⟩ := hfront.split_cons
    have hkeyword := keyword_eq_ok_iff.mpr hkeyword
    have hbody := importBody_eq_ok_iff.mpr ⟨_, hbody, htokens⟩
    have hterminator := terminator_eq_ok_iff.mpr ⟨_, hterminator, hending⟩
    exact (bind_of_ok hkeyword).trans ((bind_of_ok hbody).trans (bind_of_ok hterminator))

/-- The declarations that are read derive from their rule, and no other one is next. -/
theorem derives_of_imports {p q : Parser} {ds : List ImportDeclaration}
    (h : imports p = (.ok ds, q)) : ¬q.atKeyword .kwImport = true ∧
      ∃ front, DerivesImports q.rest ds front ∧ p.Advances front q := by
  rw [imports_eq] at h
  split at h
  · obtain ⟨d, r, hdeclaration, h⟩ := bind_eq_ok h
    obtain ⟨others, r', hothers, h⟩ := bind_eq_ok h
    obtain ⟨rfl, rfl⟩ := pure_eq_ok h
    obtain ⟨hnext, back, hback, hadvances⟩ := derives_of_imports hothers
    obtain ⟨front, hfirst, hfront⟩ := importDeclaration_eq_ok_iff.mp hdeclaration
    rw [hadvances.rest_eq] at hfirst
    exact ⟨hnext, front ++ back, .more hfirst hback, hfront.trans hadvances⟩
  · rename_i hnext
    obtain ⟨rfl, rfl⟩ := pure_eq_ok h
    exact ⟨hnext, [], .none, .refl p⟩
termination_by p.rest.length
decreasing_by exact progresses_importDeclaration hdeclaration

/-- Declarations are read as they derive from their rule, up to what is no declaration. -/
theorem imports_of_derives {ds : List ImportDeclaration} {front : List Token}
    (hnext : ¬q.atKeyword .kwImport = true) (h : DerivesImports q.rest ds front)
    (hadvances : p.Advances front q) : imports p = (.ok ds, q) := by
  induction h generalizing p with
  | none =>
    obtain rfl := hadvances.eq_of_nil
    rw [imports_eq, if_neg hnext]
    rfl
  | @more d ds front back hfirst hothers ih =>
    obtain ⟨r, hfront, hback⟩ := hadvances.split
    rw [← hback.rest_eq] at hfirst
    have hkeyword : p.atKeyword .kwImport = true := by
      obtain ⟨keyword, hbody, hterminator⟩ := hfirst
      exact (atKeyword_of_peek hfront.peek_eq _).mpr rfl
    have hfirst := importDeclaration_eq_ok_iff.mpr ⟨front, hfirst, hfront⟩
    rw [imports_eq, if_pos hkeyword]
    exact (bind_of_ok hfirst).trans (bind_of_ok (ih hback))

/-- A package clause is read exactly where one is next whose name is not blank. -/
theorem packageClause_eq_ok_iff {keyword name : Lexeme} {terminator : Option Lexeme} :
    packageClause p = (.ok ⟨keyword, name, terminator⟩, q) ↔ name.text ≠ blankIdentifier ∧
      ∃ ending, DerivesTerminator q.rest terminator ending ∧
        p.Advances (⟨.keyword .kwPackage, keyword⟩ :: ⟨.identifier, name⟩ :: ending) q := by
  constructor
  · intro h
    obtain ⟨keyword', r, hkeyword, h⟩ := bind_eq_ok h
    obtain ⟨name', r', hname, h⟩ := bind_eq_ok h
    split at h
    · exact nomatch h
    · rename_i hblank
      obtain ⟨terminator', r'', hterminator, h⟩ := bind_eq_ok h
      obtain ⟨hclause, rfl⟩ := pure_eq_ok h
      obtain ⟨rfl, rfl, rfl⟩ := PackageClause.mk.inj hclause
      obtain ⟨ending, hterminator, hending⟩ := terminator_eq_ok_iff.mp hterminator
      have hfront := (keyword_eq_ok_iff.mp hkeyword).trans (identifier_eq_ok_iff.mp hname)
      exact ⟨hblank, ending, hterminator, hfront.trans hending⟩
  · rintro ⟨hblank, ending, hterminator, hadvances⟩
    obtain ⟨r, hkeyword, hback⟩ := hadvances.split_cons
    obtain ⟨r', hname, hending⟩ := hback.split_cons
    have hkeyword := keyword_eq_ok_iff.mpr hkeyword
    have hname := identifier_eq_ok_iff.mpr hname
    have hterminator := terminator_eq_ok_iff.mpr ⟨ending, hterminator, hending⟩
    refine (bind_of_ok hkeyword).trans ((bind_of_ok hname).trans ?_)
    rw [if_neg hblank]
    exact bind_of_ok hterminator

/-- The head of a program is read exactly where one is next, up to what is no declaration. -/
theorem program_eq_ok_iff {tree : Program} : program p = (.ok tree, q) ↔
    ¬q.atKeyword .kwImport = true ∧
      ∃ front, DerivesProgram q.rest tree front ∧ p.Advances front q := by
  constructor
  · intro h
    obtain ⟨⟨keyword, name, terminator⟩, r, hclause, h⟩ := bind_eq_ok h
    obtain ⟨ds, r', hds, h⟩ := bind_eq_ok h
    obtain ⟨rfl, rfl⟩ := pure_eq_ok h
    obtain ⟨hblank, ending, hterminator, hfront⟩ := packageClause_eq_ok_iff.mp hclause
    obtain ⟨hnext, tokens, hds, htokens⟩ := derives_of_imports hds
    rw [htokens.rest_eq] at hterminator
    exact ⟨hnext, _, .intro keyword name hblank hterminator hds, hfront.trans htokens⟩
  · rintro ⟨hnext, front, ⟨keyword, name, hblank, hterminator, hds⟩, hadvances⟩
    obtain ⟨r, hfront, htokens⟩ := hadvances.split
    rw [← htokens.rest_eq] at hterminator
    have hclause := packageClause_eq_ok_iff.mpr ⟨hblank, _, hterminator, hfront⟩
    exact (bind_of_ok hclause).trans (bind_of_ok (imports_of_derives hnext hds htokens))

/-- Where nothing but a program comes before the end of the file, the program is parsed. -/
theorem program_of_derives {tree : Program} {tokens : List Token} {size : Nat}
    (h : DerivesProgram [endOfFile size] tree tokens) (hinside : Inside tokens) :
    program (ofTokens (tokens ++ [endOfFile size])) =
      (.ok tree, ⟨tokens.length, [endOfFile size]⟩) := by
  have hadvances : (ofTokens (tokens ++ [endOfFile size])).Advances tokens
      ⟨tokens.length, [endOfFile size]⟩ := ⟨rfl, (Nat.zero_add _).symm, hinside⟩
  exact program_eq_ok_iff.mpr ⟨nofun, tokens, h, hadvances⟩

/-- A handler does not change what is read. -/
theorem fst_programOf {σ : Type} (handler : Handler Error σ) (file : SourceFile) (p : Parser)
    (kept : σ) : (p.programOf handler file kept).1 = program p := by
  unfold programOf
  rcases program p with ⟨e | tree, q⟩ <;> rfl

/-- **What is accepted, and as what.** A program is read from the tokens of a file up to the `n`-th
one exactly if that is no import keyword and the program is what the tokens before it derive from.
It is made of those tokens in their order, apart from the semicolons between the specs of a group,
and its specs are all the specs among them. -/
theorem programOf_eq_ok_iff {σ : Type} {file : SourceFile} {s : TokenStream}
    (h : TokenStream.ofText file.content = .ok s) (handler : Handler Error σ) (kept : σ)
    (tree : Program) (n : Nat) :
    ((∃ q, q.index = n ∧ ((ofTokens s.tokens).programOf handler file kept).1 = (.ok tree, q)) ↔
      (∃ next, s.tokens[n]? = some next ∧ next.kind ≠ .keyword .kwImport) ∧
        DerivesProgram (s.tokens.drop n) tree (s.tokens.take n)) ∧
    (DerivesProgram (s.tokens.drop n) tree (s.tokens.take n) →
      dropSeparators false (s.tokens.take n) = tree.leaves ∧
        ((s.tokens.take n).drop 2).filter Token.isSpecPart =
          tree.importSpecs.flatMap ImportSpec.leaves) := by
  have hclosed := TokenStream.closed_of_ok h
  refine ⟨?_, fun hderives => ⟨hderives.dropSeparators_eq, hderives.filter_isSpecPart⟩⟩
  rw [fst_programOf]
  constructor
  · rintro ⟨q, rfl, hprogram⟩
    obtain ⟨hnext, front, hderives, hadvances⟩ := program_eq_ok_iff.mp hprogram
    obtain ⟨next, hpeek⟩ := hadvances.exists_peek hclosed
    rw [hadvances.take_index, hadvances.drop_index, hadvances.getElem?_index]
    refine ⟨⟨next, hpeek, ?_⟩, hderives⟩
    intro hkind
    exact hnext ((atKeyword_of_peek hpeek _).mpr hkind)
  · rintro ⟨⟨next, hnext, hkind⟩, hderives⟩
    obtain ⟨hlt, hget⟩ := List.getElem?_eq_some_iff.mp hnext
    have hpeek : Parser.peek ⟨n, s.tokens.drop n⟩ = some next := by
      rw [peek, List.head?_drop, hnext]
    refine ⟨⟨n, s.tokens.drop n⟩, rfl, program_eq_ok_iff.mpr
      ⟨fun hkeyword => hkind ((atKeyword_of_peek hpeek _).mp hkeyword), _, hderives, ?_⟩⟩
    refine ⟨(List.take_append_drop n s.tokens).symm, ?_, hclosed.inside_take hlt⟩
    rw [List.length_take_of_le (Nat.le_of_lt hlt)]
    exact (Nat.zero_add n).symm

/-- A group of two specs, with a semicolon between them and none after them, is read as it
derives. -/
theorem programOf_eq_ok_iff_group :
    ∃ s, TokenStream.ofText ['p', 'a', 'c', 'k', 'a', 'g', 'e', ' ', 'p', '\n', 'i', 'm', 'p', 'o',
        'r', 't', '(', '\x22', 'a', '\x22', ';', '.', '\x22', 'b', '\x22', ')'] = .ok s ∧
      ∃ tree : Program, tree.importSpecs.map (fun spec => spec.path.content) = [['a'], ['b']] ∧
        ∃ q, q.index = 10 ∧ ((ofTokens s.tokens).programOf Handler.ignore
          (SourceFile.ofText "group" ['p', 'a', 'c', 'k', 'a', 'g', 'e', ' ', 'p', '\n', 'i', 'm',
            'p', 'o', 'r', 't', '(', '\x22', 'a', '\x22', ';', '.', '\x22', 'b', '\x22', ')'])
          ()).1 = (.ok tree, q) := by
  refine ⟨⟨[⟨.keyword .kwPackage, 0, ['p', 'a', 'c', 'k', 'a', 'g', 'e']⟩, ⟨.identifier, 8, ['p']⟩,
    insertedSemicolon 9, ⟨.keyword .kwImport, 10, ['i', 'm', 'p', 'o', 'r', 't']⟩,
    ⟨.punctuation .leftParen, 16, ['(']⟩,
    ⟨.stringLiteral .interpreted, 17, ['\x22', 'a', '\x22']⟩, ⟨.punctuation .semicolon, 20, [';']⟩,
    ⟨.punctuation .period, 21, ['.']⟩, ⟨.stringLiteral .interpreted, 22, ['\x22', 'b', '\x22']⟩,
    ⟨.punctuation .rightParen, 25, [')']⟩, endOfFile 26], []⟩, by cbv, ?_⟩
  have hspecs := DerivesGroup.separated (.unnamed ⟨.interpreted, 17, ['\x22', 'a', '\x22']⟩)
    ⟨20, [';']⟩ (.last (.named (.dot ⟨21, ['.']⟩) ⟨.interpreted, 22, ['\x22', 'b', '\x22']⟩))
  have hdeclaration := DerivesDeclaration.intro ⟨10, ['i', 'm', 'p', 'o', 'r', 't']⟩
    (.group ⟨16, ['(']⟩ ⟨25, [')']⟩ hspecs) (.missing (atEnd_cons (kind_endOfFile 26) []))
  have hprogram := DerivesProgram.intro ⟨0, ['p', 'a', 'c', 'k', 'a', 'g', 'e']⟩ ⟨8, ['p']⟩
    (by decide) (.semicolon ⟨9, []⟩) (.more hdeclaration .none)
  exact ⟨_, rfl, (programOf_eq_ok_iff (by cbv) Handler.ignore () _ 10).1.mpr
    ⟨⟨endOfFile 26, rfl, by decide⟩, hprogram⟩⟩

end Parser

end Frontend
