import Frontend.Proofs.Grammar.Predictive
import Frontend.Proofs.Grammar.Recognition

/-!
# Where a syntax error is reported

A step that fails stands after tokens that could have gone on: with any token in place of the next
one that the error says is expected, some more tokens complete what the step reads. Together with
how far the parser looks ahead, an error is reported at the first token that no program has there.
-/

namespace Frontend

namespace Expected

mutual

/-- The kinds of the tokens that fit. -/
def kinds : Expected → List TokenKind
  | either options => kindsAll options
  | punctuation p => [.punctuation p]
  | keyword k => [.keyword k]
  | identifier => [.identifier]
  | stringLiteral => [.string]
  | importSpec => [.punctuation .period, .identifier, .string]
  | endOfFile => [.endOfFile]

/-- The kinds of the tokens that fit one of a list. -/
def kindsAll : List Expected → List TokenKind
  | [] => []
  | e :: es => kinds e ++ kindsAll es

end

end Expected

namespace Parser

variable {α β : Type} {p q r : Parser} {e : SyntaxError} {front : List Token}

/-- After the tokens something is expected, and each token that fits can be followed by others such
that all of them together have the property. The blank identifier, which does not name a package, is
not taken into account. -/
def Awaits (derived : List Token → Prop) (front : List Token) (expected : Expected) : Prop :=
  expected.kinds ≠ [] ∧ ∀ t : Token, t.kind ∈ expected.kinds → t.text ≠ blankIdentifier →
    ∃ back, derived (front ++ t :: back)

/-- The error is that the next token of `q` does not fit, after tokens from `p` on that await
another one. -/
def StopsAwaiting (derived : List Token → Prop) (p : Parser) (e : SyntaxError) (q : Parser) :
    Prop :=
  ∃ front expected, p.Advances front q ∧ e = .unexpected ⟨expected, q.peek⟩ ∧
    Awaits derived front expected

/-- Tokens of the file that derive from a rule. -/
def Whole (derives : α → List Token → Prop) (tokens : List Token) : Prop :=
  Inside tokens ∧ ∃ a, derives a tokens

/-- Closed tokens that derive from a rule, up to the end of the file. -/
def Ended (derives : List Token → α → List Token → Prop) (tokens : List Token) : Prop :=
  ∃ front last, tokens = front ++ [last] ∧ last.kind = .endOfFile ∧ Inside front ∧
    ∃ a, derives [last] a front

/-- Tokens of the file that derive from a rule are complete with the end of the file behind them. -/
theorem ended_of_derives {derives : List Token → α → List Token → Prop} {last : Token} {a : α}
    (hlast : last.kind = .endOfFile) (hfront : Inside front) (h : derives [last] a front) :
    Ended derives (front ++ [last]) :=
  ⟨front, last, rfl, hlast, hfront, a, h⟩

/-- What a part of a step awaits, the step does, if what completes the part can be completed. -/
theorem StopsAwaiting.extend {part all : List Token → Prop} {start : List Token}
    (h : StopsAwaiting part r e q) (hstart : p.Advances start r)
    (hcomplete : ∀ tokens, part tokens → ∃ more, all (start ++ (tokens ++ more))) :
    StopsAwaiting all p e q := by
  obtain ⟨front, expected, hfront, he, hkinds, hawaits⟩ := h
  refine ⟨start ++ front, expected, hstart.trans hfront, he, hkinds, ?_⟩
  intro t ht hblank
  obtain ⟨back, hback⟩ := hawaits t ht hblank
  obtain ⟨more, hmore⟩ := hcomplete _ hback
  refine ⟨back ++ more, ?_⟩
  simpa using hmore

section Take

variable {expected : Expected} {accept : Token → Option α} {derived : List Token → Prop}

/-- A token that is not taken was awaited. -/
theorem stopsAwaiting_of_take (h : take expected accept r = (.error e, q))
    (hfront : p.Advances front r) (hawaits : Awaits derived front expected) :
    StopsAwaiting derived p e q := by
  obtain ⟨rfl, rfl⟩ := take_eq_error h
  exact ⟨front, expected, hfront, rfl, hawaits⟩

/-- A token that is accepted is taken. -/
theorem take_ne_error {t : Token} {a : α} (hpeek : p.peek = some t) (ht : accept t = some a) :
    take expected accept p ≠ (.error e, q) := by
  intro h
  obtain ⟨index, rest⟩ := p
  obtain ⟨others, rfl⟩ := List.head?_eq_some_iff.mp hpeek
  simp [take, next, ht] at h

end Take

/-- The operator or delimiter that the parser is at is taken. -/
theorem punctuation_ne_error {x : Punctuation} (h : p.atPunctuation x = true) :
    punctuation x p ≠ (.error e, q) := by
  obtain ⟨l, hpeek⟩ := exists_of_atPunctuation h
  exact take_ne_error hpeek (if_pos rfl)

/-- The keyword that the parser is at is taken. -/
theorem keyword_ne_error {k : Keyword} (h : p.atKeyword k = true) :
    keyword k p ≠ (.error e, q) := by
  obtain ⟨l, hpeek⟩ := exists_of_atKeyword h
  exact take_ne_error hpeek (if_pos rfl)

/-- Where a terminator is missing, a semicolon and the end of the file were awaited. -/
theorem stopsAwaiting_of_terminator {derived : List Token → Prop}
    (h : terminator r = (.error e, q)) (hfront : p.Advances front r)
    (hsemicolon : ∀ l, ∃ back, derived (front ++ semicolonToken l :: back))
    (hend : ∀ t : Token, t.kind = .endOfFile → derived (front ++ [t])) :
    StopsAwaiting derived p e q := by
  unfold terminator at h
  split at h
  · exact nomatch h
  · refine stopsAwaiting_of_take h hfront ⟨nofun, ?_⟩
    intro t ht _
    rcases List.mem_pair.mp ht with hkind | hkind
    · rw [Token.eq_of_kind (.punctuation .semicolon) hkind (by decide)]
      exact hsemicolon t.lexeme
    · exact ⟨[], hend t hkind⟩

/-! ## Specs -/

/-- A path for a spec that has none. -/
def somePath : StringLiteral :=
  ⟨.interpreted, 0, ['\x22', '\x22']⟩

/-- A name, a point or a path starts a spec. -/
theorem awaits_importSpec : Awaits (Whole DerivesSpec) [] .importSpec := by
  refine ⟨nofun, ?_⟩
  intro t ht _
  have hnamed (name : ImportName) : Whole DerivesSpec [name.token, somePath.token] := by
    refine ⟨?_, _, .named name somePath⟩
    intro x hx
    rcases List.mem_pair.mp hx with rfl | rfl
    · exact name.kind_token_ne
    · nofun
  obtain hkind | hkind | hkind : t.kind = .punctuation .period ∨ t.kind = .identifier ∨
      t.kind = .string := by simpa [Expected.kinds] using ht
  · rw [Token.eq_of_kind (.punctuation .period) hkind (by decide)]
    exact ⟨_, hnamed (.dot t.lexeme)⟩
  · rw [Token.eq_of_kind .identifier hkind (by decide)]
    exact ⟨_, hnamed (.identifier t.lexeme)⟩
  · obtain ⟨path, rfl⟩ := Token.exists_of_kind_string hkind
    exact ⟨[], .singleton nofun, _, .unnamed path⟩

/-- After a name a path is awaited. -/
theorem awaits_stringLiteral (name : ImportName) :
    Awaits (Whole DerivesSpec) [name.token] .stringLiteral := by
  refine ⟨nofun, ?_⟩
  intro t ht _
  obtain ⟨path, rfl⟩ := Token.exists_of_kind_string (List.mem_singleton.mp ht)
  exact ⟨[], Inside.append (.singleton name.kind_token_ne) (.singleton nofun), _,
    .named name path⟩

/-- A spec that fails awaits its name, a point or its path, or only its path if it has a name. -/
theorem stopsAwaiting_of_importSpec (h : importSpec p = (.error e, q)) :
    StopsAwaiting (Whole DerivesSpec) p e q := by
  rcases bind_eq_error h with h | ⟨name, r, hname, h⟩
  · unfold importName at h
    split at h
    · exact nomatch h
    · exact stopsAwaiting_of_take h (.refl p) awaits_importSpec
  · rcases bind_eq_error h with hpath | ⟨path, r', hpath, h⟩
    · rcases importName_eq_ok_iff.mp hname with ⟨rfl, rfl, path, hpeek⟩ | ⟨n, rfl, hfirst⟩
      · exact absurd hpath (take_ne_error hpeek rfl)
      · exact stopsAwaiting_of_take hpath hfirst (awaits_stringLiteral n)
    · exact nomatch h

/-! ## Groups -/

/-- After a spec of a group a semicolon is awaited. -/
theorem awaits_separator {spec : ImportSpec} (h : DerivesSpec spec front) (hfront : Inside front) :
    Awaits (Whole DerivesGroup) front (.punctuation .semicolon) := by
  refine ⟨nofun, ?_⟩
  intro t ht _
  rw [Token.eq_of_kind (.punctuation .semicolon) (List.mem_singleton.mp ht) (by decide)]
  exact ⟨[], hfront.append (.singleton nofun), _, .separated h t.lexeme .empty⟩

/-- A spec of a group that fails awaits part of a spec, or the separator behind it. -/
theorem stopsAwaiting_of_groupItem (h : groupItem p = (.error e, q)) :
    StopsAwaiting (Whole DerivesGroup) p e q := by
  rcases bind_eq_error h with hspec | ⟨spec, r, hspec, h⟩
  · refine (stopsAwaiting_of_importSpec hspec).extend (.refl p) ?_
    rintro tokens ⟨hinside, spec, hderives⟩
    exact ⟨[], by simpa using hinside, [spec], by simpa using DerivesGroup.last hderives⟩
  · obtain ⟨tokens, hderives, htokens⟩ := importSpec_eq_ok_iff.mp hspec
    rcases bind_eq_error h with hseparator | ⟨⟨⟩, r', hseparator, h⟩
    · rw [separator_eq] at hseparator
      split at hseparator
      · exact nomatch hseparator
      · rcases bind_eq_error hseparator with hsemicolon | ⟨l, r', hsemicolon, h⟩
        · exact stopsAwaiting_of_take hsemicolon htokens
            (awaits_separator hderives htokens.inside)
        · exact nomatch h
    · exact nomatch h

/-- A group that is closed does not fail. -/
theorem groupRest_ne_error (h : p.atPunctuation .rightParen = true) :
    groupRest p ≠ (.error e, q) := by
  intro hrest
  rw [groupRest_eq, if_pos h] at hrest
  rcases bind_eq_error hrest with hclosing | ⟨closing, r, hclosing, hrest⟩
  · exact punctuation_ne_error h hclosing
  · exact nomatch hrest

/-- The specs of a group that were read stand before those that complete it. -/
theorem stopsAwaiting_of_groupRest {p q : Parser} (h : groupRest p = (.error e, q)) :
    StopsAwaiting (Whole DerivesGroup) p e q := by
  by_cases hclosing : p.atPunctuation .rightParen = true
  · exact absurd h (groupRest_ne_error hclosing)
  · rw [groupRest_eq, if_neg hclosing] at h
    rcases bind_eq_error h with hitem | ⟨spec, r, hitem, h⟩
    · exact stopsAwaiting_of_groupItem hitem
    · rcases bind_eq_error h with hothers | ⟨others, r', hothers, h⟩
      · -- without a semicolon the group closes and nothing fails, so the others come after one
        obtain ⟨tokens, hspec, ⟨-, hnext⟩ | ⟨l, htokens⟩⟩ := groupItem_eq_ok_iff.mp hitem
        · exact absurd hothers (groupRest_ne_error hnext)
        · refine (stopsAwaiting_of_groupRest hothers).extend htokens ?_
          rintro back ⟨hinside, specs, hderives⟩
          refine ⟨[], htokens.inside.append (by simpa using hinside), spec :: specs, ?_⟩
          simpa using DerivesGroup.separated hspec l hderives
      · exact nomatch h
termination_by p.rest.length
decreasing_by exact progresses_groupItem hitem

/-! ## Declarations -/

/-- A body that fails awaits what its spec does, or the rest of its group. -/
theorem stopsAwaiting_of_importBody (h : importBody p = (.error e, q)) :
    StopsAwaiting (Whole DerivesBody) p e q := by
  unfold importBody at h
  split at h
  · rename_i hat
    rcases bind_eq_error h with hopening | ⟨opening, r, hopening, h⟩
    · exact absurd hopening (punctuation_ne_error hat)
    · rcases bind_eq_error h with hothers | ⟨others, r', hothers, h⟩
      · have hstart := punctuation_eq_ok_iff.mp hopening
        refine (stopsAwaiting_of_groupRest hothers).extend hstart ?_
        rintro tokens ⟨hinside, specs, hderives⟩
        exact ⟨[⟨.punctuation .rightParen, ⟨0, []⟩⟩],
          hstart.inside.append (hinside.append (.singleton nofun)), _,
          .group opening ⟨0, []⟩ hderives⟩
      · exact nomatch h
  · rcases bind_eq_error h with hspec | ⟨spec, r, hspec, h⟩
    · refine (stopsAwaiting_of_importSpec hspec).extend (.refl p) ?_
      rintro tokens ⟨hinside, spec, hderives⟩
      exact ⟨[], by simpa using hinside, .single spec, by simpa using DerivesBody.single hderives⟩
    · exact nomatch h

/-- With the end of the file or a semicolon after it, a declaration is complete. -/
theorem ended_declaration {body : ImportBody} {tokens : List Token} (keyword : Lexeme)
    (h : DerivesBody body tokens) (hinside : Inside tokens) {t : Token}
    (ht : t.kind = .endOfFile) :
    Ended DerivesDeclaration (⟨.keyword .kwImport, keyword⟩ :: tokens ++ [t]) := by
  have hderives := DerivesDeclaration.intro keyword h (.missing (atEnd_cons ht []))
  rw [List.append_nil] at hderives
  exact ended_of_derives ht (Inside.cons (by nofun) hinside) hderives

/-- A declaration that fails awaits what its body does, or its terminator, since its keyword is
there. -/
theorem stopsAwaiting_of_importDeclaration (hat : p.atKeyword .kwImport = true)
    (h : importDeclaration p = (.error e, q)) :
    StopsAwaiting (Ended DerivesDeclaration) p e q := by
  rcases bind_eq_error h with hkeyword | ⟨keyword, r, hkeyword, h⟩
  · exact absurd hkeyword (keyword_ne_error hat)
  · have hstart := keyword_eq_ok_iff.mp hkeyword
    rcases bind_eq_error h with hbody | ⟨body, r', hbody, h⟩
    · refine (stopsAwaiting_of_importBody hbody).extend hstart ?_
      rintro tokens ⟨hinside, body, hderives⟩
      exact ⟨[endOfFile 0], ended_declaration keyword hderives hinside rfl⟩
    · obtain ⟨tokens, hderives, htokens⟩ := importBody_eq_ok_iff.mp hbody
      rcases bind_eq_error h with hterminator | ⟨terminator, r'', hterminator, h⟩
      · refine stopsAwaiting_of_terminator hterminator (hstart.trans htokens) ?_ ?_
        · intro l
          have hinside := (hstart.trans htokens).inside.append
            (.singleton (t := semicolonToken l) nofun)
          have hended := ended_of_derives (kind_endOfFile 0) hinside
            (DerivesDeclaration.intro keyword hderives (.semicolon l))
          exact ⟨[endOfFile 0], by simpa using hended⟩
        · exact fun t ht => ended_declaration keyword hderives htokens.inside ht
      · exact nomatch h

/-- Before another declaration a terminator is a semicolon, so that anything can follow it. -/
theorem derivesTerminator_of_atKeyword {terminator : Option Lexeme} {tokens : List Token}
    (h : DerivesTerminator p.rest terminator tokens) {k : Keyword} (hp : p.atKeyword k = true)
    (rest : List Token) : DerivesTerminator rest terminator tokens := by
  cases h with
  | semicolon l => exact .semicolon l
  | missing hend =>
    obtain ⟨l, hpeek⟩ := exists_of_atKeyword hp
    exact nomatch hend _ hpeek

/-- The declarations that were read stand before those that complete them. -/
theorem stopsAwaiting_of_imports {p q : Parser} (h : imports p = (.error e, q)) :
    p.atKeyword .kwImport = true ∧ StopsAwaiting (Ended DerivesImports) p e q := by
  rw [imports_eq] at h
  split at h
  · rename_i hat
    refine ⟨hat, ?_⟩
    rcases bind_eq_error h with hdeclaration | ⟨d, r, hdeclaration, h⟩
    · refine (stopsAwaiting_of_importDeclaration hat hdeclaration).extend (.refl p) ?_
      rintro _ ⟨tokens, last, rfl, hlast, hinside, d, hderives⟩
      have himports := DerivesImports.more hderives .none
      rw [List.append_nil] at himports
      exact ⟨[], by simpa using ended_of_derives hlast hinside himports⟩
    · rcases bind_eq_error h with hothers | ⟨others, r', hothers, h⟩
      · obtain ⟨tokens, ⟨keyword, hbody, hterminator⟩, htokens⟩ :=
          importDeclaration_eq_ok_iff.mp hdeclaration
        obtain ⟨hnext, hstops⟩ := stopsAwaiting_of_imports hothers
        refine hstops.extend htokens ?_
        rintro _ ⟨back, last, rfl, hlast, hinside, ds, hderives⟩
        have hfirst := DerivesDeclaration.intro keyword hbody
          (derivesTerminator_of_atKeyword hterminator hnext (back ++ [last]))
        have hended := ended_of_derives hlast (htokens.inside.append hinside)
          (DerivesImports.more hfirst hderives)
        exact ⟨[], by simpa using hended⟩
      · exact nomatch h
  · exact nomatch h
termination_by p.rest.length
decreasing_by exact progresses_importDeclaration hdeclaration

/-! ## Programs -/

/-- A package clause is a program, with the end of the file or a semicolon after it. -/
theorem ended_clause {keyword name : Lexeme} {t : Token} {terminator : Option Lexeme}
    {ending : List Token} (hname : name.text ≠ blankIdentifier) (ht : t.kind = .endOfFile)
    (hending : Inside ending) (hterminator : DerivesTerminator [t] terminator ending) :
    Ended DerivesProgram
      (⟨.keyword .kwPackage, keyword⟩ :: ⟨.identifier, name⟩ :: ending ++ [t]) := by
  have hderives := DerivesProgram.intro keyword name hname hterminator .none
  rw [List.append_nil] at hderives
  exact ended_of_derives ht (Inside.cons (by nofun) (Inside.cons (by nofun) hending)) hderives

/-- A program starts with the package keyword. -/
theorem awaits_package : Awaits (Ended DerivesProgram) [] (.keyword .kwPackage) := by
  refine ⟨nofun, ?_⟩
  intro t ht _
  rw [Token.eq_of_kind (.keyword .kwPackage) (List.mem_singleton.mp ht) (by decide)]
  have hname : Lexeme.text ⟨0, ['p']⟩ ≠ blankIdentifier := by decide
  exact ⟨_, ended_clause hname (kind_endOfFile 0) .nil (.missing (atEnd_cons rfl []))⟩

/-- After the package keyword any name but the blank identifier is awaited. -/
theorem awaits_packageName (keyword : Lexeme) :
    Awaits (Ended DerivesProgram) [⟨.keyword .kwPackage, keyword⟩] .identifier := by
  refine ⟨nofun, ?_⟩
  intro t ht hblank
  rw [Token.eq_of_kind .identifier (List.mem_singleton.mp ht) (by decide)]
  exact ⟨_, ended_clause hblank (kind_endOfFile 0) .nil (.missing (atEnd_cons rfl []))⟩

/-- A package clause fails where something else was awaited, or because of the blank identifier. -/
theorem packageClause_eq_error (h : packageClause p = (.error e, q)) :
    StopsAwaiting (Ended DerivesProgram) p e q ∨
      ∃ keyword name, name.text = blankIdentifier ∧ e = blankPackageName name ∧
        p.Advances [⟨.keyword .kwPackage, keyword⟩, ⟨.identifier, name⟩] q := by
  rcases bind_eq_error h with hkeyword | ⟨keyword, r, hkeyword, h⟩
  · exact .inl (stopsAwaiting_of_take hkeyword (.refl p) awaits_package)
  · have hstart := keyword_eq_ok_iff.mp hkeyword
    rcases bind_eq_error h with hname | ⟨name, r', hname, h⟩
    · exact .inl (stopsAwaiting_of_take hname hstart (awaits_packageName keyword))
    · have hfront := hstart.trans (identifier_eq_ok_iff.mp hname)
      split at h
      · rename_i hblank
        obtain ⟨he, rfl⟩ := Prod.mk.inj h
        exact .inr ⟨keyword, name, hblank, (Except.error.inj he).symm, hfront⟩
      · rename_i hblank
        rcases bind_eq_error h with hterminator | ⟨terminator, r'', hterminator, h⟩
        · refine .inl (stopsAwaiting_of_terminator hterminator hfront ?_ ?_)
          · exact fun l => ⟨[endOfFile 0], ended_clause hblank (kind_endOfFile 0)
              (.singleton (t := semicolonToken l) nofun) (.semicolon l)⟩
          · exact fun t ht => ended_clause hblank ht .nil (.missing (atEnd_cons ht []))
        · exact nomatch h

/-- A program fails where something else was awaited, or because of the blank identifier. -/
theorem program_eq_error (h : program p = (.error e, q)) :
    StopsAwaiting (Ended DerivesProgram) p e q ∨
      ∃ keyword name, name.text = blankIdentifier ∧ e = blankPackageName name ∧
        p.Advances [⟨.keyword .kwPackage, keyword⟩, ⟨.identifier, name⟩] q := by
  rcases bind_eq_error h with hclause | ⟨⟨keyword, name, terminator⟩, r, hclause, h⟩
  · exact packageClause_eq_error hclause
  · rcases bind_eq_error h with himports | ⟨ds, r', himports, h⟩
    · obtain ⟨hblank, ending, hterminator, hfront⟩ := packageClause_eq_ok_iff.mp hclause
      obtain ⟨hnext, hstops⟩ := stopsAwaiting_of_imports himports
      refine .inl (hstops.extend hfront ?_)
      rintro _ ⟨tokens, last, rfl, hlast, hinside, ds, hderives⟩
      have hprogram := DerivesProgram.intro keyword name hblank
        (derivesTerminator_of_atKeyword hterminator hnext (tokens ++ [last])) hderives
      have hended := ended_of_derives hlast (hfront.inside.append hinside) hprogram
      exact ⟨[], by simpa using hended⟩
    · exact nomatch h

/-- The head of a program can be read from the tokens. -/
def Accepted (tokens : List Token) : Prop :=
  ∃ tree q, program (ofTokens tokens) = (.ok tree, q)

/-- The tokens go on to closed ones that are accepted. -/
def Viable (front : List Token) : Prop :=
  ∃ back, Closed (front ++ back) ∧ Accepted (front ++ back)

/-- What derives from the grammar up to the end of the file is accepted. -/
theorem Ended.accepted {tokens : List Token} (h : Ended DerivesProgram tokens) :
    Closed tokens ∧ Accepted tokens := by
  obtain ⟨front, last, rfl, hlast, hinside, tree, hderives⟩ := h
  refine ⟨⟨front, last, rfl, hlast, hinside⟩, tree, ⟨front.length, [last]⟩, ?_⟩
  refine program_eq_ok_iff.mpr ⟨?_, front, hderives, rfl, (Nat.zero_add _).symm, hinside⟩
  rw [atKeyword_of_peek rfl, hlast]
  nofun

/-- A token of the kind may stand after the tokens: one does, and so does every one but the blank
identifier. -/
def Legal (front : List Token) (kind : TokenKind) : Prop :=
  (∃ t : Token, t.kind = kind ∧ Viable (front ++ [t])) ∧
    ∀ t : Token, t.kind = kind → t.text ≠ blankIdentifier → Viable (front ++ [t])

/-- There are tokens of every kind. -/
theorem exists_token (kind : TokenKind) : ∃ t : Token, t.kind = kind ∧ t.text = [] := by
  have hcls : ∃ cls : TokenClass, cls.kind = kind := by
    cases kind with
    | identifier => exact ⟨.identifier, rfl⟩
    | int => exact ⟨.numeric .int, rfl⟩
    | float => exact ⟨.numeric .float, rfl⟩
    | imaginary => exact ⟨.numeric .imaginary, rfl⟩
    | char => exact ⟨.charLiteral, rfl⟩
    | string => exact ⟨.stringLiteral .raw, rfl⟩
    | comment => exact ⟨.comment .line, rfl⟩
    | illegal => exact ⟨.illegal .malformedNumber, rfl⟩
    | endOfFile => exact ⟨.endOfFile, rfl⟩
    | keyword k => exact ⟨.keyword k, rfl⟩
    | punctuation x => exact ⟨.punctuation x, rfl⟩
  obtain ⟨cls, hcls⟩ := hcls
  exact ⟨⟨cls, 0, []⟩, hcls, rfl⟩

/-- What a program awaits may stand there. -/
theorem Awaits.legal {expected : Expected} (h : Awaits (Ended DerivesProgram) front expected) :
    ∀ kind ∈ expected.kinds, Legal front kind := by
  intro kind hkind
  have hviable (t : Token) (ht : t.kind = kind) (hblank : t.text ≠ blankIdentifier) :
      Viable (front ++ [t]) := by
    obtain ⟨back, hback⟩ := h.2 t (ht ▸ hkind) hblank
    refine ⟨back, ?_⟩
    rw [List.append_assoc]
    exact hback.accepted
  obtain ⟨t, ht, htext⟩ := exists_token kind
  exact ⟨⟨t, ht, hviable t ht (by simp [htext, blankIdentifier])⟩, hviable⟩

/-- Where a program awaits something, it can go on. -/
theorem Awaits.viable {expected : Expected} (h : Awaits (Ended DerivesProgram) front expected) :
    Viable front := by
  obtain ⟨kind, hkind⟩ := List.exists_mem_of_ne_nil _ h.1
  obtain ⟨⟨t, -, back, hback⟩, -⟩ := h.legal kind hkind
  rw [List.append_assoc] at hback
  exact ⟨_, hback⟩

/-- Nothing after a token at which reading a program has failed makes up for it. -/
theorem not_accepted_of_error {next : Token} (h : program p = (.error e, q)) (hp : p.index = 0)
    (hfront : p.Advances front q) (hnext : q.peek = some next) (rest : List Token) :
    ¬Accepted (front ++ next :: rest) := by
  obtain ⟨front', hfront', hlocal⟩ := predictive_program h
  obtain rfl := hfront'.unique hfront
  rintro ⟨tree, r, haccepted⟩
  -- the run looks no further than the next token, so it fails alike whatever comes after it
  have herror := hlocal (next :: rest) hnext.symm
  rw [hp] at herror
  exact nomatch haccepted.symm.trans herror

/-- What an error says about tokens that were passed up to a place. If the next token does not fit,
those before it go on to an accepted file, with any token that is expected after them, but no file
that starts with them and the next one is accepted. Otherwise the package has the blank identifier
for its name. -/
def Reports (tokens : List Token) (index : Nat) : SyntaxError → Prop
  | .unexpected u =>
    u.found = tokens[index]? ∧ Viable (tokens.take index) ∧
      (∀ rest, ¬Accepted (tokens.take (index + 1) ++ rest)) ∧
      ∀ kind ∈ u.expected.kinds, Legal (tokens.take index) kind
  | .invalid a =>
    index = 2 ∧ (∃ keyword, tokens[0]? = some ⟨.keyword .kwPackage, keyword⟩) ∧
      tokens[1]? = some ⟨.identifier, a.lexeme⟩ ∧ a.lexeme.text = blankIdentifier

/-- **An error is reported at the first token that does not fit.** When the tokens of a file are no
program, the handler receives the error that is returned and nothing else, the parser stands at a
token of the file before which the file has not ended, and the error tells why. -/
theorem programOf_eq_error {σ : Type} {file : SourceFile} {s : TokenStream}
    (h : TokenStream.ofText file.content = .ok s) (handler : Handler Error σ) {kept kept' : σ}
    (herror : (ofTokens s.tokens).programOf handler file kept = ((.error e, q), kept')) :
    q.index < s.tokens.length ∧ Inside (s.tokens.take q.index) ∧
      kept' = handler.receive kept (.grammar file e) ∧ Reports s.tokens q.index e := by
  obtain ⟨hprogram, hkept⟩ : program (ofTokens s.tokens) = (.error e, q) ∧
      kept' = handler.receive kept (.grammar file e) := by
    unfold programOf at herror
    split at herror
    · exact nomatch herror
    · rename_i e' q' hprogram
      obtain ⟨hresult, rfl⟩ := Prod.mk.inj herror
      obtain ⟨he, rfl⟩ := Prod.mk.inj hresult
      obtain rfl := Except.error.inj he
      exact ⟨hprogram, rfl⟩
  obtain ⟨front, hfront, -⟩ := predictive_program hprogram
  obtain ⟨found, hpeek⟩ := hfront.exists_peek (TokenStream.closed_of_ok h)
  have hget : s.tokens[q.index]? = some found := hfront.getElem?_index.trans hpeek
  refine ⟨(List.getElem?_eq_some_iff.mp hget).1, ?_, hkept, ?_⟩
  · rw [hfront.take_index]
    exact hfront.inside
  · rcases program_eq_error hprogram with ⟨front', expected, hfront', rfl, hawaits⟩ |
      ⟨keyword, name, hblank, rfl, hfront'⟩
    · obtain rfl := hfront'.unique hfront
      rw [Reports, hget, List.take_add_one, hget, hfront.take_index]
      refine ⟨hpeek, hawaits.viable, ?_, hawaits.legal⟩
      intro rest
      rw [List.append_assoc]
      exact not_accepted_of_error hprogram rfl hfront hpeek rest
    · obtain rfl := hfront'.unique hfront
      have htokens : s.tokens = _ ++ q.rest := hfront.rest_eq
      rw [blankPackageName, Reports, htokens]
      exact ⟨hfront.index_eq_length, ⟨keyword, rfl⟩, rfl, hblank⟩

/-- A second word in a package clause is where a semicolon or the end of the file was awaited. -/
theorem programOf_eq_error_clause :
    ∃ s, TokenStream.ofText ['p', 'a', 'c', 'k', 'a', 'g', 'e', ' ', 'p', ' ', 'x'] = .ok s ∧
      ∃ e q, (ofTokens s.tokens).programOf Handler.count
          (SourceFile.ofText "clause" ['p', 'a', 'c', 'k', 'a', 'g', 'e', ' ', 'p', ' ', 'x']) 0 =
            ((.error e, q), 1) ∧
        q.index = 2 ∧ Reports s.tokens 2 e := by
  have herror : (ofTokens [⟨.keyword .kwPackage, 0, ['p', 'a', 'c', 'k', 'a', 'g', 'e']⟩,
      ⟨.identifier, 8, ['p']⟩, ⟨.identifier, 10, ['x']⟩, endOfFile 11]).programOf Handler.count
        (SourceFile.ofText "clause" ['p', 'a', 'c', 'k', 'a', 'g', 'e', ' ', 'p', ' ', 'x']) 0 =
      ((.error (.unexpected ⟨terminatorExpected, some ⟨.identifier, 10, ['x']⟩⟩),
        ⟨2, [⟨.identifier, 10, ['x']⟩, endOfFile 11]⟩), 1) :=
    rfl
  exact ⟨⟨_, []⟩, by cbv, _, _, herror, rfl,
    (programOf_eq_error (s := ⟨_, []⟩) (by cbv) Handler.count herror).2.2.2⟩

end Parser

end Frontend
