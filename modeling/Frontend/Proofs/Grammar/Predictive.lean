import Frontend.Proofs.Grammar.Steps

/-!
# How far the parser looks ahead

What a step does depends on the tokens it passes and on the next one only. So whatever is put in
the place of what comes after the next token, the outcome is the same; in particular no tokens at
all can mend a program after a token that does not fit.
-/

namespace Frontend

namespace Parser

variable {α β : Type} {p q : Parser}

/-- What the step does at the parser depends on the tokens it passes and on the next one only. -/
def Predictive (step : Parse α) (p : Parser) : Prop :=
  ∀ ⦃result q⦄, step p = (result, q) → ∃ front, p.Advances front q ∧
    ∀ rest, rest.head? = q.rest.head? →
      step ⟨p.index, front ++ rest⟩ = (result, ⟨q.index, rest⟩)

/-- A step that only gives a value looks at no token. -/
theorem predictive_pure (a : α) : Predictive (Parse.pure a) p := by
  intro result q h
  obtain ⟨rfl, rfl⟩ := Prod.mk.inj h
  exact ⟨[], .refl p, fun rest _ => rfl⟩

/-- A step that only fails looks at no token. -/
theorem predictive_fail (e : SyntaxError) : Predictive (Parse.fail e : Parse α) p := by
  intro result q h
  obtain ⟨rfl, rfl⟩ := Prod.mk.inj h
  exact ⟨[], .refl p, fun rest _ => rfl⟩

/-- Two steps in a row look ahead no further than they do one by one: what the first looks at is
passed by the second, or it is the next token still. -/
theorem Predictive.bind {first : Parse α} {next : α → Parse β} (hfirst : Predictive first p)
    (hnext : ∀ a q, first p = (.ok a, q) → Predictive (next a) q) :
    Predictive (Parse.bind first next) p := by
  intro result q h
  cases hstep : first p with
  | mk outcome r =>
    obtain ⟨front, hfront, hlocal⟩ := hfirst hstep
    cases outcome with
    | error e =>
      rw [bind_of_error hstep] at h
      obtain ⟨rfl, rfl⟩ := Prod.mk.inj h
      exact ⟨front, hfront, fun rest hrest => bind_of_error (hlocal rest hrest)⟩
    | ok a =>
      rw [bind_of_ok hstep] at h
      obtain ⟨back, hback, hlocal'⟩ := hnext a r hstep h
      refine ⟨front ++ back, hfront.trans hback, ?_⟩
      intro rest hrest
      -- what the second step passes starts with the token that the first one has looked at
      have hhead : (back ++ rest).head? = r.rest.head? := by
        rw [hback.rest_eq, List.head?_append, List.head?_append, hrest]
      rw [List.append_assoc, bind_of_ok (hlocal _ hhead)]
      exact hlocal' rest hrest

/-- A step that does what another one does wherever the next token is the same. -/
theorem Predictive.of_peek {step other : Parse α} (h : Predictive other p)
    (hsame : ∀ r : Parser, r.peek = p.peek → step r = other r) : Predictive step p := by
  intro result q hstep
  rw [hsame p rfl] at hstep
  obtain ⟨front, hfront, hlocal⟩ := h hstep
  refine ⟨front, hfront, ?_⟩
  intro rest hrest
  have hpeek : Parser.peek ⟨p.index, front ++ rest⟩ = p.peek := by
    rw [peek, peek, hfront.rest_eq, List.head?_append, List.head?_append, hrest]
  rw [hsame _ hpeek]
  exact hlocal rest hrest

/-- Taking a token looks at that token alone, provided that the end of the file is never taken. -/
theorem predictive_take {expected : Expected} {accept : Token → Option α}
    (hend : ∀ l, accept ⟨.endOfFile, l⟩ = none) : Predictive (take expected accept) p := by
  intro result q h
  obtain ⟨index, tokens⟩ := p
  cases tokens with
  | nil =>
    obtain ⟨rfl, rfl⟩ := Prod.mk.inj h
    refine ⟨[], .refl _, ?_⟩
    intro rest hrest
    rw [List.nil_append, List.head?_eq_none_iff.mp hrest]
    rfl
  | cons t tokens =>
    cases haccept : accept t with
    | none =>
      -- one step looks at the next token and nothing behind it
      have htake (others : List Token) : take expected accept ⟨index, t :: others⟩ =
          (.error (.unexpected ⟨expected, some t⟩), ⟨index, t :: others⟩) := by
        simp only [take, next, haccept, unexpected, peek, List.head?_cons]
      rw [htake] at h
      obtain ⟨rfl, rfl⟩ := Prod.mk.inj h
      refine ⟨[], .refl _, ?_⟩
      intro rest hrest
      obtain ⟨others, rfl⟩ := List.head?_eq_some_iff.mp hrest
      exact htake others
    | some a =>
      have htake (others : List Token) : take expected accept ⟨index, t :: others⟩ =
          (.ok a, ⟨index + 1, others⟩) := by
        simp only [take, next, haccept]
      rw [htake] at h
      obtain ⟨rfl, rfl⟩ := Prod.mk.inj h
      refine ⟨[t], ⟨rfl, rfl, .singleton ?_⟩, fun rest _ => htake rest⟩
      intro hkind
      rw [Token.eq_of_kind .endOfFile hkind (by decide), hend] at haccept
      cases haccept

/-! ## The steps of the grammar -/

/-- Which operator or delimiter a parser is at is a matter of the next token. -/
theorem atPunctuation_congr (h : q.peek = p.peek) (x : Punctuation) :
    q.atPunctuation x = p.atPunctuation x := by
  rw [atPunctuation, atPunctuation, peekKind, peekKind, h]

/-- Which keyword a parser is at is a matter of the next token. -/
theorem atKeyword_congr (h : q.peek = p.peek) (k : Keyword) :
    q.atKeyword k = p.atKeyword k := by
  rw [atKeyword, atKeyword, peekKind, peekKind, h]

/-- Whether only the end of the file is left is a matter of the next token. -/
theorem isExhausted_congr (h : q.peek = p.peek) : q.isExhausted = p.isExhausted := by
  rw [isExhausted, isExhausted, peekKind, peekKind, h]

/-- Whether a keyword is taken is settled by the next token. -/
theorem predictive_keyword (k : Keyword) : Predictive (keyword k) p :=
  predictive_take fun _ => rfl

/-- Whether an identifier is taken is settled by the next token. -/
theorem predictive_identifier : Predictive identifier p :=
  predictive_take fun _ => rfl

/-- Whether an operator or delimiter is taken is settled by the next token. -/
theorem predictive_punctuation (x : Punctuation) : Predictive (punctuation x) p :=
  predictive_take fun _ => rfl

/-- Whether a string literal is taken is settled by the next token. -/
theorem predictive_stringLiteral : Predictive stringLiteral p :=
  predictive_take fun _ => rfl

/-- A terminator is a semicolon or the end of the file, which the next token tells apart. -/
theorem predictive_terminator : Predictive terminator p := by
  by_cases hend : p.isExhausted = true
  · refine (predictive_pure none).of_peek ?_
    intro r hpeek
    rw [terminator, if_pos ((isExhausted_congr hpeek).trans hend)]
    rfl
  · refine Predictive.of_peek ?_ fun r hpeek =>
      if_neg (by rwa [isExhausted_congr hpeek])
    exact predictive_take fun _ => rfl

/-- A spec has no name if its path is next, so the next token tells whether to read one. -/
theorem predictive_importName : Predictive importName p := by
  by_cases hpath : ∃ path : StringLiteral, p.peek = some path.token
  · obtain ⟨path, hpath⟩ := hpath
    refine (predictive_pure none).of_peek ?_
    intro r hpeek
    rw [importName, hpeek, hpath]
    rfl
  · refine Predictive.of_peek ?_ fun r hpeek => by
      unfold importName
      split
      · rename_i form lexeme hpath'
        exact absurd ⟨⟨form, lexeme⟩, hpeek.symm.trans hpath'⟩ hpath
      · rfl
    exact predictive_take fun _ => rfl

/-- A spec is its name and its path, and each of them looks at one token. -/
theorem predictive_importSpec : Predictive importSpec p :=
  predictive_importName.bind fun _ _ _ =>
    predictive_stringLiteral.bind fun _ _ _ => predictive_pure _

/-- A separator may be missing if the closing parenthesis is next, which one token tells. -/
theorem predictive_separator : Predictive separator p := by
  by_cases hclosing : p.atPunctuation .rightParen = true
  · refine (predictive_pure ()).of_peek ?_
    intro r hpeek
    rw [separator_eq, if_pos ((atPunctuation_congr hpeek _).trans hclosing)]
  · refine ((predictive_punctuation .semicolon).bind fun _ _ _ => predictive_pure ()).of_peek ?_
    intro r hpeek
    rw [separator_eq, if_neg (by rwa [atPunctuation_congr hpeek])]

/-- A spec of a group and its separator look ahead no further than they do apart. -/
theorem predictive_groupItem : Predictive groupItem p :=
  predictive_importSpec.bind fun _ _ _ =>
    predictive_separator.bind fun _ _ _ => predictive_pure _

/-- Reading the specs of a group looks ahead no further than reading one of them. -/
theorem predictive_groupRest (p : Parser) : Predictive groupRest p := by
  by_cases hclosing : p.atPunctuation .rightParen = true
  · refine ((predictive_punctuation .rightParen).bind fun closing _ _ =>
      predictive_pure ([], closing)).of_peek ?_
    intro r hpeek
    rw [groupRest_eq, if_pos ((atPunctuation_congr hpeek _).trans hclosing)]
  · refine (predictive_groupItem.bind fun spec q hitem =>
      (predictive_groupRest q).bind fun others _ _ =>
        predictive_pure (spec :: others.1, others.2)).of_peek ?_
    intro r hpeek
    rw [groupRest_eq, if_neg (by rwa [atPunctuation_congr hpeek])]
termination_by p.rest.length
decreasing_by exact progresses_groupItem hitem

/-- An opening parenthesis that is next tells a group from a single spec. -/
theorem predictive_importBody : Predictive importBody p := by
  by_cases hopening : p.atPunctuation .leftParen = true
  · refine ((predictive_punctuation .leftParen).bind fun opening q _ =>
      (predictive_groupRest q).bind fun others _ _ =>
        predictive_pure (ImportBody.group opening others.1 others.2)).of_peek ?_
    intro r hpeek
    rw [importBody, if_pos ((atPunctuation_congr hpeek _).trans hopening)]
  · refine (predictive_importSpec.bind fun spec _ _ =>
      predictive_pure (ImportBody.single spec)).of_peek ?_
    intro r hpeek
    rw [importBody, if_neg (by rwa [atPunctuation_congr hpeek])]

/-- A declaration looks ahead no further than its keyword, its body and its terminator. -/
theorem predictive_importDeclaration : Predictive importDeclaration p :=
  (predictive_keyword .kwImport).bind fun _ _ _ =>
    predictive_importBody.bind fun _ _ _ =>
      predictive_terminator.bind fun _ _ _ => predictive_pure _

/-- Reading the import declarations looks ahead no further than reading one of them. -/
theorem predictive_imports (p : Parser) : Predictive imports p := by
  by_cases hkeyword : p.atKeyword .kwImport = true
  · refine (predictive_importDeclaration.bind fun declaration q hdeclaration =>
      (predictive_imports q).bind fun others _ _ =>
        predictive_pure (declaration :: others)).of_peek ?_
    intro r hpeek
    rw [imports_eq, if_pos ((atKeyword_congr hpeek _).trans hkeyword)]
  · refine (predictive_pure []).of_peek ?_
    intro r hpeek
    rw [imports_eq, if_neg (by rwa [atKeyword_congr hpeek])]
termination_by p.rest.length
decreasing_by exact progresses_importDeclaration hdeclaration

/-- That the name of a package may not be blank concerns a token that is passed already, so the
clause looks ahead no further than its parts. -/
theorem predictive_packageClause : Predictive packageClause p := by
  refine (predictive_keyword .kwPackage).bind fun keyword _ _ =>
    predictive_identifier.bind fun name _ _ => ?_
  by_cases hblank : name.text = blankIdentifier
  · simp only [if_pos hblank]
    exact predictive_fail _
  · simp only [if_neg hblank]
    exact predictive_terminator.bind fun _ _ _ => predictive_pure _

/-- Reading the head of a program looks ahead by one token. -/
theorem predictive_program : Predictive program p :=
  predictive_packageClause.bind fun _ _ _ =>
    (predictive_imports _).bind fun _ _ _ => predictive_pure _

end Parser

end Frontend
