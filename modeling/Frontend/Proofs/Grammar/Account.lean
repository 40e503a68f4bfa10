import Frontend.Proofs.Grammar.Operations

/-!
# No token is lost

Whatever operations a parser performs, in whatever order and be they successful or not, it accounts
for its tokens. An operation for a single token either passes the next token and returns it, or
leaves the parser where it is, so what a sequence of them returns are the tokens between the places
where it starts and ends. An operation made of others can fail after some tokens, but the token that
it then names is the one it has stopped at.
-/

namespace Frontend

namespace Parser

variable {α β : Type} {p q r : Parser} {tokens front back : List Token}

/-! ## Errors name the next token -/

/-- If a token does not fit, it is the next one of the parser that is left. -/
def Blames (outcome : Except SyntaxError α × Parser) : Prop :=
  ∀ u, outcome.1 = .error (.unexpected u) → u.found = outcome.2.peek

/-- A step that succeeds blames no token. -/
theorem blames_ok (a : α) (q : Parser) : Blames (.ok a, q) := by
  intro u h
  exact nomatch h

/-- That an argument is not allowed is no error about a token that does not fit. -/
theorem blames_fail (a : InvalidArgument) (p : Parser) :
    Blames ((Parse.fail (.invalid a) : Parse α) p) := by
  intro u h
  exact nomatch h

/-- Two steps in a row stop where one of them stops, and name the token that it names. -/
theorem Blames.bind {first : Parse α} {next : α → Parse β} (hfirst : Blames (first p))
    (hnext : ∀ a q, first p = (.ok a, q) → Blames (next a q)) :
    Blames (Parse.bind first next p) := by
  cases hstep : first p with
  | mk outcome q =>
    rw [hstep] at hfirst
    cases outcome with
    | ok a =>
      rw [bind_of_ok hstep]
      exact hnext a q hstep
    | error e =>
      rw [bind_of_error hstep]
      intro u h
      exact hfirst u (congrArg Except.error (Except.error.inj h))

/-- Changing the value of a step changes nothing about its errors. -/
theorem Blames.map {outcome : Except SyntaxError α × Parser} (h : Blames outcome) (f : α → β) :
    Blames (outcome.map (Except.map f) id) := by
  obtain ⟨a | e, q⟩ := outcome
  · intro u hu
    exact h u (congrArg Except.error (Except.error.inj hu))
  · exact blames_ok _ _

/-- A token that does not fit is named and left where it is. -/
theorem blames_take (expected : Expected) (accept : Token → Option α) (p : Parser) :
    Blames (take expected accept p) := by
  cases hstep : take expected accept p with
  | mk outcome q =>
    cases outcome with
    | ok a => exact blames_ok a q
    | error e =>
      obtain ⟨rfl, rfl⟩ := take_eq_error hstep
      intro u h
      obtain rfl := SyntaxError.unexpected.inj (Except.error.inj h)
      rfl

/-- A missing terminator names the token in its place. -/
theorem blames_terminator (p : Parser) : Blames p.terminator := by
  unfold terminator
  split
  · exact blames_ok none p
  · exact blames_take _ _ p

/-- A spec names the token at which its name or its path has stopped. -/
theorem blames_importSpec (p : Parser) : Blames p.importSpec := by
  have hname : Blames p.importName := by
    unfold importName
    split
    · exact blames_ok none p
    · exact blames_take _ _ p
  exact hname.bind fun _ q _ => (blames_take _ _ q).bind fun _ _ _ => blames_ok _ _

/-- A spec of a group names the token at which the spec or its separator has stopped. -/
theorem blames_groupItem (p : Parser) : Blames p.groupItem := by
  have hseparator (q : Parser) : Blames q.separator := by
    rw [separator_eq]
    split
    · exact blames_ok () q
    · exact (blames_take _ _ q).bind fun _ _ _ => blames_ok () _
  exact (blames_importSpec p).bind fun _ q _ => (hseparator q).bind fun _ _ _ => blames_ok _ _

/-- A group names the token at which one of its specs has stopped. -/
theorem blames_groupRest (p : Parser) : Blames p.groupRest := by
  rw [groupRest_eq]
  split
  · exact (blames_take _ _ p).bind fun _ _ _ => blames_ok _ _
  · exact (blames_groupItem p).bind fun _ q hitem =>
      (blames_groupRest q).bind fun _ _ _ => blames_ok _ _
termination_by p.rest.length
decreasing_by exact progresses_groupItem hitem

/-- A declaration names the token at which one of its parts has stopped. -/
theorem blames_importDeclaration (p : Parser) : Blames p.importDeclaration := by
  have hbody (q : Parser) : Blames q.importBody := by
    unfold importBody
    split
    · exact (blames_take _ _ q).bind fun _ r _ =>
        (blames_groupRest r).bind fun _ _ _ => blames_ok _ _
    · exact (blames_importSpec q).bind fun _ _ _ => blames_ok _ _
  exact (blames_take _ _ p).bind fun _ q _ => (hbody q).bind fun _ r _ =>
    (blames_terminator r).bind fun _ _ _ => blames_ok _ _

/-- The import declarations name the token at which one of them has stopped. -/
theorem blames_imports (p : Parser) : Blames p.imports := by
  rw [imports_eq]
  split
  · exact (blames_importDeclaration p).bind fun _ q hdeclaration =>
      (blames_imports q).bind fun _ _ _ => blames_ok _ _
  · exact blames_ok [] p
termination_by p.rest.length
decreasing_by exact progresses_importDeclaration hdeclaration

/-- A package clause names the token at which it has stopped, unless it is the blank name that is
wrong. -/
theorem blames_packageClause (p : Parser) : Blames p.packageClause := by
  refine (blames_take _ _ p).bind fun _ q _ => (blames_take _ _ q).bind fun name r _ => ?_
  split
  · exact blames_fail _ r
  · exact (blames_terminator r).bind fun _ _ _ => blames_ok _ _

/-- A program names the token at which it has stopped. -/
theorem blames_program (p : Parser) : Blames p.program :=
  (blames_packageClause p).bind fun _ q _ => (blames_imports q).bind fun _ _ _ => blames_ok _ _

/-! ## What operations return -/

namespace Operation

/-- What an operation returns, as tokens, and where it leaves the parser. Of a node they are its
leaves. -/
def perform (p : Parser) : Operation → Except SyntaxError (List Token) × Parser
  | next => (.ok p.next.1.toList, p.next.2)
  | eat kind => (p.eat kind).map (Except.map fun t => [t]) id
  | keyword k => (p.keyword k).map (Except.map fun l => [⟨.keyword k, l⟩]) id
  | identifier => p.identifier.map (Except.map fun l => [⟨.identifier, l⟩]) id
  | punctuation x => (p.punctuation x).map (Except.map fun l => [⟨.punctuation x, l⟩]) id
  | stringLiteral => p.stringLiteral.map (Except.map fun s => [s.token]) id
  | terminator => p.terminator.map (Except.map terminatorLeaves) id
  | importSpec => p.importSpec.map (Except.map ImportSpec.leaves) id
  | importDeclaration => p.importDeclaration.map (Except.map ImportDeclaration.leaves) id
  | packageClause => p.packageClause.map (Except.map PackageClause.leaves) id
  | program => p.program.map (Except.map Program.leaves) id

/-- Whether the operation is for a single token. -/
def isSingle : Operation → Bool
  | importSpec | importDeclaration | packageClause | program => false
  | _ => true

/-- The kind of the tokens that an operation reads, if it reads those of one kind only. -/
def kind? : Operation → Option TokenKind
  | keyword k => some (.keyword k)
  | identifier => some .identifier
  | punctuation x => some (.punctuation x)
  | stringLiteral => some .string
  | _ => none

/-- Where an operation succeeds without a token: behind the last one there is no next, and at the
end of the file a terminator may be missing. -/
def Idle (p : Parser) : Operation → Prop
  | next => p.rest = []
  | terminator => AtEnd p.rest
  | _ => False

/-- What an operation returns has no part in where it leaves the parser. -/
theorem perform_snd (operation : Operation) : (operation.perform p).2 = operation.run p := by
  cases operation <;> rfl

/-- Every operation names the token that it has stopped at. -/
theorem blames_perform (operation : Operation) (p : Parser) : Blames (operation.perform p) := by
  cases operation with
  | next => exact blames_ok _ _
  | eat kind => exact (blames_take _ _ p).map _
  | keyword k => exact (blames_take _ _ p).map _
  | identifier => exact (blames_take _ _ p).map _
  | punctuation x => exact (blames_take _ _ p).map _
  | stringLiteral => exact (blames_take _ _ p).map _
  | terminator => exact (blames_terminator p).map _
  | importSpec => exact (blames_importSpec p).map _
  | importDeclaration => exact (blames_importDeclaration p).map _
  | packageClause => exact (blames_packageClause p).map _
  | program => exact (blames_program p).map _

end Operation

/-- Taking a token by what it is comes to the same as taking it by its kind, if the tokens of the
kind are those that stand for a value. -/
theorem take_map_eq_eat (kind : TokenKind) {accept : Token → Option α} (token : α → Token)
    (haccept : ∀ t a, accept t = some a ↔ t = token a)
    (hkind : ∀ t : Token, t.kind = kind ↔ ∃ a, t = token a) (p : Parser) :
    (take (.ofKind kind) accept p).map (Except.map fun a => [token a]) id =
      (Operation.eat kind).perform p := by
  obtain ⟨index, rest⟩ := p
  cases rest with
  | nil => rfl
  | cons t rest =>
    simp only [Operation.perform, eat, take, next]
    cases ht : accept t with
    | some a =>
      obtain rfl := (haccept t a).mp ht
      rw [if_pos ((hkind _).mpr ⟨a, rfl⟩)]
      rfl
    | none =>
      have hne : t.kind ≠ kind := by
        intro h
        obtain ⟨a, rfl⟩ := (hkind t).mp h
        cases ht.symm.trans ((haccept _ a).mpr rfl)
      rw [if_neg hne]
      rfl

namespace Operation

/-- The operations that read tokens of one kind do what `eat` does for the kind. -/
theorem perform_eq_eat {operation : Operation} {kind : TokenKind}
    (h : operation.kind? = some kind) (p : Parser) :
    operation.perform p = (eat kind).perform p := by
  cases operation with
  | keyword k =>
    obtain rfl := Option.some.inj h
    refine take_map_eq_eat (.keyword k) (fun l => ⟨.keyword k, l⟩) ?_
      (Token.kind_eq_iff (.keyword k) (by simp [TokenClass.kind])) p
    rintro ⟨cls, lexeme⟩ a
    cases cls <;> simp
  | identifier =>
    obtain rfl := Option.some.inj h
    refine take_map_eq_eat .identifier (fun l => ⟨.identifier, l⟩) ?_
      (Token.kind_eq_iff .identifier (by decide)) p
    rintro ⟨cls, lexeme⟩ a
    cases cls <;> simp
  | punctuation x =>
    obtain rfl := Option.some.inj h
    refine take_map_eq_eat (.punctuation x) (fun l => ⟨.punctuation x, l⟩) ?_
      (Token.kind_eq_iff (.punctuation x) (by simp [TokenClass.kind])) p
    rintro ⟨cls, lexeme⟩ a
    cases cls <;> simp
  | stringLiteral =>
    obtain rfl := Option.some.inj h
    refine take_map_eq_eat .string StringLiteral.token ?_ (fun t => ⟨?_, ?_⟩) p
    · rintro ⟨cls, lexeme⟩ ⟨form, lexeme'⟩
      cases cls <;> simp [StringLiteral.token]
    · exact Token.exists_of_kind_string
    · rintro ⟨s, rfl⟩
      rfl
  | _ => cases h

/-- The operation returns something. -/
def Succeeds (p : Parser) (operation : Operation) : Prop :=
  ∃ returned q, operation.perform p = (.ok returned, q)

/-- A token is eaten exactly where one of the kind is next. -/
theorem succeeds_eat_iff {kind : TokenKind} :
    (eat kind).Succeeds p ↔ p.peekKind = some kind := by
  obtain ⟨index, rest⟩ := p
  cases rest with
  | nil =>
    constructor
    · rintro ⟨returned, q, h⟩
      exact nomatch h
    · intro h
      exact nomatch h
  | cons t rest =>
    by_cases hkind : t.kind = kind
    · simp [Succeeds, perform, Parser.eat, take, Parser.next, peekKind, peek, hkind, Except.map]
    · simp [Succeeds, perform, Parser.eat, take, Parser.next, peekKind, peek, hkind, Except.map]

/-- What reads tokens of one kind succeeds exactly where one of the kind is next. -/
theorem succeeds_iff {operation : Operation} {kind : TokenKind}
    (h : operation.kind? = some kind) : operation.Succeeds p ↔ p.peekKind = some kind := by
  rw [← succeeds_eat_iff, Succeeds, perform_eq_eat h, Succeeds]

/-- What comes of an operation for a single token: it passes the next token and returns it, or it
leaves the parser where it is, be it that no token is needed or that none fits. -/
inductive Outcome (p : Parser) (operation : Operation) :
    Except SyntaxError (List Token) × Parser → Prop
  | token {t : Token} {q : Parser} (h : p.Passes [t] q) : Outcome p operation (.ok [t], q)
  | idle (h : operation.Idle p) : Outcome p operation (.ok [], p)
  | failed (e : SyntaxError) : Outcome p operation (.error e, p)

/-- A token that is taken is the one that is returned. -/
theorem outcome_take {operation : Operation} {expected : Expected} {accept : Token → Option α}
    {leaves : α → List Token} (haccept : ∀ t a, accept t = some a → leaves a = [t]) (p : Parser) :
    Outcome p operation ((take expected accept p).map (Except.map leaves) id) := by
  obtain ⟨index, rest⟩ := p
  cases rest with
  | nil => exact .failed _
  | cons t rest =>
    simp only [take, Parser.next]
    cases ht : accept t with
    | none => exact .failed _
    | some a =>
      simp only [Prod.map, Except.map, haccept t a ht]
      exact .token ⟨rfl, rfl⟩

/-- A token that is eaten is returned and passed, and otherwise the parser stays where it is,
whichever operation the eating stands for. -/
theorem outcome_eat (operation : Operation) (kind : TokenKind) (p : Parser) :
    Outcome p operation ((eat kind).perform p) := by
  refine outcome_take ?_ p
  intro t a h
  split at h
  · rw [Option.some.inj h]
  · exact nomatch h

/-- A terminator is returned and passed, or missing at the end of the file, or the parser stays
where it is. -/
theorem outcome_terminator (p : Parser) : Outcome p terminator (terminator.perform p) := by
  simp only [perform, Parser.terminator]
  split
  · rename_i hend
    exact .idle (isExhausted_iff.mp hend)
  · refine outcome_take ?_ p
    rintro ⟨cls, lexeme⟩ a h
    split at h
    · rename_i hcls
      obtain rfl : cls = .punctuation .semicolon := hcls
      rw [← Option.some.inj h]
      rfl
    · cases h

/-- An operation for a single token passes and returns the next one, or leaves the parser where it
is. -/
theorem outcome_perform {operation : Operation} (h : operation.isSingle = true) (p : Parser) :
    Outcome p operation (operation.perform p) := by
  cases operation with
  | next =>
    obtain ⟨index, rest⟩ := p
    cases rest with
    | nil => exact .idle rfl
    | cons t rest => exact .token ⟨rfl, rfl⟩
  | eat kind => exact outcome_eat _ kind p
  | terminator => exact outcome_terminator p
  | keyword k =>
    rw [perform_eq_eat rfl]
    exact outcome_eat _ _ p
  | identifier =>
    rw [perform_eq_eat rfl]
    exact outcome_eat _ _ p
  | punctuation x =>
    rw [perform_eq_eat rfl]
    exact outcome_eat _ _ p
  | stringLiteral =>
    rw [perform_eq_eat rfl]
    exact outcome_eat _ _ p
  | _ => cases h

/-- One that succeeds returns the token that it passes, or needs none. -/
theorem returned_of_ok {operation : Operation} {returned : List Token}
    (hsingle : operation.isSingle = true) (h : operation.perform p = (.ok returned, q)) :
    (∃ t, returned = [t] ∧ p.Passes [t] q) ∨ returned = [] ∧ q = p ∧ operation.Idle p := by
  have houtcome := outcome_perform hsingle p
  rw [h] at houtcome
  cases houtcome with
  | token hpasses => exact .inl ⟨_, rfl, hpasses⟩
  | idle hidle => exact .inr ⟨rfl, rfl, hidle⟩

/-- One that fails leaves the parser where it is. -/
theorem eq_of_error {operation : Operation} {e : SyntaxError}
    (hsingle : operation.isSingle = true) (h : operation.perform p = (.error e, q)) : q = p := by
  have houtcome := outcome_perform hsingle p
  rw [h] at houtcome
  cases houtcome with
  | failed => rfl

end Operation

/-! ## Sequences of operations -/

/-- The tokens that operations return one after another, and where they leave the parser. One that
fails returns none, and the next one goes on where it has stopped. -/
def performAll (p : Parser) : List Operation → List Token × Parser
  | [] => ([], p)
  | operation :: operations =>
    let outcome := operation.perform p
    let later := performAll outcome.2 operations
    (outcome.1.toOption.getD [] ++ later.1, later.2)

section Index

variable (h : (ofTokens tokens).Passes front p)

include h

/-- From the start of a list of tokens, the index is the number of those that were passed. -/
theorem Passes.index_eq_length : p.index = front.length :=
  h.index_eq.trans (Nat.zero_add _)

/-- The index does not go past the tokens. -/
theorem Passes.index_le : p.index ≤ tokens.length := by
  have htokens : tokens = front ++ p.rest := h.rest_eq
  rw [h.index_eq_length, htokens, List.length_append]
  exact Nat.le_add_right _ _

/-- What is left are the tokens from the index on. -/
theorem Passes.drop_index : tokens.drop p.index = p.rest := by
  have htokens : tokens = front ++ p.rest := h.rest_eq
  rw [h.index_eq_length, htokens, List.drop_left]

/-- The next token is the one at the index. -/
theorem Passes.getElem?_index : tokens[p.index]? = p.peek := by
  rw [peek, ← h.drop_index, List.head?_drop]

end Index

/-- Operations pass some of the tokens that are left. -/
theorem exists_passes_performAll (p : Parser) (operations : List Operation) :
    ∃ front, p.Passes front (p.performAll operations).2 := by
  induction operations generalizing p with
  | nil => exact ⟨[], .refl p⟩
  | cons operation operations ih =>
    obtain ⟨front, hfront⟩ := operation.exists_passes p
    obtain ⟨back, hback⟩ := ih (operation.perform p).2
    rw [← operation.perform_snd] at hfront
    exact ⟨front ++ back, hfront.trans hback⟩

/-- An operation for a single token returns what it passes. -/
theorem passes_perform {operation : Operation} (h : operation.isSingle = true) (p : Parser) :
    p.Passes ((operation.perform p).1.toOption.getD []) (operation.perform p).2 := by
  have houtcome := Operation.outcome_perform h p
  generalize operation.perform p = outcome at houtcome ⊢
  cases houtcome with
  | token hpasses => exact hpasses
  | idle hidle => exact .refl p
  | failed e => exact .refl p

/-- Operations for single tokens return what they pass, in order. -/
theorem passes_performAll (p : Parser) {operations : List Operation}
    (h : ∀ operation ∈ operations, operation.isSingle = true) :
    p.Passes (p.performAll operations).1 (p.performAll operations).2 := by
  induction operations generalizing p with
  | nil => exact .refl p
  | cons operation operations ih =>
    have hfirst := passes_perform (h operation List.mem_cons_self) p
    exact hfirst.trans (ih _ fun later hlater => h later (List.mem_cons_of_mem _ hlater))

/-- What fails returns nothing and loses nothing: the keyword is read after an identifier was not
found in its place, and the end of the file is still there after a terminator was missing. -/
example (word name : Lexeme) :
    (ofTokens [⟨.keyword .kwPackage, word⟩, ⟨.identifier, name⟩, endOfFile 9]).performAll
        [.identifier, .keyword .kwPackage, .eat .identifier, .terminator, .next, .terminator] =
      ([⟨.keyword .kwPackage, word⟩, ⟨.identifier, name⟩, endOfFile 9], ⟨3, []⟩) := by
  rfl

/-- A parser at a place in a list of tokens accounts for every one of them, whatever is done with
it. -/
structure Account (tokens : List Token) (p : Parser) : Prop where
  /-- No operations go back, or beyond the tokens. -/
  forward (operations : List Operation) : p.index ≤ (p.performAll operations).2.index ∧
    (p.performAll operations).2.index ≤ tokens.length
  /-- What operations for single tokens return are the tokens from one place to the other. -/
  complete (operations : List Operation)
    (h : ∀ operation ∈ operations, operation.isSingle = true) :
    tokens.drop p.index =
      (p.performAll operations).1 ++ tokens.drop (p.performAll operations).2.index
  /-- One of them that succeeds returns the token at the index, or needs none. -/
  returns {operation : Operation} {returned : List Token} {q : Parser}
    (hsingle : operation.isSingle = true) (h : operation.perform p = (.ok returned, q)) :
    (∃ t, tokens[p.index]? = some t ∧ returned = [t] ∧ q.index = p.index + 1) ∨
      returned = [] ∧ q = p ∧ operation.Idle p
  /-- At the end of the file, and after it, a terminator is missing. -/
  terminates (h : ∀ t, tokens[p.index]? = some t → t.kind = .endOfFile) :
    p.terminator = (.ok none, p)
  /-- One of them that fails leaves the parser where it is. -/
  stays {operation : Operation} {e : SyntaxError} {q : Parser}
    (hsingle : operation.isSingle = true) (h : operation.perform p = (.error e, q)) : q = p
  /-- A token that does not fit is the one at the index where the parser is left. -/
  blames {operation : Operation} {u : UnexpectedToken} {q : Parser}
    (h : operation.perform p = (.error (.unexpected u), q)) :
    u.found = tokens[q.index]? ∧ (u.found = none ↔ tokens.length ≤ q.index)
  /-- A token is eaten exactly if it is of the kind. -/
  eats (kind : TokenKind) :
    (Operation.eat kind).Succeeds p ↔ tokens[p.index]?.map Token.kind = some kind
  /-- The operations that read tokens of one kind do what `eat` does for the kind. -/
  agrees {operation : Operation} {kind : TokenKind} (h : operation.kind? = some kind) :
    operation.perform p = (Operation.eat kind).perform p
  /-- The parser is at a keyword exactly if it can be read. -/
  atKeyword_iff (k : Keyword) : p.atKeyword k = true ↔ (Operation.keyword k).Succeeds p
  /-- It is at an operator or delimiter exactly if it can be read. -/
  atPunctuation_iff (x : Punctuation) :
    p.atPunctuation x = true ↔ (Operation.punctuation x).Succeeds p

/-- A parser behind some of the tokens accounts for all of them. -/
theorem Passes.account (h : (ofTokens tokens).Passes front p) : Account tokens p where
  forward operations := by
    obtain ⟨back, hback⟩ := exists_passes_performAll p operations
    refine ⟨?_, (h.trans hback).index_le⟩
    rw [hback.index_eq]
    exact Nat.le_add_right _ _
  complete operations hsingle := by
    have hback := passes_performAll p hsingle
    rw [h.drop_index, (h.trans hback).drop_index]
    exact hback.rest_eq
  returns hsingle hperform := by
    rcases Operation.returned_of_ok hsingle hperform with ⟨t, ht, hpasses⟩ | hidle
    · refine .inl ⟨t, ?_, ht, hpasses.index_eq⟩
      rw [h.getElem?_index]
      exact peek_of_rest hpasses.rest_eq
    · exact .inr hidle
  terminates hend := by
    rw [h.getElem?_index] at hend
    rw [terminator, if_pos (isExhausted_iff.mpr hend)]
  stays hsingle hperform := Operation.eq_of_error hsingle hperform
  blames := by
    intro operation u q hperform
    -- the operation may have passed tokens before the one that it stops at
    obtain ⟨back, hback⟩ := operation.exists_passes p
    have hblames := operation.blames_perform p
    rw [← operation.perform_snd, hperform] at hback
    rw [hperform] at hblames
    have hfound : u.found = tokens[q.index]? := by
      rw [(h.trans hback).getElem?_index]
      exact hblames u rfl
    refine ⟨hfound, ?_⟩
    rw [hfound, List.getElem?_eq_none_iff]
  eats kind := by
    rw [Operation.succeeds_eat_iff, peekKind, h.getElem?_index]
  agrees hkind := Operation.perform_eq_eat hkind p
  atKeyword_iff k := by
    rw [Operation.succeeds_iff rfl, atKeyword, decide_eq_true_iff]
  atPunctuation_iff x := by
    rw [Operation.succeeds_iff rfl, atPunctuation, decide_eq_true_iff]

/-- **A parser never skips, repeats or loses a token.** After any operations on the tokens, it
accounts for all of them, whatever comes next. -/
theorem accountsFor (tokens : List Token) (operations : List Operation) :
    Account tokens ((ofTokens tokens).performAll operations).2 := by
  obtain ⟨passed, hpassed⟩ := exists_passes_performAll (ofTokens tokens) operations
  exact hpassed.account

end Parser

end Frontend
