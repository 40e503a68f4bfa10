import Frontend.Grammar.Program

/-!
# What parse steps consume

`Parser.Advances` says that one parser is another after some tokens, none of which is the end of the
file. A step for a single token succeeds exactly where it advances over that token, and otherwise it
fails where it stands; what a step made of others does follows from its parts. The two loops of the
grammar are brought into the same form, so that they are made of others too.
-/

namespace Frontend

/-- The end of the file is not among the tokens. -/
def Inside (tokens : List Token) : Prop :=
  ∀ t ∈ tokens, t.kind ≠ .endOfFile

/-- Among no tokens there is no end of the file. -/
theorem Inside.nil : Inside [] :=
  fun _ h => absurd h List.not_mem_nil

/-- Two lists of tokens without the end of the file make one without it. -/
theorem Inside.append {a b : List Token} (ha : Inside a) (hb : Inside b) : Inside (a ++ b) := by
  intro t ht
  rcases List.mem_append.mp ht with ht | ht
  · exact ha t ht
  · exact hb t ht

/-- A token other than the end of the file may be put in front. -/
theorem Inside.cons {t : Token} {tokens : List Token} (ht : t.kind ≠ .endOfFile)
    (h : Inside tokens) : Inside (t :: tokens) := by
  intro x hx
  rcases List.mem_cons.mp hx with rfl | hx
  · exact ht
  · exact h x hx

/-- A single token is inside the file if it is not the end of the file. -/
theorem Inside.singleton {t : Token} (h : t.kind ≠ .endOfFile) : Inside [t] :=
  .cons h .nil

/-- Tokens whose last one is the end of the file, which is not among the others. -/
def Closed (tokens : List Token) : Prop :=
  ∃ front last, tokens = front ++ [last] ∧ last.kind = .endOfFile ∧ Inside front

/-- A place in closed tokens that is not after all of them is after tokens of the file only. -/
theorem Closed.inside_take {tokens : List Token} {n : Nat} (h : Closed tokens)
    (hn : n < tokens.length) : Inside (tokens.take n) := by
  obtain ⟨front, last, rfl, -, hfront⟩ := h
  have hle : n ≤ front.length := by
    rw [List.length_append, List.length_singleton] at hn
    omega
  rw [List.take_append_of_le_length hle]
  exact fun t ht => hfront t (List.mem_of_mem_take ht)

/-- After tokens of the file only, closed tokens are left. -/
theorem Closed.exists_cons {front rest : List Token} (h : Closed (front ++ rest))
    (hfront : Inside front) : ∃ next others, rest = next :: others := by
  cases rest with
  | nil =>
    obtain ⟨front', last, htokens, hlast, -⟩ := h
    rw [List.append_nil] at htokens
    exact absurd hlast (hfront last (by simp [htokens]))
  | cons next others => exact ⟨next, others, rfl⟩

/-- The token that a string literal is. -/
def StringLiteral.token (s : StringLiteral) : Token :=
  ⟨.stringLiteral s.form, s.lexeme⟩

/-- The token that the name of an import is. -/
def ImportName.token : ImportName → Token
  | dot point => ⟨.punctuation .period, point⟩
  | identifier word => ⟨.identifier, word⟩

/-- The kinds that have only one class tell it. -/
theorem TokenClass.eq_of_kind {c d : TokenClass} (h : c.kind = d.kind)
    (hd : d.kind ∉ [.string, .comment, .illegal]) : c = d := by
  unfold kind at h hd
  split at h <;> split at h <;> simp_all

/-- A token of a kind that has only one class is of that class. -/
theorem Token.eq_of_kind {t : Token} (cls : TokenClass) (h : t.kind = cls.kind)
    (hcls : cls.kind ∉ [.string, .comment, .illegal]) : t = ⟨cls, t.lexeme⟩ := by
  rw [← TokenClass.eq_of_kind h hcls]

/-- The tokens of a kind that has only one class are those of the class. -/
theorem Token.kind_eq_iff (cls : TokenClass) (hcls : cls.kind ∉ [.string, .comment, .illegal])
    (t : Token) : t.kind = cls.kind ↔ ∃ l, t = ⟨cls, l⟩ := by
  constructor
  · intro h
    exact ⟨t.lexeme, Token.eq_of_kind cls h hcls⟩
  · rintro ⟨l, rfl⟩
    rfl

/-- A token of the kind of string literals is a string literal. -/
theorem Token.exists_of_kind_string {t : Token} (h : t.kind = .string) :
    ∃ s : StringLiteral, t = s.token := by
  obtain ⟨cls, lexeme⟩ := t
  unfold Token.kind TokenClass.kind at h
  split at h <;> try contradiction
  rename_i form hcls
  obtain rfl : cls = .stringLiteral form := hcls
  exact ⟨⟨form, lexeme⟩, rfl⟩

/-- The name of an import is not the end of the file, so a parser can advance over it. -/
theorem ImportName.kind_token_ne (n : ImportName) : n.token.kind ≠ .endOfFile := by
  cases n <;> nofun

namespace Parser

/-- The parser `q` is the parser `p` after some tokens, which do not reach the end of the file. -/
structure Advances (p : Parser) (front : List Token) (q : Parser) : Prop where
  rest_eq : p.rest = front ++ q.rest
  index_eq : q.index = p.index + front.length
  inside : Inside front

/-- Over no tokens a parser advances to where it stands. -/
theorem Advances.refl (p : Parser) : p.Advances [] p :=
  ⟨rfl, rfl, .nil⟩

/-- Over no tokens a parser stays where it is. -/
theorem Advances.eq_of_nil {p q : Parser} (h : p.Advances [] q) : q = p := by
  obtain ⟨index, rest⟩ := p
  obtain ⟨index', rest'⟩ := q
  obtain rfl : rest = rest' := h.rest_eq
  obtain rfl : index' = index := h.index_eq
  rfl

/-- Two advances in a row are one over the tokens of both. -/
theorem Advances.trans {p q r : Parser} {a b : List Token} (hp : p.Advances a q)
    (hq : q.Advances b r) : p.Advances (a ++ b) r := by
  refine ⟨?_, ?_, hp.inside.append hq.inside⟩
  · rw [hp.rest_eq, hq.rest_eq, List.append_assoc]
  · rw [hq.index_eq, hp.index_eq, List.length_append, Nat.add_assoc]

/-- Between two parsers there is only one list of tokens. -/
theorem Advances.unique {p q : Parser} {a b : List Token} (ha : p.Advances a q)
    (hb : p.Advances b q) : a = b :=
  List.append_cancel_right (ha.rest_eq.symm.trans hb.rest_eq)

/-- On its way over two lists of tokens a parser stands between them. -/
theorem Advances.split {p r : Parser} {a b : List Token} (h : p.Advances (a ++ b) r) :
    ∃ q, p.Advances a q ∧ q.Advances b r := by
  refine ⟨⟨p.index + a.length, b ++ r.rest⟩, ⟨?_, rfl, ?_⟩, ⟨rfl, ?_, ?_⟩⟩
  · rw [h.rest_eq, List.append_assoc]
  · exact fun t ht => h.inside t (List.mem_append_left _ ht)
  · rw [h.index_eq, List.length_append, Nat.add_assoc]
  · exact fun t ht => h.inside t (List.mem_append_right _ ht)

/-- On its way over a token and others a parser stands after the token. -/
theorem Advances.split_cons {p r : Parser} {t : Token} {front : List Token}
    (h : p.Advances (t :: front) r) : ∃ q, p.Advances [t] q ∧ q.Advances front r :=
  split (a := [t]) h

/-- The next token is the first of those that are left. -/
theorem peek_of_rest {p : Parser} {t : Token} {rest : List Token} (h : p.rest = t :: rest) :
    p.peek = some t := by
  rw [peek, h, List.head?_cons]

/-- The first of the tokens that a parser passes is the next one. -/
theorem Advances.peek_eq {p q : Parser} {t : Token} {front : List Token}
    (h : p.Advances (t :: front) q) : p.peek = some t :=
  peek_of_rest h.rest_eq

/-! From the start of a list of tokens, a parser stands where its index says. -/

section Index

variable {tokens front : List Token} {q : Parser}

/-- The index is the number of tokens passed. -/
theorem Advances.index_eq_length (h : (ofTokens tokens).Advances front q) :
    q.index = front.length :=
  h.index_eq.trans (Nat.zero_add _)

/-- The tokens up to the index are those that were passed. -/
theorem Advances.take_index (h : (ofTokens tokens).Advances front q) :
    tokens.take q.index = front := by
  have htokens : tokens = front ++ q.rest := h.rest_eq
  rw [htokens, h.index_eq_length, List.take_left]

/-- The tokens from the index on are those that are left. -/
theorem Advances.drop_index (h : (ofTokens tokens).Advances front q) :
    tokens.drop q.index = q.rest := by
  have htokens : tokens = front ++ q.rest := h.rest_eq
  rw [htokens, h.index_eq_length, List.drop_left]

/-- The token at the index is the next one. -/
theorem Advances.getElem?_index (h : (ofTokens tokens).Advances front q) :
    tokens[q.index]? = q.peek := by
  rw [peek, ← h.drop_index, List.head?_drop]

/-- Among closed tokens there is always a next one. -/
theorem Advances.exists_peek (h : (ofTokens tokens).Advances front q) (hclosed : Closed tokens) :
    ∃ next, q.peek = some next := by
  have htokens : tokens = front ++ q.rest := h.rest_eq
  rw [htokens] at hclosed
  obtain ⟨next, others, hrest⟩ := hclosed.exists_cons h.inside
  exact ⟨next, peek_of_rest hrest⟩

end Index

/-- Where the first of two steps succeeds, the second goes on from there. -/
theorem bind_of_ok {α β : Type} {first : Parse α} {next : α → Parse β} {p q : Parser} {a : α}
    (h : first p = (.ok a, q)) : Parse.bind first next p = next a q := by
  rw [Parse.bind, h]

/-- Where the first of two steps fails, both of them do. -/
theorem bind_of_error {α β : Type} {first : Parse α} {next : α → Parse β} {p q : Parser}
    {e : SyntaxError} (h : first p = (.error e, q)) : Parse.bind first next p = (.error e, q) := by
  rw [Parse.bind, h]

/-- A step that fails comes down to a failure of one of its parts. -/
theorem bind_eq_error {α β : Type} {first : Parse α} {next : α → Parse β} {p q : Parser}
    {e : SyntaxError} (h : Parse.bind first next p = (.error e, q)) :
    first p = (.error e, q) ∨ ∃ a r, first p = (.ok a, r) ∧ next a r = (.error e, q) := by
  unfold Parse.bind at h
  split at h
  · rename_i a r hfirst
    exact .inr ⟨a, r, hfirst, h⟩
  · rename_i e' r hfirst
    obtain ⟨he, rfl⟩ := Prod.mk.inj h
    obtain rfl := Except.error.inj he
    exact .inl hfirst

/-- A step that only gives a value gives that value and stays where it is. -/
theorem pure_eq_ok {α : Type} {a b : α} {p q : Parser} (h : Parse.pure a p = (.ok b, q)) :
    a = b ∧ p = q := by
  obtain ⟨hab, hpq⟩ := Prod.mk.inj h
  exact ⟨Except.ok.inj hab, hpq⟩

/-- A step whose value is changed is followed by a step that consumes nothing. -/
theorem map_eq_bind {α β : Type} (f : α → β) (step : Parse α) (p : Parser) :
    (step p).map (Except.map f) id = Parse.bind step (fun a => Parse.pure (f a)) p := by
  unfold Parse.bind
  rcases step p with ⟨e | a, q⟩ <;> rfl

section Take

variable {α : Type} {expected : Expected} {accept : Token → Option α} {p q : Parser}

/-- Where the accepted tokens are those that stand for a value, a token is taken exactly where one
of them is next. -/
theorem take_eq_ok_iff {β : Type} {f : β → α} {g : β → Token}
    (haccept : ∀ t a, accept t = some a ↔ ∃ b, f b = a ∧ t = g b)
    (hinside : ∀ b, (g b).kind ≠ .endOfFile) {a : α} :
    take expected accept p = (.ok a, q) ↔ ∃ b, f b = a ∧ p.Advances [g b] q := by
  constructor
  · intro h
    unfold take next at h
    cases hrest : p.rest with
    | nil => simp [hrest] at h
    | cons t rest =>
      simp only [hrest] at h
      split at h
      · simp at h
      · rename_i a' ht
        obtain ⟨ha, rfl⟩ := Prod.mk.inj h
        obtain rfl := Except.ok.inj ha
        obtain ⟨b, hb, rfl⟩ := (haccept t a').mp ht
        exact ⟨b, hb, hrest, rfl, .singleton (hinside b)⟩
  · rintro ⟨b, hb, hadvances⟩
    have ht : accept (g b) = some a := (haccept _ a).mpr ⟨b, hb, rfl⟩
    obtain ⟨index, rest⟩ := p
    obtain ⟨index', rest'⟩ := q
    obtain rfl : rest = g b :: rest' := hadvances.rest_eq
    obtain rfl : index' = index + 1 := hadvances.index_eq
    simp only [take, next, ht]

/-- Where no token is taken, none is consumed, and the next one does not fit. -/
theorem take_eq_error {e : SyntaxError} (h : take expected accept p = (.error e, q)) :
    q = p ∧ e = p.unexpected expected := by
  unfold take at h
  split at h
  · obtain ⟨he, rfl⟩ := Prod.mk.inj h
    exact ⟨rfl, (Except.error.inj he).symm⟩
  · split at h
    · obtain ⟨he, rfl⟩ := Prod.mk.inj h
      exact ⟨rfl, (Except.error.inj he).symm⟩
    · simp at h

/-- A token that is all of its value is taken exactly where it is next. -/
theorem take_eq_ok_iff_advances {g : α → Token}
    (haccept : ∀ t a, accept t = some a ↔ t = g a)
    (hinside : ∀ a, (g a).kind ≠ .endOfFile) {a : α} :
    take expected accept p = (.ok a, q) ↔ p.Advances [g a] q := by
  rw [take_eq_ok_iff (f := id) (by simpa using haccept) hinside]
  simp

end Take

variable {p q : Parser} {l : Lexeme}

/-- A keyword is read exactly where the parser can advance over it. -/
theorem keyword_eq_ok_iff {k : Keyword} :
    keyword k p = (.ok l, q) ↔ p.Advances [⟨.keyword k, l⟩] q := by
  refine take_eq_ok_iff_advances (g := fun l => ⟨.keyword k, l⟩) ?_ nofun
  rintro ⟨cls, lexeme⟩ a
  cases cls <;> simp

/-- An identifier is read exactly where the parser can advance over it. -/
theorem identifier_eq_ok_iff :
    identifier p = (.ok l, q) ↔ p.Advances [⟨.identifier, l⟩] q := by
  refine take_eq_ok_iff_advances (g := fun l => ⟨.identifier, l⟩) ?_ nofun
  rintro ⟨cls, lexeme⟩ a
  cases cls <;> simp

/-- An operator or delimiter is read exactly where the parser can advance over it. -/
theorem punctuation_eq_ok_iff {x : Punctuation} :
    punctuation x p = (.ok l, q) ↔ p.Advances [⟨.punctuation x, l⟩] q := by
  refine take_eq_ok_iff_advances (g := fun l => ⟨.punctuation x, l⟩) ?_ nofun
  rintro ⟨cls, lexeme⟩ a
  cases cls <;> simp

/-- A string literal is read exactly where the parser can advance over it. -/
theorem stringLiteral_eq_ok_iff {s : StringLiteral} :
    stringLiteral p = (.ok s, q) ↔ p.Advances [s.token] q := by
  refine take_eq_ok_iff_advances ?_ nofun
  rintro ⟨cls, lexeme⟩ ⟨form, lexeme'⟩
  cases cls <;> simp [StringLiteral.token]

/-- A separator as a step made of others: nothing before the closing parenthesis, and a semicolon
elsewhere. -/
theorem separator_eq (p : Parser) : separator p =
    if p.atPunctuation .rightParen then Parse.pure () p
    else Parse.bind (punctuation .semicolon) (fun _ => Parse.pure ()) p := by
  rw [separator, map_eq_bind]
  rfl

/-- One turn of the loop over the specs of a group, as a step made of others: the closing
parenthesis ends the loop, and a spec is followed by the rest. -/
theorem groupRest_eq (p : Parser) : groupRest p =
    if p.atPunctuation .rightParen then
      Parse.bind (punctuation .rightParen) (fun closing => Parse.pure ([], closing)) p
    else
      Parse.bind groupItem (fun spec => Parse.bind groupRest fun others =>
        Parse.pure (spec :: others.1, others.2)) p := by
  rw [groupRest, map_eq_bind]
  split
  · rfl
  · split
    · rename_i e q hitem
      rw [bind_of_error hitem]
    · rename_i spec q hitem
      rw [bind_of_ok hitem]
      exact map_eq_bind _ groupRest q

/-- One turn of the loop over import declarations, as a step made of others: a declaration is
followed by the rest, and anything but the keyword ends the loop. -/
theorem imports_eq (p : Parser) : imports p =
    if p.atKeyword .kwImport then
      Parse.bind importDeclaration (fun declaration => Parse.bind imports fun others =>
        Parse.pure (declaration :: others)) p
    else Parse.pure [] p := by
  rw [imports]
  split
  · split
    · rename_i e q hdeclaration
      rw [bind_of_error hdeclaration]
    · rename_i declaration q hdeclaration
      rw [bind_of_ok hdeclaration]
      exact map_eq_bind _ imports q
  · rfl
end Parser

end Frontend
