import Frontend.Proofs.Grammar.Predictive
import Frontend.Proofs.Grammar.Recognition

/-!
# Sequences of parser operations

A parser starts before all of its tokens and is only moved by its operations. Each of them passes
some of the tokens that are left, be it successful or not, so a parser that was reached stands
behind as many tokens as its index says. The nodes that it returns are made of tokens from there on:
their leaves are tokens of the stream, in its order.
-/

namespace Frontend

namespace Parser

/-- The operations of a parser. -/
inductive Operation where
  | next
  | eat (kind : TokenKind)
  | keyword (k : Keyword)
  | identifier
  | punctuation (x : Punctuation)
  | stringLiteral
  | terminator
  | importSpec
  | importDeclaration
  | packageClause
  | program
  deriving DecidableEq, Repr

/-- Where an operation leaves a parser, be it successful or not. -/
def Operation.run (p : Parser) : Operation → Parser
  | next => p.next.2
  | eat kind => (p.eat kind).2
  | keyword k => (p.keyword k).2
  | identifier => p.identifier.2
  | punctuation x => (p.punctuation x).2
  | stringLiteral => p.stringLiteral.2
  | terminator => p.terminator.2
  | importSpec => p.importSpec.2
  | importDeclaration => p.importDeclaration.2
  | packageClause => p.packageClause.2
  | program => p.program.2

/-- The parsers that can be reached from the start of a list of tokens. -/
inductive Reached (tokens : List Token) : Parser → Prop
  | start : Reached tokens (ofTokens tokens)
  | step {p : Parser} (operation : Operation) (h : Reached tokens p) :
    Reached tokens (operation.run p)

/-- The parser `q` is the parser `p` after some tokens. -/
structure Passes (p : Parser) (front : List Token) (q : Parser) : Prop where
  rest_eq : p.rest = front ++ q.rest
  index_eq : q.index = p.index + front.length

variable {α : Type} {p q r : Parser} {tokens front back : List Token}

/-- A parser passes no tokens to where it stands. -/
theorem Passes.refl (p : Parser) : p.Passes [] p :=
  ⟨rfl, rfl⟩

/-- Tokens passed in two goes are passed in one. -/
theorem Passes.trans (hp : p.Passes front q) (hq : q.Passes back r) :
    p.Passes (front ++ back) r where
  rest_eq := by rw [hp.rest_eq, hq.rest_eq, List.append_assoc]
  index_eq := by rw [hq.index_eq, hp.index_eq, List.length_append, Nat.add_assoc]

/-- Tokens that a parser advances over are passed. -/
theorem Advances.passes (h : p.Advances front q) : p.Passes front q :=
  ⟨h.rest_eq, h.index_eq⟩

/-- The next token is passed, if there is one. -/
theorem exists_passes_next (p : Parser) : ∃ front, p.Passes front p.next.2 := by
  obtain ⟨index, rest⟩ := p
  cases rest with
  | nil => exact ⟨[], .refl _⟩
  | cons t rest => exact ⟨[t], rfl, rfl⟩

/-- A token is passed or it is not. -/
theorem exists_passes_take (expected : Expected) (accept : Token → Option α) (p : Parser) :
    ∃ front, p.Passes front (take expected accept p).2 := by
  obtain ⟨index, rest⟩ := p
  cases rest with
  | nil => exact ⟨[], .refl _⟩
  | cons t rest =>
    cases haccept : accept t with
    | none =>
      refine ⟨[], ?_, ?_⟩ <;> simp [take, Parser.next, haccept]
    | some a =>
      refine ⟨[t], ?_, ?_⟩ <;> simp [take, Parser.next, haccept]

/-- A step that looks ahead by one token passes some of the tokens that are left. -/
theorem Predictive.exists_passes {step : Parse α} (h : Predictive step p) :
    ∃ front, p.Passes front (step p).2 := by
  obtain ⟨front, hfront, -⟩ := h (Prod.mk.eta (p := step p)).symm
  exact ⟨front, hfront.passes⟩

/-- Every operation passes some of the tokens that are left. -/
theorem Operation.exists_passes (operation : Operation) (p : Parser) :
    ∃ front, p.Passes front (operation.run p) := by
  cases operation with
  | next => exact exists_passes_next p
  | eat kind => exact exists_passes_take _ _ p
  | keyword k => exact (predictive_keyword k).exists_passes
  | identifier => exact predictive_identifier.exists_passes
  | punctuation x => exact (predictive_punctuation x).exists_passes
  | stringLiteral => exact predictive_stringLiteral.exists_passes
  | terminator => exact predictive_terminator.exists_passes
  | importSpec => exact predictive_importSpec.exists_passes
  | importDeclaration => exact predictive_importDeclaration.exists_passes
  | packageClause => exact predictive_packageClause.exists_passes
  | program => exact predictive_program.exists_passes

/-- A parser that was reached stands behind some of its tokens. -/
theorem Reached.exists_passes (h : Reached tokens p) :
    ∃ front, (ofTokens tokens).Passes front p := by
  induction h with
  | start => exact ⟨[], .refl _⟩
  | @step p operation h ih =>
    obtain ⟨front, hfront⟩ := ih
    obtain ⟨back, hback⟩ := operation.exists_passes p
    exact ⟨front ++ back, hfront.trans hback⟩

/-- What a parser that was reached advances over are tokens of the list, in its order. -/
theorem Reached.sublist (h : Reached tokens p) (hfront : p.Advances front q) :
    front.Sublist tokens := by
  obtain ⟨passed, hpassed⟩ := h.exists_passes
  have htokens : tokens = passed ++ (front ++ q.rest) := by
    rw [← hfront.rest_eq]
    exact hpassed.rest_eq
  rw [htokens]
  exact (List.sublist_append_left front q.rest).trans (List.sublist_append_right passed _)

end Parser

/-- Dropping the separators leaves tokens of the list. -/
theorem dropSeparators_sublist (inGroup : Bool) (tokens : List Token) :
    (dropSeparators inGroup tokens).Sublist tokens := by
  induction tokens generalizing inGroup with
  | nil => exact List.Sublist.refl _
  | cons t tokens ih =>
    unfold dropSeparators
    split
    · exact (ih true).cons_cons t
    split
    · exact (ih false).cons_cons t
    split
    · exact (ih inGroup).cons t
    · exact (ih inGroup).cons_cons t

/-- A node of a syntax tree. -/
inductive Node where
  | clause (c : PackageClause)
  | declaration (d : ImportDeclaration)
  | spec (s : ImportSpec)
  deriving DecidableEq, Repr

namespace Node

/-- The leaves of a node. -/
def leaves : Node → List Token
  | clause c => c.leaves
  | declaration d => d.leaves
  | spec s => s.leaves

/-- The nodes that a parser of the tokens returns, after whatever operations, and the nodes inside
them. -/
inductive Returned (tokens : List Token) : Node → Prop
  | clause {p q : Parser} {c : PackageClause} (hp : Parser.Reached tokens p)
    (h : p.packageClause = (.ok c, q)) : Returned tokens (clause c)
  | declaration {p q : Parser} {d : ImportDeclaration} (hp : Parser.Reached tokens p)
    (h : p.importDeclaration = (.ok d, q)) : Returned tokens (declaration d)
  | spec {p q : Parser} {s : ImportSpec} (hp : Parser.Reached tokens p)
    (h : p.importSpec = (.ok s, q)) : Returned tokens (spec s)
  | ofProgram {p q : Parser} {tree : Program} (hp : Parser.Reached tokens p)
    (h : p.program = (.ok tree, q)) {n : Node}
    (hn : n = clause tree.package ∨ ∃ d ∈ tree.imports, n = declaration d) : Returned tokens n
  | ofDeclaration {d : ImportDeclaration} (h : Returned tokens (declaration d)) {s : ImportSpec}
    (hs : s ∈ d.specs) : Returned tokens (spec s)

/-- What one of the elements gives is a part of what all of them give. -/
private theorem sublist_flatMap {α β : Type} {f : α → List β} {a : α} {as : List α} (h : a ∈ as) :
    (f a).Sublist (as.flatMap f) := by
  obtain ⟨before, after, rfl⟩ := List.append_of_mem h
  rw [List.flatMap_append, List.flatMap_cons]
  exact (List.sublist_append_left _ _).trans (List.sublist_append_right _ _)

/-- The leaves of the specs of a body are among its leaves, in order. -/
theorem flatMap_leaves_sublist (body : ImportBody) :
    (body.specs.flatMap ImportSpec.leaves).Sublist body.leaves := by
  cases body with
  | single spec =>
    rw [ImportBody.specs, List.flatMap_singleton]
    exact List.Sublist.refl _
  | group opening specs closing =>
    have hspecs := List.sublist_append_left (specs.flatMap ImportSpec.leaves)
      [⟨.punctuation .rightParen, closing⟩]
    exact hspecs.cons ⟨.punctuation .leftParen, opening⟩

/-- The leaves of a body are among those of its declaration, in order. -/
theorem leaves_body_sublist (d : ImportDeclaration) : d.body.leaves.Sublist d.leaves :=
  List.Sublist.cons _ (List.sublist_append_left d.body.leaves _)

/-- The leaves of a spec are among those of its declaration. -/
theorem leaves_sublist_of_mem_specs {d : ImportDeclaration} {s : ImportSpec} (h : s ∈ d.specs) :
    s.leaves.Sublist d.leaves :=
  (sublist_flatMap h).trans ((flatMap_leaves_sublist d.body).trans (leaves_body_sublist d))

/-- **A returned node is made of tokens of the list, in its order.** -/
theorem Returned.leaves_sublist {tokens : List Token} {n : Node} (h : Returned tokens n) :
    n.leaves.Sublist tokens := by
  induction h with
  | @clause p q c hp h =>
    obtain ⟨keyword, name, terminator⟩ := c
    obtain ⟨-, ending, hending, hfront⟩ := Parser.packageClause_eq_ok_iff.mp h
    have hsublist := hp.sublist hfront
    rw [← hending.leaves_eq] at hsublist
    exact hsublist
  | declaration hp h =>
    obtain ⟨front, hderives, hfront⟩ := Parser.importDeclaration_eq_ok_iff.mp h
    have hleaves := hderives.dropSeparators_append []
    rw [List.append_nil, dropSeparators, List.append_nil] at hleaves
    have hsublist := dropSeparators_sublist false front
    rw [hleaves] at hsublist
    exact hsublist.trans (hp.sublist hfront)
  | spec hp h =>
    obtain ⟨front, hderives, hfront⟩ := Parser.importSpec_eq_ok_iff.mp h
    have hsublist := hp.sublist hfront
    rw [← hderives.leaves_eq] at hsublist
    exact hsublist
  | @ofProgram p q tree hp h n hn =>
    obtain ⟨-, front, hderives, hfront⟩ := Parser.program_eq_ok_iff.mp h
    have hsublist := dropSeparators_sublist false front
    rw [hderives.dropSeparators_eq] at hsublist
    have htree : n.leaves.Sublist tree.leaves := by
      rcases hn with rfl | ⟨d, hd, rfl⟩
      · exact List.sublist_append_left _ _
      · have himports : d.leaves.Sublist (tree.imports.flatMap ImportDeclaration.leaves) :=
          sublist_flatMap hd
        exact himports.trans (List.sublist_append_right _ _)
    exact (htree.trans hsublist).trans (hp.sublist hfront)
  | ofDeclaration h hs ih => exact (leaves_sublist_of_mem_specs hs).trans ih

end Node

end Frontend
