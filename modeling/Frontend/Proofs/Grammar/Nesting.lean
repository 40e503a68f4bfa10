import Frontend.Proofs.Spans
import Frontend.Proofs.Stream.Spelling

/-!
# How the nodes of a program nest

The span of a node runs from its first part to its last, and its parts are tokens of the stream.
Those stand one after another, so it is enough to know in which order the leaves of a tree come:
leaves of a node are inside its span, and leaves that come before all of its own, or after them, are
outside. The terminator of a node is a leaf of it, but no part that its span covers.
-/

namespace Frontend

namespace Ordered

variable {tokens front back : List Token} {t x : Token}

/-- Tokens that are left out do not change the order of the others. -/
theorem sublist (h : Ordered tokens) (hsub : front.Sublist tokens) : Ordered front :=
  List.Pairwise.sublist hsub h

/-- No token starts before the first one. -/
theorem start_le (h : Ordered (t :: tokens)) (hx : x ∈ t :: tokens) : t.start ≤ x.start := by
  rcases List.mem_cons.mp hx with rfl | hx
  · exact Nat.le_refl _
  · have hle : t.stop ≤ x.start := List.rel_of_pairwise_cons h hx
    have ht := t.start_le_stop
    omega

/-- No token ends after the last one. -/
theorem le_stop (h : Ordered (tokens ++ [t])) (hx : x ∈ tokens ++ [t]) : x.stop ≤ t.stop := by
  rcases List.mem_append.mp hx with hx | hx
  · have hle : x.stop ≤ t.start := (List.pairwise_append.mp h).2.2 x hx t List.mem_cons_self
    have ht := t.start_le_stop
    omega
  · obtain rfl := List.mem_singleton.mp hx
    exact Nat.le_refl _

/-- Of two stretches of tokens, the first ends before the second starts. -/
theorem le_of_append (h : Ordered (front ++ back)) (ht : t ∈ front) (hx : x ∈ back) :
    t.stop ≤ x.start :=
  (List.pairwise_append.mp h).2.2 t ht x hx

end Ordered

/-- A token of a stream that is neither a semicolon nor the end of the file is read off a text. -/
theorem TokenStream.exists_leading_of_ok {source : Text} {s : TokenStream}
    (h : ofText source = .ok s) {x : Token} (hx : x ∈ s.tokens)
    (hsemicolon : x.cls ≠ .punctuation .semicolon) (hend : x.cls ≠ .endOfFile) :
    ∃ c t, (Scan.leading c t).cls = x.cls ∧ (Scan.leading c t).text = x.text := by
  obtain ⟨front, htokens, hfront⟩ := exists_front_of_ok h
  rw [htokens] at hx
  rcases List.mem_append.mp hx with hx | hx
  · rcases hfront x hx with hplaced | ⟨offset, rfl⟩
    · have hpiece := Piece.mem_of_mem_placed (List.mem_filter.mp hplaced).1
      obtain ⟨c, t, -, hcls, htext⟩ := exists_leading_of_mem_pieces hpiece
      exact ⟨c, t, hcls, htext⟩
    · exact absurd rfl hsemicolon
  · obtain rfl := List.mem_singleton.mp hx
    exact absurd rfl hend

namespace Span

/-- One span stands inside another. -/
def Within (a b : Span) : Prop :=
  b.start ≤ a.start ∧ a.stop ≤ b.stop

/-- One span starts before another, and shares nothing with it. -/
def Precedes (a b : Span) : Prop :=
  a.start < b.start ∧ a.stop ≤ b.start

end Span

namespace Node

/-- The leaves of a node that its span covers: all but the terminator. -/
def parts : Node → List Token
  | clause c => [⟨.keyword .kwPackage, c.keyword⟩, ⟨.identifier, c.name⟩]
  | declaration d => ⟨.keyword .kwImport, d.keyword⟩ :: d.body.leaves
  | spec s => s.leaves

/-- The terminator of a node, if it can have one and does. -/
def terminator : Node → Option Lexeme
  | clause c => c.terminator
  | declaration d => d.terminator
  | spec _ => none

/-- The leaves of a node are those its span covers and, behind them, its terminator. -/
theorem leaves_eq (n : Node) : n.leaves = n.parts ++ terminatorLeaves n.terminator := by
  cases n with
  | clause c => rfl
  | declaration d => rfl
  | spec s => exact (List.append_nil _).symm

/-- A spec ends with its path, and its span runs there from its first part. -/
theorem exists_ends_spec (s : ImportSpec) : ∃ first later earlier, s.leaves = first :: later ∧
    s.leaves = earlier ++ [s.path.token] ∧
      ∀ file, s.span file = .cover file first.lexeme s.path.lexeme := by
  obtain ⟨name, path⟩ := s
  cases name with
  | none => exact ⟨path.token, [], [], rfl, rfl, fun file => rfl⟩
  | some name =>
    have htoken : name.token.lexeme = name.lexeme := by cases name <;> rfl
    refine ⟨name.token, [path.token], [name.token], rfl, rfl, fun file => ?_⟩
    rw [htoken]
    rfl

/-- A node has a first and a last part, and its span runs from the one to the other. -/
theorem exists_ends (n : Node) : ∃ first last later earlier,
    n.parts = first :: later ∧ n.parts = earlier ++ [last] ∧
      ∀ file, n.span file = .cover file first.lexeme last.lexeme := by
  cases n with
  | clause c => exact ⟨_, _, _, [⟨.keyword .kwPackage, c.keyword⟩], rfl, rfl, fun file => rfl⟩
  | declaration d =>
    obtain ⟨keyword, body, terminator⟩ := d
    cases body with
    | single s =>
      obtain ⟨-, -, earlier, -, hearlier, -⟩ := exists_ends_spec s
      refine ⟨_, s.path.token, _, ⟨.keyword .kwImport, keyword⟩ :: earlier, rfl, ?_,
        fun file => rfl⟩
      exact congrArg (List.cons _) hearlier
    | group opening specs closing =>
      exact ⟨_, ⟨.punctuation .rightParen, closing⟩, _, ⟨.keyword .kwImport, keyword⟩ ::
        ⟨.punctuation .leftParen, opening⟩ :: specs.flatMap ImportSpec.leaves, rfl, rfl,
        fun file => rfl⟩
  | spec s =>
    obtain ⟨first, later, earlier, hlater, hearlier, hspan⟩ := exists_ends_spec s
    exact ⟨first, _, later, earlier, hlater, hearlier, hspan⟩

variable {file : SourceFile} {n m : Node} {tokens : List Token} {x : Token}

/-- The parts of a node are inside its span. -/
theorem within_span (h : Ordered n.parts) (hx : x ∈ n.parts) :
    (n.span file).start ≤ x.start ∧ x.stop ≤ (n.span file).stop := by
  obtain ⟨first, last, later, earlier, hfirst, hlast, hspan⟩ := n.exists_ends
  rw [hspan]
  constructor
  · rw [hfirst] at h hx
    exact h.start_le hx
  · rw [hlast] at h hx
    exact h.le_stop hx

/-- The span of a node starts with one of its parts and ends with one. -/
theorem exists_bounds (n : Node) (file : SourceFile) :
    (∃ t ∈ n.parts, (n.span file).start = t.start) ∧
      ∃ t ∈ n.parts, (n.span file).stop = t.stop := by
  obtain ⟨first, last, later, earlier, hfirst, hlast, hspan⟩ := n.exists_ends
  rw [hspan]
  exact ⟨⟨first, hfirst ▸ List.mem_cons_self, rfl⟩, last,
    hlast ▸ List.mem_append_right _ List.mem_cons_self, rfl⟩

/-- The span of a node whose parts are among those of another is inside the span of that. -/
theorem within_of_subset (hm : Ordered m.parts) (h : n.parts ⊆ m.parts) :
    (n.span file).Within (m.span file) := by
  obtain ⟨⟨first, hfirst, hstart⟩, last, hlast, hstop⟩ := n.exists_bounds file
  constructor
  · rw [hstart]
    exact (within_span hm (h hfirst)).1
  · rw [hstop]
    exact (within_span hm (h hlast)).2

/-- What comes after the parts of a node starts after its span. -/
theorem stop_span_le {k : Nat} (h : ∀ t ∈ n.parts, t.stop ≤ k) : (n.span file).stop ≤ k := by
  obtain ⟨-, last, hlast, hstop⟩ := n.exists_bounds file
  rw [hstop]
  exact h last hlast

/-- What comes before the parts of a node ends before its span. -/
theorem le_start_span {k : Nat} (h : ∀ t ∈ n.parts, k ≤ t.start) : k ≤ (n.span file).start := by
  obtain ⟨⟨first, hfirst, hstart⟩, -⟩ := n.exists_bounds file
  rw [hstart]
  exact h first hfirst

/-- A node whose parts come first stands before the other, if its parts cover text. -/
theorem precedes (h : ∀ t ∈ n.parts, ∀ x ∈ m.parts, t.stop ≤ x.start)
    (htext : ∀ t ∈ n.parts, t.start < t.stop) : (n.span file).Precedes (m.span file) := by
  have hbefore : ∀ t ∈ n.parts, t.stop ≤ (m.span file).start :=
    fun t ht => le_start_span (h t ht)
  obtain ⟨⟨first, hfirst, hstart⟩, -⟩ := n.exists_bounds file
  refine ⟨?_, stop_span_le hbefore⟩
  have hlt := htext first hfirst
  have hle := hbefore first hfirst
  omega

/-- The terminator of a node comes after its span. -/
theorem stop_span_le_terminator (h : Ordered n.leaves) {l : Lexeme} (hl : n.terminator = some l) :
    (n.span file).stop ≤ l.start := by
  rw [leaves_eq, hl] at h
  exact stop_span_le fun t ht => h.le_of_append ht (x := semicolonToken l) List.mem_cons_self

/-- Where the parts of a node stand next to each other, all other tokens are outside its span. -/
theorem outside_span (h : Ordered tokens) (hn : n.parts <:+: tokens) (hx : x ∈ tokens) :
    x ∈ n.parts ∨ x.stop ≤ (n.span file).start ∨ (n.span file).stop ≤ x.start := by
  obtain ⟨before, after, rfl⟩ := hn
  rcases List.mem_append.mp hx with hx | hx
  · rcases List.mem_append.mp hx with hx | hx
    · rw [List.append_assoc] at h
      have hle (t : Token) (ht : t ∈ n.parts) : x.stop ≤ t.start :=
        h.le_of_append hx (List.mem_append_left _ ht)
      exact .inr (.inl (le_start_span hle))
    · exact .inl hx
  · have hle (t : Token) (ht : t ∈ n.parts) : t.stop ≤ x.start :=
      h.le_of_append (List.mem_append_right _ ht) hx
    exact .inr (.inr (stop_span_le hle))

/-- The leaves of a spec are names, strings and points. -/
theorem cls_leaves_spec (s : ImportSpec) :
    ∀ t ∈ s.leaves, t.cls ≠ .punctuation .semicolon ∧ t.cls ≠ .endOfFile := by
  obtain ⟨name, path⟩ := s
  cases name with
  | none => simp [ImportSpec.leaves, StringLiteral.token]
  | some name => cases name <;> simp [ImportSpec.leaves, ImportName.token, StringLiteral.token]

/-- No part of a node is a semicolon or the end of the file. -/
theorem cls_parts (n : Node) :
    ∀ t ∈ n.parts, t.cls ≠ .punctuation .semicolon ∧ t.cls ≠ .endOfFile := by
  cases n with
  | clause c => simp [parts]
  | declaration d =>
    obtain ⟨keyword, body, terminator⟩ := d
    intro t ht
    rcases List.mem_cons.mp ht with rfl | ht
    · simp
    cases body with
    | single s => exact cls_leaves_spec s t ht
    | group opening specs closing =>
      rcases List.mem_cons.mp ht with rfl | ht
      · simp
      rcases List.mem_append.mp ht with ht | ht
      · obtain ⟨s, -, ht⟩ := List.mem_flatMap.mp ht
        exact cls_leaves_spec s t ht
      · obtain rfl := List.mem_singleton.mp ht
        simp
  | spec s => exact cls_leaves_spec s

/-- The parts of a node that is read from a stream cover text, and keywords are spelled out. -/
theorem read_parts {stream : TokenStream}
    (hstream : TokenStream.ofText file.content = .ok stream) (hn : n.parts ⊆ stream.tokens) :
    ∀ t ∈ n.parts, t.start < t.stop ∧ ∀ k, t.cls = .keyword k → t.text = k.text := by
  intro t ht
  obtain ⟨hsemicolon, hend⟩ := n.cls_parts t ht
  obtain ⟨c, u, hcls, htext⟩ := TokenStream.exists_leading_of_ok hstream (hn ht) hsemicolon hend
  constructor
  · have hpos := Text.size_pos (Scan.leading_text_ne_nil c u)
    rw [htext] at hpos
    exact Nat.lt_add_of_pos_right hpos
  · intro k hk
    rw [← htext]
    exact (Scan.spelled_leading c u).1 k (hcls.trans hk)

/-- The parts of a node come first among its leaves. -/
theorem parts_sublist (n : Node) : n.parts.Sublist n.leaves := by
  rw [leaves_eq]
  exact List.sublist_append_left _ _

/-- What holds of a node that is returned by a parser of a stream. -/
structure Read (file : SourceFile) (n : Node) : Prop where
  joined : n.joined? file = some (n.span file)
  ordered : Ordered n.leaves
  start_lt_stop : ∀ t ∈ n.parts, t.start < t.stop
  keyword : ∀ t ∈ n.parts, ∀ k, t.cls = .keyword k → t.text = k.text

/-- A node that a parser of a stream returns has a span that is put together from those of its
parts, and leaves in order, of which those in its span cover text. -/
theorem Returned.read {stream : TokenStream}
    (hstream : TokenStream.ofText file.content = .ok stream) (hn : Returned stream.tokens n) :
    n.Read file := by
  have hleaves := hn.leaves_sublist
  have hparts := read_parts hstream (n.parts_sublist.trans hleaves).subset
  exact ⟨(hn.span_valid hstream).2, (TokenStream.ordered_of_ok hstream).sublist hleaves,
    fun t ht => (hparts t ht).1, fun t ht => (hparts t ht).2⟩

end Node

/-! ## The specs among the tokens -/

section Infix

variable {rest tokens : List Token} {s : ImportSpec}

/-- The leaves of a spec stand next to each other in its group. -/
theorem DerivesGroup.leaves_isInfix {specs : List ImportSpec} (h : DerivesGroup specs tokens)
    (hs : s ∈ specs) : s.leaves <:+: tokens := by
  induction h with
  | empty => exact absurd hs List.not_mem_nil
  | last hspec =>
    obtain rfl := List.mem_singleton.mp hs
    rw [hspec.leaves_eq]
  | separated hspec l hspecs ih =>
    rcases List.mem_cons.mp hs with rfl | hs
    · rw [hspec.leaves_eq]
      exact List.infix_append_left
    · exact List.infix_append_of_infix_right (List.infix_cons (ih hs))

/-- The leaves of a spec stand next to each other in its declaration. -/
theorem DerivesDeclaration.leaves_isInfix {d : ImportDeclaration}
    (h : DerivesDeclaration rest d tokens) (hs : s ∈ d.specs) : s.leaves <:+: tokens := by
  obtain ⟨keyword, hbody, hterminator⟩ := h
  refine List.infix_append_of_infix_left (List.infix_cons ?_)
  cases hbody with
  | single hspec =>
    obtain rfl := List.mem_singleton.mp hs
    rw [hspec.leaves_eq]
  | group opening closing hspecs =>
    have hgroup : s.leaves <:+: _ := hspecs.leaves_isInfix hs
    exact List.infix_append_of_infix_left (List.infix_cons hgroup)

/-- The leaves of a spec stand next to each other among those of all declarations. -/
theorem DerivesImports.leaves_isInfix {d : ImportDeclaration} {ds : List ImportDeclaration}
    (h : DerivesImports rest ds tokens) (hd : d ∈ ds) (hs : s ∈ d.specs) :
    s.leaves <:+: tokens := by
  induction h with
  | none => exact absurd hd List.not_mem_nil
  | more hfirst hothers ih =>
    rcases List.mem_cons.mp hd with rfl | hd
    · exact List.infix_append_of_infix_left (hfirst.leaves_isInfix hs)
    · exact List.infix_append_of_infix_right (ih hd)

/-- The leaves of a spec stand next to each other among the tokens of its program. -/
theorem DerivesProgram.leaves_isInfix {tree : Program} (h : DerivesProgram rest tree tokens)
    {d : ImportDeclaration} (hd : d ∈ tree.imports) (hs : s ∈ d.specs) :
    s.leaves <:+: tokens := by
  obtain ⟨keyword, name, -, hterminator, himports⟩ := h
  exact List.infix_append_of_infix_right (himports.leaves_isInfix hd hs)

end Infix

/-! ## Nodes in order -/

section Order

variable {file : SourceFile} {tree : Program} {d : ImportDeclaration}

/-- The specs of a declaration stand inside it. -/
theorem ImportDeclaration.within_of_mem_specs (hd : (Node.declaration d).Read file)
    {s : ImportSpec} (hs : s ∈ d.specs) : (s.span file).Within (d.span file) := by
  have hparts : (Node.spec s).parts ⊆ (Node.declaration d).parts := by
    intro t ht
    have hbody := (Node.flatMap_leaves_sublist d.body).subset (List.mem_flatMap_of_mem hs ht)
    exact List.mem_cons_of_mem _ hbody
  exact Node.within_of_subset (hd.ordered.sublist (Node.parts_sublist _)) hparts

/-- The specs of a declaration stand one after another. -/
theorem ImportDeclaration.pairwise_specs (hd : (Node.declaration d).Read file)
    (hspecs : ∀ s ∈ d.specs, (Node.spec s).Read file) :
    (d.specs.map (ImportSpec.span file)).Pairwise Span.Precedes := by
  have hleaves := (Node.flatMap_leaves_sublist d.body).trans (Node.leaves_body_sublist d)
  have hbefore := (List.pairwise_flatMap.mp (hd.ordered.sublist hleaves)).2
  refine List.pairwise_map.mpr (hbefore.imp_of_mem ?_)
  intro s s' hs _ hlt
  exact Node.precedes (n := .spec s) (m := .spec s') hlt (hspecs s hs).start_lt_stop

/-- The clause and the declarations of a program stand one after another. -/
theorem Program.pairwise_nodes (htree : Ordered tree.leaves)
    (hclause : (Node.clause tree.package).Read file)
    (himports : ∀ d ∈ tree.imports, (Node.declaration d).Read file) :
    (tree.package.span file :: tree.imports.map (ImportDeclaration.span file)).Pairwise
      Span.Precedes := by
  have hparts {n : Node} {t : Token} (ht : t ∈ n.parts) : t ∈ n.leaves :=
    (Node.parts_sublist n).subset ht
  refine List.pairwise_cons.mpr ⟨?_, List.pairwise_map.mpr ?_⟩
  · intro span hspan
    obtain ⟨d, hd, rfl⟩ := List.mem_map.mp hspan
    refine Node.precedes (n := .clause tree.package) (m := .declaration d) ?_
      hclause.start_lt_stop
    intro t ht x hx
    exact htree.le_of_append (hparts ht) (List.mem_flatMap_of_mem hd (hparts hx))
  · have hlater := htree.sublist (List.sublist_append_right tree.package.leaves _)
    refine (List.pairwise_flatMap.mp hlater).2.imp_of_mem ?_
    intro d d' hd _ hbefore
    refine Node.precedes (n := .declaration d) (m := .declaration d') ?_
      (himports d hd).start_lt_stop
    intro t ht x hx
    exact hbefore t (hparts ht) x (hparts hx)

end Order

/-- The bounds of the span of a spec are those of its name, if it has one, and of its path. -/
theorem ImportSpec.bounds_span (file : SourceFile) (s : ImportSpec) :
    (∀ name, s.name = some name → (s.span file).start = name.lexeme.start) ∧
      (s.name = none → (s.span file).start = s.path.lexeme.start) ∧
      (s.span file).stop = s.path.lexeme.stop := by
  obtain ⟨name, path⟩ := s
  cases name <;> simp [span, Span.cover]

/-- The bounds of the span of a declaration are those of its keyword and of what closes it. -/
theorem ImportDeclaration.bounds_span (file : SourceFile) (d : ImportDeclaration) :
    (d.span file).start = d.keyword.start ∧
      (∀ opening specs closing, d.body = .group opening specs closing →
        (d.span file).stop = closing.stop) ∧
      ∀ s, d.body = .single s → (d.span file).stop = s.path.lexeme.stop := by
  obtain ⟨keyword, body, terminator⟩ := d
  cases body <;> simp [span, Span.cover]

/-- How the nodes of a program nest in the file that it was read from. -/
structure Program.Nests (file : SourceFile) (tokens : List Token) (tree : Program) : Prop where
  /-- The leaves of the tree are tokens of the stream, in its order. -/
  leaves : tree.leaves.Sublist tokens
  /-- The keywords are spelled out. -/
  keywords : tree.package.keyword.text = Keyword.kwPackage.text ∧
    ∀ d ∈ tree.imports, d.keyword.text = Keyword.kwImport.text
  /-- The clause spans from its keyword to the name. -/
  clause : tree.package.joined? file = some (tree.package.span file) ∧
    (tree.package.span file).start = tree.package.keyword.start ∧
      (tree.package.span file).stop = tree.package.name.stop
  /-- A declaration spans from its keyword to the closing parenthesis, or to its only path. -/
  declaration : ∀ d ∈ tree.imports, d.joined? file = some (d.span file) ∧
    (d.span file).start = d.keyword.start ∧
      (∀ opening specs closing, d.body = .group opening specs closing →
        (d.span file).stop = closing.stop) ∧
      ∀ s, d.body = .single s → (d.span file).stop = s.path.lexeme.stop
  /-- A spec spans from its name, or from its path if it has none, to the end of the path. -/
  spec : ∀ d ∈ tree.imports, ∀ s ∈ d.specs, s.joined? file = some (s.span file) ∧
    (∀ name, s.name = some name → (s.span file).start = name.lexeme.start) ∧
      (s.name = none → (s.span file).start = s.path.lexeme.start) ∧
      (s.span file).stop = s.path.lexeme.stop
  /-- The specs stand inside their declarations. -/
  inside : ∀ d ∈ tree.imports, ∀ s ∈ d.specs, (s.span file).Within (d.span file)
  /-- The specs of a declaration stand one after another. -/
  specs_ordered : ∀ d ∈ tree.imports,
    (d.specs.map (ImportSpec.span file)).Pairwise Span.Precedes
  /-- The clause and the declarations stand one after another. -/
  ordered : (tree.package.span file :: tree.imports.map (ImportDeclaration.span file)).Pairwise
    Span.Precedes
  /-- The terminators stand after what they end. -/
  terminators :
    (∀ l, tree.package.terminator = some l → (tree.package.span file).stop ≤ l.start) ∧
      ∀ d ∈ tree.imports, ∀ l, d.terminator = some l → (d.span file).stop ≤ l.start
  /-- A spec covers no other token, so the semicolon behind it stands after it. -/
  alone : ∀ d ∈ tree.imports, ∀ s ∈ d.specs, ∀ x ∈ tokens,
    x ∈ s.leaves ∨ x.stop ≤ (s.span file).start ∨ (s.span file).stop ≤ x.start

/-- **Spans are exact, nested and ordered.** However a source is read as a program, the nodes of the
tree span from their first part to their last, specs stand inside their declarations, and neither
specs nor declarations overlap. -/
theorem Program.nests_of_programOf {σ : Type} {file : SourceFile} {stream : TokenStream}
    (hstream : TokenStream.ofText file.content = .ok stream) (handler : Handler Error σ) (kept : σ)
    {tree : Program} {q : Parser}
    (hprogram : ((Parser.ofTokens stream.tokens).programOf handler file kept).1 = (.ok tree, q)) :
    tree.Nests file stream.tokens := by
  rw [Parser.fst_programOf] at hprogram
  obtain ⟨-, front, hderives, hfront⟩ := Parser.program_eq_ok_iff.mp hprogram
  have htokens : front ++ q.rest = stream.tokens := hfront.rest_eq.symm
  have hordered : Ordered stream.tokens := TokenStream.ordered_of_ok hstream
  have hnext (d : ImportDeclaration) (hd : d ∈ tree.imports) (s : ImportSpec)
      (hs : s ∈ d.specs) : s.leaves <:+: stream.tokens := by
    rw [← htokens]
    exact List.infix_append_of_infix_left (hderives.leaves_isInfix hd hs)
  have hleaves : tree.leaves.Sublist stream.tokens := by
    have hdropped := dropSeparators_sublist false front
    rw [hderives.dropSeparators_eq] at hdropped
    rw [← htokens]
    exact hdropped.trans (List.sublist_append_left front q.rest)
  have hread (n : Node)
      (hn : n = .clause tree.package ∨ ∃ d ∈ tree.imports, n = .declaration d) : n.Read file :=
    (Node.Returned.ofProgram .start hprogram hn).read hstream
  have hclause := hread (.clause tree.package) (.inl rfl)
  have himport (d : ImportDeclaration) (hd : d ∈ tree.imports) :=
    hread (.declaration d) (.inr ⟨d, hd, rfl⟩)
  have hspec (d : ImportDeclaration) (hd : d ∈ tree.imports) (s : ImportSpec) (hs : s ∈ d.specs) :
      (Node.spec s).Read file :=
    ((Node.Returned.ofProgram .start hprogram (.inr ⟨d, hd, rfl⟩)).ofDeclaration hs).read hstream
  exact
    { leaves := hleaves
      keywords := ⟨hclause.keyword _ List.mem_cons_self _ rfl,
        fun d hd => (himport d hd).keyword _ List.mem_cons_self _ rfl⟩
      clause := ⟨hclause.joined, rfl, rfl⟩
      declaration := fun d hd => ⟨(himport d hd).joined, d.bounds_span file⟩
      spec := fun d hd s hs => ⟨(hspec d hd s hs).joined, s.bounds_span file⟩
      inside := fun d hd s hs => ImportDeclaration.within_of_mem_specs (himport d hd) hs
      specs_ordered := fun d hd => ImportDeclaration.pairwise_specs (himport d hd) (hspec d hd)
      ordered := Program.pairwise_nodes (hordered.sublist hleaves) hclause himport
      terminators := ⟨fun l hl => Node.stop_span_le_terminator hclause.ordered hl,
        fun d hd l hl => Node.stop_span_le_terminator (himport d hd).ordered hl⟩
      alone := fun d hd s hs x hx =>
        Node.outside_span (n := .spec s) hordered (hnext d hd s hs) hx }

/-- A group over three lines: a name that is a point, a path with a character of two bytes, and an
inserted semicolon between two specs. -/
theorem Program.nests_of_programOf_lines :
    let file := SourceFile.ofText "lines" ['p', 'a', 'c', 'k', 'a', 'g', 'e', ' ', 'p', '\n', 'i',
      'm', 'p', 'o', 'r', 't', '(', '\n', '.', '\x22', 'é', '\x22', '\n', '_', ' ', '\x22', 'c',
      '\x22', ')']
    ∃ stream tree q, TokenStream.ofText file.content = .ok stream ∧
      ((Parser.ofTokens stream.tokens).programOf Handler.ignore file ()).1 = (.ok tree, q) ∧
      tree.Nests file stream.tokens ∧
      (tree.package.span file).stop = 9 ∧
      tree.imports.map (fun d => ((d.span file).start, (d.span file).stop)) = [(10, 30)] ∧
      tree.importSpecs.map (fun s => ((s.span file).start, (s.span file).stop)) =
        [(18, 23), (24, 29)] := by
  intro file
  have hstream : TokenStream.ofText file.content =
      .ok ⟨[⟨.keyword .kwPackage, 0, ['p', 'a', 'c', 'k', 'a', 'g', 'e']⟩,
        ⟨.identifier, 8, ['p']⟩, insertedSemicolon 9,
        ⟨.keyword .kwImport, 10, ['i', 'm', 'p', 'o', 'r', 't']⟩,
        ⟨.punctuation .leftParen, 16, ['(']⟩, ⟨.punctuation .period, 18, ['.']⟩,
        ⟨.stringLiteral .interpreted, 19, ['\x22', 'é', '\x22']⟩, insertedSemicolon 23,
        ⟨.identifier, 24, ['_']⟩, ⟨.stringLiteral .interpreted, 26, ['\x22', 'c', '\x22']⟩,
        ⟨.punctuation .rightParen, 29, [')']⟩] ++ [endOfFile 30], []⟩ := by cbv
  have hspecs := DerivesGroup.separated
    (.named (.dot ⟨18, ['.']⟩) ⟨.interpreted, 19, ['\x22', 'é', '\x22']⟩) ⟨23, []⟩
    (.last (.named (.identifier ⟨24, ['_']⟩) ⟨.interpreted, 26, ['\x22', 'c', '\x22']⟩))
  have hdeclaration := DerivesDeclaration.intro ⟨10, ['i', 'm', 'p', 'o', 'r', 't']⟩
    (.group ⟨16, ['(']⟩ ⟨29, [')']⟩ hspecs) (.missing (atEnd_cons (kind_endOfFile 30) []))
  have hderives := DerivesProgram.intro ⟨0, ['p', 'a', 'c', 'k', 'a', 'g', 'e']⟩ ⟨8, ['p']⟩
    (by decide) (.semicolon ⟨9, []⟩) (.more hdeclaration .none)
  have hprogram := (Parser.fst_programOf Handler.ignore file _ ()).trans
    (Parser.program_of_derives hderives (by simp [Inside, semicolonToken]; decide))
  exact ⟨_, _, _, hstream, hprogram, nests_of_programOf hstream Handler.ignore () hprogram, rfl,
    rfl, rfl⟩

end Frontend
