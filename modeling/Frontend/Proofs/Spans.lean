import Frontend.Proofs.Grammar.Operations
import Frontend.Proofs.Source.Reached
import Frontend.Proofs.Source.Spans

/-!
# The spans of a file

`Span.Obtained` lists every way to a span of a file: the constructors that check their bounds,
joins, the tokens that are read at a cursor, what a pass over the text finds, and the nodes that a
parser returns. The checks are made only where offsets come from outside; everywhere else validity
is what the scanner and the parser keep. What a pass finds stands where its text is, and the leaves
of a node are tokens in the order of the text, so that the last of them does not end before the
first starts.
-/

namespace Frontend

/-- The lexeme stands in the text where it says it does. -/
def Lexeme.In (t : Text) (l : Lexeme) : Prop :=
  Text.Between t l.start l.stop l.text

/-- The empty lexeme behind a part of a text. -/
theorem Lexeme.in_empty (before after : Text) : In (before ++ after) ⟨Text.size before, []⟩ :=
  ⟨before, after, by simp, rfl, rfl⟩

namespace Pass

/-- What a pass has found stands in the text, the illegal token that stopped it included. -/
structure In (source : Text) (p : Pass) : Prop where
  tokens : ∀ x ∈ p.tokens, x.lexeme.In source
  comments : ∀ c ∈ p.comments, c.lexeme.In source
  error : ∀ e, p.error = some e → e.lexeme.In source

variable {source : Text} {p : Pass}

/-- With a token of the text found first, a pass still finds nothing but what stands there. -/
theorem In.withToken (h : p.In source) {x : Token} (hx : x.lexeme.In source) :
    (p.withToken x).In source where
  tokens y hy := by
    rcases List.mem_cons.mp hy with rfl | hy
    · exact hx
    · exact h.tokens y hy
  comments := h.comments
  error := h.error

/-- With a comment of the text found first, a pass still finds nothing but what stands there. -/
theorem In.withComment (h : p.In source) {c : Comment} (hc : c.lexeme.In source) :
    (p.withComment c).In source where
  tokens := h.tokens
  comments d hd := by
    rcases List.mem_cons.mp hd with rfl | hd
    · exact hc
    · exact h.comments d hd
  error := h.error

/-- With a semicolon inserted first at a place in the text, a pass still finds nothing but what
stands there. -/
theorem In.withSemicolon (h : p.In source) {offset? : Option Nat}
    (hoffset : ∀ offset, offset? = some offset → (insertedSemicolon offset).lexeme.In source) :
    (p.withSemicolon offset?).In source := by
  cases offset? with
  | none => exact h
  | some offset => exact h.withToken (hoffset offset rfl)

/-- The line feed of a comment is a place in the text. -/
theorem in_lineFeedOffset? {l : Lexeme} (hl : l.In source) (form : CommentForm) {offset : Nat}
    (h : lineFeedOffset? form l = some offset) : (insertedSemicolon offset).lexeme.In source := by
  unfold lineFeedOffset? at h
  split at h
  · obtain rfl := Option.some.inj h
    have hsplit : l.text = l.text.takeWhile (· ≠ '\n') ++ [] ++ l.text.dropWhile (· ≠ '\n') := by
      rw [List.append_nil, List.takeWhile_append_dropWhile]
    have hbetween : Text.Between source l.start l.stop l.text := hl
    rw [hsplit] at hbetween
    exact hbetween.sub
  · exact nomatch h

/-- What a pass finds over pieces stands in their text. -/
theorem in_overPieces (armed : Bool) (before : Text) (ps : List Piece) :
    (overPieces armed (Text.size before) ps).In (before ++ ps.flatMap Piece.text) := by
  induction ps using Piece.listInduction generalizing armed before with
  | nil =>
    refine ⟨?_, fun c hc => absurd hc List.not_mem_nil, ?_⟩
    · intro x hx
      obtain rfl := List.mem_singleton.mp hx
      exact Lexeme.in_empty before []
    · intro e he
      cases he
  | gap c ps ih =>
    -- the text passed grows by the piece, and the induction carries it along
    have hrest (armed : Bool) := ih armed (before ++ [c])
    simp only [Text.size_append, Text.size_cons, Text.size_nil, Nat.add_zero,
      List.append_assoc] at hrest
    rw [overPieces]
    split
    · refine (hrest false).withSemicolon ?_
      intro offset hoffset
      obtain ⟨-, rfl⟩ : armed = true ∧ Text.size before = offset := by simpa using hoffset
      exact Lexeme.in_empty before _
    · exact hrest armed
  | comment form text ps ih =>
    have hrest (armed : Bool) := ih armed (before ++ text)
    simp only [Text.size_append, List.append_assoc] at hrest
    have hcomment : Lexeme.In (before ++ (text ++ ps.flatMap Piece.text))
        ⟨Text.size before, text⟩ := ⟨before, _, (List.append_assoc ..).symm, rfl, rfl⟩
    refine ((hrest _).withComment hcomment).withSemicolon ?_
    intro offset hoffset
    split at hoffset
    · exact in_lineFeedOffset? hcomment form hoffset
    · cases hoffset
  | illegal reason text ps =>
    refine ⟨fun x hx => absurd hx List.not_mem_nil, fun c hc => absurd hc List.not_mem_nil, ?_⟩
    intro e he
    obtain rfl := Option.some.inj he
    exact ⟨before, ps.flatMap Piece.text, (List.append_assoc ..).symm, rfl, rfl⟩
  | listed cls text ps hcls ih =>
    have hrest := ih cls.arms (before ++ text)
    rw [Text.size_append, List.append_assoc] at hrest
    have htoken : Lexeme.In (before ++ (text ++ ps.flatMap Piece.text))
        ⟨Text.size before, text⟩ := ⟨before, _, (List.append_assoc ..).symm, rfl, rfl⟩
    rw [overPieces_listed hcls]
    exact hrest.withToken htoken

/-- What a pass finds over a text stands in it. -/
theorem in_passOver (t : Text) : (passOver t).In t := by
  have hpieces := in_overPieces false [] (pieces t)
  rw [List.nil_append, flatMap_text_pieces] at hpieces
  rw [passOver, through_eq_overPieces]
  exact hpieces

end Pass

namespace TokenStream

variable {t : Text}

/-- A stream is what a pass has found. -/
theorem eq_passOver_of_ok {s : TokenStream} (h : ofText t = .ok s) :
    (passOver t).tokens = s.tokens ∧ (passOver t).comments = s.comments := by
  unfold ofText at h
  dsimp only at h
  split at h
  · obtain rfl := Except.ok.inj h
    exact ⟨rfl, rfl⟩
  · exact nomatch h

/-- The error of a text is the one that stopped the pass. -/
theorem error_passOver_of_error {e : LexicalError} (h : ofText t = .error e) :
    (passOver t).error = some e := by
  unfold ofText at h
  dsimp only at h
  split at h
  · exact nomatch h
  · rename_i e' herror
    obtain rfl := Except.error.inj h
    exact herror

end TokenStream

/-! ## Nodes -/

namespace Span

variable {file : SourceFile}

/-- From one lexeme of a file to a later one there is a valid span, and joining theirs gives it. -/
theorem cover_of_le {first last : Lexeme} (hfirst : first.In file.content)
    (hlast : last.In file.content) (hle : first.stop ≤ last.start) :
    (cover file first last).Valid ∧
      (first.span file).join? (last.span file) = some (cover file first last) := by
  have hstart := hfirst.le
  have hstop := hlast.le
  have hbounds : first.start ≤ last.stop := by omega
  have hvalid : (cover file first last).Valid :=
    ⟨hbounds, hfirst.valid.2.1, hlast.valid.2.2⟩
  have hjoin := Valid.join?_eq hfirst.valid hlast.valid rfl
  exact ⟨hvalid, hjoin.trans (ofBounds?_of_valid hvalid)⟩

end Span

/-- The span of a package clause, put together from those of its parts. -/
def PackageClause.joined? (file : SourceFile) (c : PackageClause) : Option Span :=
  (c.keyword.span file).join? (c.name.span file)

/-- The span of a spec, put together from those of its parts. -/
def ImportSpec.joined? (file : SourceFile) (s : ImportSpec) : Option Span :=
  match s.name with
  | none => some (s.path.lexeme.span file)
  | some name => (name.lexeme.span file).join? (s.path.lexeme.span file)

/-- The span of an import declaration, put together from those of its parts. -/
def ImportDeclaration.joined? (file : SourceFile) (d : ImportDeclaration) : Option Span :=
  match d.body with
  | .single spec => (spec.joined? file).bind (d.keyword.span file).join?
  | .group _ _ closing => (d.keyword.span file).join? (closing.span file)

namespace Node

/-- The span of a node. -/
def span (file : SourceFile) : Node → Span
  | clause c => c.span file
  | declaration d => d.span file
  | spec s => s.span file

/-- The span of a node, put together from those of its parts. -/
def joined? (file : SourceFile) : Node → Option Span
  | clause c => c.joined? file
  | declaration d => d.joined? file
  | spec s => s.joined? file

/-- The span of a node is a span of the file. -/
theorem file_span (file : SourceFile) (n : Node) : (n.span file).file = file := by
  cases n with
  | clause c => rfl
  | declaration d =>
    obtain ⟨keyword, body, terminator⟩ := d
    cases body <;> rfl
  | spec s => rfl

variable {file : SourceFile}

/-- A spec whose leaves stand in the content in order has a valid span, from its name, if it has
one, to its path. -/
theorem span_spec {s : ImportSpec} (hin : ∀ t ∈ s.leaves, t.lexeme.In file.content)
    (horder : s.leaves.Pairwise fun a b => a.stop ≤ b.start) :
    (s.span file).Valid ∧ s.joined? file = some (s.span file) := by
  obtain ⟨name, path⟩ := s
  cases name with
  | none =>
    have hpath : path.lexeme.In file.content := hin path.token List.mem_cons_self
    exact ⟨hpath.valid, rfl⟩
  | some name =>
    have htoken : name.token.lexeme = name.lexeme := by cases name <;> rfl
    have hname := hin name.token List.mem_cons_self
    have hpath := hin path.token (List.mem_cons_of_mem _ List.mem_cons_self)
    have hle := List.rel_of_pairwise_cons horder List.mem_cons_self
    rw [Token.stop] at hle
    rw [htoken] at hname hle
    exact Span.cover_of_le hname hpath hle

/-- A declaration whose leaves stand in the content in order has a valid span, from its keyword to
the end of its body. -/
theorem span_declaration {d : ImportDeclaration} (hin : ∀ t ∈ d.leaves, t.lexeme.In file.content)
    (horder : d.leaves.Pairwise fun a b => a.stop ≤ b.start) :
    (d.span file).Valid ∧ d.joined? file = some (d.span file) := by
  have hkeyword := hin _ List.mem_cons_self
  have hlater {t : Token} (ht : t ∈ d.body.leaves) :
      t.lexeme.In file.content ∧ d.keyword.stop ≤ t.start := by
    have hmem : t ∈ d.body.leaves ++ terminatorLeaves d.terminator := List.mem_append_left _ ht
    exact ⟨hin t (List.mem_cons_of_mem _ hmem), List.rel_of_pairwise_cons horder hmem⟩
  cases hbody : d.body with
  | single spec =>
    have hspecs : spec ∈ d.specs := by simp [ImportDeclaration.specs, hbody, ImportBody.specs]
    have hsublist := leaves_sublist_of_mem_specs hspecs
    obtain ⟨-, hspec⟩ := span_spec (fun t ht => hin t (hsublist.subset ht))
      (horder.sublist hsublist)
    have hpath : spec.path.token ∈ d.body.leaves := by
      rw [hbody]
      exact List.mem_append_right _ List.mem_cons_self
    obtain ⟨hlast, hle⟩ := hlater hpath
    rw [ImportDeclaration.span, ImportDeclaration.joined?, hbody]
    dsimp only
    -- the join looks at where the spec ends only, which is where its path ends
    rw [hspec, Option.bind_some]
    exact Span.cover_of_le hkeyword hlast hle
  | group opening specs closing =>
    have hclosing : ⟨.punctuation .rightParen, closing⟩ ∈ d.body.leaves := by
      rw [hbody]
      exact List.mem_append_right _ List.mem_cons_self
    obtain ⟨hlast, hle⟩ := hlater hclosing
    rw [ImportDeclaration.span, ImportDeclaration.joined?, hbody]
    exact Span.cover_of_le hkeyword hlast hle

/-- The span of a node whose leaves stand in the file in order is valid, and it is what joining the
spans of its parts gives. -/
theorem span_of_leaves {n : Node} (hin : ∀ t ∈ n.leaves, t.lexeme.In file.content)
    (horder : n.leaves.Pairwise fun a b => a.stop ≤ b.start) :
    (n.span file).Valid ∧ n.joined? file = some (n.span file) := by
  cases n with
  | clause c =>
    have hkeyword := hin _ List.mem_cons_self
    have hname := hin _ (List.mem_cons_of_mem _ List.mem_cons_self)
    exact Span.cover_of_le hkeyword hname (List.rel_of_pairwise_cons horder List.mem_cons_self)
  | declaration d => exact span_declaration hin horder
  | spec s => exact span_spec hin horder

/-- The nodes of a tokenized file have valid spans. -/
theorem Returned.span_valid {stream : TokenStream}
    (hstream : TokenStream.ofText file.content = .ok stream) {n : Node}
    (hn : Returned stream.tokens n) :
    (n.span file).Valid ∧ n.joined? file = some (n.span file) := by
  have hleaves := hn.leaves_sublist
  have hfound := Pass.in_passOver file.content
  obtain ⟨htokens, -⟩ := TokenStream.eq_passOver_of_ok hstream
  have hin : ∀ t ∈ n.leaves, t.lexeme.In file.content := by
    intro t ht
    apply hfound.tokens
    rw [htokens]
    exact hleaves.subset ht
  have horder : Ordered stream.tokens := TokenStream.ordered_of_ok hstream
  exact span_of_leaves hin (List.Pairwise.sublist hleaves horder)

end Node

namespace Span

/-- The spans that can be obtained from a file. -/
inductive Obtained (file : SourceFile) : Span → Prop
  | ofBounds {start stop : Nat} {s : Span} (h : ofBounds? file start stop = some s) :
    Obtained file s
  | empty {offset : Nat} {s : Span} (h : empty? file offset = some s) : Obtained file s
  | toEnd {start : Nat} {s : Span} (h : toEnd? file start = some s) : Obtained file s
  | join {a b s : Span} (ha : Obtained file a) (hb : Obtained file b) (h : a.join? b = some s) :
    Obtained file s
  | read {c after : Cursor} {x : Token} (hc : Cursor.Reached file.content c)
    (h : c.token = (.ok x, after)) : Obtained file (x.span file)
  | token {stream : TokenStream} (h : TokenStream.ofText file.content = .ok stream) {x : Token}
    (hx : x ∈ stream.tokens) : Obtained file (x.span file)
  | comment {stream : TokenStream} (h : TokenStream.ofText file.content = .ok stream) {c : Comment}
    (hc : c ∈ stream.comments) : Obtained file (c.lexeme.span file)
  | error {e : LexicalError} (h : TokenStream.ofText file.content = .error e) :
    Obtained file (e.lexeme.span file)
  | node {stream : TokenStream} (h : TokenStream.ofText file.content = .ok stream) {n : Node}
    (hn : Node.Returned stream.tokens n) : Obtained file (n.span file)

/-- A span that can be obtained from a file is a valid span of it. -/
theorem Obtained.valid {file : SourceFile} {s : Span} (h : Obtained file s) :
    s.file = file ∧ s.Valid := by
  have hfound := Pass.in_passOver file.content
  induction h with
  | ofBounds h =>
    obtain ⟨hvalid, rfl⟩ := valid_of_ofBounds? h
    exact ⟨rfl, hvalid⟩
  | empty h =>
    obtain ⟨hvalid, rfl⟩ := valid_of_ofBounds? h
    exact ⟨rfl, hvalid⟩
  | toEnd h =>
    obtain ⟨hvalid, rfl⟩ := valid_of_ofBounds? h
    exact ⟨rfl, hvalid⟩
  | join ha hb h iha ihb =>
    obtain ⟨hfile, ha⟩ := iha
    obtain ⟨hfile', hb⟩ := ihb
    rw [ha.join?_eq hb (hfile'.trans hfile.symm)] at h
    obtain ⟨hvalid, rfl⟩ := valid_of_ofBounds? h
    exact ⟨hfile, hvalid⟩
  | read hc h =>
    obtain ⟨-, -, hbetween⟩ := hc.inText.between_token h
    exact ⟨rfl, hbetween.valid⟩
  | token h hx =>
    rw [← (TokenStream.eq_passOver_of_ok h).1] at hx
    exact ⟨rfl, (hfound.tokens _ hx).valid⟩
  | comment h hc =>
    rw [← (TokenStream.eq_passOver_of_ok h).2] at hc
    exact ⟨rfl, (hfound.comments _ hc).valid⟩
  | error h =>
    exact ⟨rfl, (hfound.error _ (TokenStream.error_passOver_of_error h)).valid⟩
  | node h hn => exact ⟨Node.file_span file _, (hn.span_valid h).1⟩

end Span

/-- What holds of the spans of a file. -/
structure SourceFile.SpansHold (file : SourceFile) : Prop where
  /-- Every span is valid, so its bounds are places in the content, in order. -/
  valid : ∀ s, Span.Obtained file s → s.file = file ∧ s.Valid ∧ s.stop ≤ Text.size file.content
  /-- Its text is what stands between its bounds. -/
  text : ∀ s, Span.Obtained file s → Text.Between file.content s.start s.stop s.text
  /-- It starts at a location of the file. -/
  position : ∀ s, Span.Obtained file s → ∃ l, file.location? s.start = some l ∧
    s.position = ⟨file.name, l⟩ ∧ 1 ≤ l.line ∧ 1 ≤ l.column
  /-- To join two spans is to check the bounds that this gives. -/
  join : ∀ a b, Span.Obtained file a → Span.Obtained file b →
    a.join? b = Span.ofBounds? file a.start b.stop
  /-- The offsets before and after a token that is read pass the check, and bound its span. -/
  read : ∀ c x after, Cursor.Reached file.content c → c.token = (.ok x, after) →
    Span.ofBounds? file c.offset after.offset = some (x.span file)
  /-- The offset of a token without text passes the check, even if the pass is stopped later. -/
  inserted : ∀ x ∈ (passOver file.content).tokens, x.text = [] →
    Span.empty? file x.start = some (x.span file)
  /-- The spans of the parts of a node can be joined, and give its span. -/
  node : ∀ stream n, TokenStream.ofText file.content = .ok stream →
    Node.Returned stream.tokens n → n.joined? file = some (n.span file)

/-- **Every span is valid.** However a span of a file is obtained, it is valid, and no check of its
bounds fails on the way. -/
theorem SourceFile.spansHold (file : SourceFile) : file.SpansHold where
  valid s hs := by
    obtain ⟨hfile, hvalid⟩ := hs.valid
    have hle := hvalid.stop_le
    rw [hfile] at hle
    exact ⟨hfile, hvalid, hle⟩
  text s hs := by
    obtain ⟨rfl, hvalid⟩ := hs.valid
    exact hvalid.between
  position s hs := by
    obtain ⟨rfl, hvalid⟩ := hs.valid
    exact hvalid.exists_location
  join a b ha hb := by
    obtain ⟨rfl, hvalid⟩ := ha.valid
    obtain ⟨hfile, hvalid'⟩ := hb.valid
    exact hvalid.join?_eq hvalid' hfile
  read c x after hc h := by
    obtain ⟨hstart, hstop, hbetween⟩ := hc.inText.between_token h
    rw [← hstart, ← hstop]
    exact Span.ofBounds?_of_valid hbetween.valid
  inserted x hx htext := by
    have hin := (Pass.in_passOver file.content).tokens x hx
    have htext' : x.lexeme.text = [] := htext
    have hstop : x.lexeme.stop = x.start := by
      rw [Lexeme.stop, htext']
      rfl
    have hvalid := Span.ofBounds?_of_valid hin.valid
    rw [hstop] at hvalid
    rw [Token.span, Lexeme.span, hstop]
    exact hvalid
  node stream n h hn := (hn.span_valid h).2

/-- A declaration on the second line of a file, whose path has a character of two bytes. -/
theorem SourceFile.spansHold_declaration :
    ∃ s, Span.Obtained
        (.ofText "a" ['\n', 'i', 'm', 'p', 'o', 'r', 't', '.', '\x22', 'é', '\x22']) s ∧
      s.start = 1 ∧ s.stop = 12 ∧
      Text.Between ['\n', 'i', 'm', 'p', 'o', 'r', 't', '.', '\x22', 'é', '\x22'] s.start s.stop
        s.text ∧
      1 ≤ s.position.location.line ∧ 1 ≤ s.position.location.column := by
  have hok : TokenStream.ofText (ofText "a"
      ['\n', 'i', 'm', 'p', 'o', 'r', 't', '.', '\x22', 'é', '\x22']).content =
      .ok ⟨[⟨.keyword .kwImport, 1, ['i', 'm', 'p', 'o', 'r', 't']⟩,
        ⟨.punctuation .period, 7, ['.']⟩,
        ⟨.stringLiteral .interpreted, 8, ['\x22', 'é', '\x22']⟩, endOfFile 12], []⟩ := by cbv
  have hdeclaration : Parser.importDeclaration (.ofTokens
      [⟨.keyword .kwImport, 1, ['i', 'm', 'p', 'o', 'r', 't']⟩, ⟨.punctuation .period, 7, ['.']⟩,
        ⟨.stringLiteral .interpreted, 8, ['\x22', 'é', '\x22']⟩, endOfFile 12]) =
      (.ok ⟨⟨1, ['i', 'm', 'p', 'o', 'r', 't']⟩,
        .single ⟨some (.dot ⟨7, ['.']⟩), ⟨.interpreted, 8, ['\x22', 'é', '\x22']⟩⟩, none⟩,
        ⟨3, [endOfFile 12]⟩) := by cbv
  have hobtained := Span.Obtained.node hok (Node.Returned.declaration .start hdeclaration)
  have hold := spansHold
    (ofText "a" ['\n', 'i', 'm', 'p', 'o', 'r', 't', '.', '\x22', 'é', '\x22'])
  obtain ⟨l, -, hposition, hline, hcolumn⟩ := hold.position _ hobtained
  refine ⟨_, hobtained, rfl, rfl, hold.text _ hobtained, ?_⟩
  rw [hposition]
  exact ⟨hline, hcolumn⟩

end Frontend
