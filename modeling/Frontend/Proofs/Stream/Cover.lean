import Frontend.Proofs.Stream.Layout

/-!
# What a stream covers

The tokens and comments of a stream are all there is of its text, apart from white space and line
feeds: `Covers` says that nothing else is left out and nothing is counted twice. The tokens and the
comments are kept in two lists, so they are first brought together as the tokens at their places.
-/

namespace Frontend

namespace LaidOut

/-- A list that is laid out starts with its first word. -/
theorem exists_cons {source : Text} {t : Token} {words tokens : List Token}
    (h : LaidOut source (t :: words) tokens) : ∃ rest, tokens = t :: rest := by
  cases h with
  | last => exact ⟨[], rfl⟩
  | next hgap h => exact ⟨_, rfl⟩

/-- The tokens of a list that is laid out stand one after another, the inserted ones included. -/
theorem isChain {source : Text} {words tokens : List Token} (h : LaidOut source words tokens) :
    tokens.IsChain fun a b => a.stop ≤ b.start := by
  induction h with
  | last t => exact List.isChain_singleton t
  | @next a b words tokens gap hgap h ih =>
    obtain ⟨rest, rfl⟩ := h.exists_cons
    have hle := hgap.le
    unfold semicolonIn
    split
    · -- the semicolon stands at the first line feed, which is inside the gap
      have hline : Text.size (gap.takeWhile (· ≠ '\n')) ≤ Text.size gap := by
        conv => rhs; rw [← List.takeWhile_append_dropWhile (p := (· ≠ '\n')) (l := gap)]
        rw [Text.size_append]
        omega
      obtain ⟨_, _, _, _, hstop⟩ := hgap
      refine List.isChain_cons_cons.mpr ⟨?_, List.isChain_cons_cons.mpr ⟨?_, ih⟩⟩
      · rw [start_insertedSemicolon]
        omega
      · rw [stop_insertedSemicolon]
        omega
    · exact List.isChain_cons_cons.mpr ⟨hle, ih⟩

end LaidOut

/-- Tokens that stand one after another. -/
def Ordered (tokens : List Token) : Prop :=
  tokens.Pairwise fun a b => a.stop ≤ b.start

/-- A token does not stop before it starts. -/
theorem Token.start_le_stop (t : Token) : t.start ≤ t.stop :=
  Nat.le_add_right _ _

/-- The tokens of a stream stand one after another. -/
theorem TokenStream.ordered_of_ok {t : Text} {s : TokenStream} (h : ofText t = .ok s) :
    Ordered s.tokens := by
  have htrans : Trans (fun a b : Token => a.stop ≤ b.start)
      (fun a b : Token => a.stop ≤ b.start) (fun a b : Token => a.stop ≤ b.start) := by
    constructor
    intro a b c hab hbc
    have hb := b.start_le_stop
    omega
  exact (laidOut_of_ok h).isChain.pairwise

/-- A token that is neither listed nor illegal is a comment. -/
theorem Token.exists_comment {t : Token} (hlisted : ¬t.isListed = true)
    (hlegal : t.lexicalError? = none) : ∃ form, t.cls = .comment form := by
  unfold Token.isListed TokenClass.isListed at hlisted
  split at hlisted
  · rename_i form hcls
    exact ⟨form, hcls⟩
  · rename_i reason hcls
    simp [Token.lexicalError?, hcls] at hlegal
  · exact absurd rfl hlisted

/-- A token that a stream lists is neither illegal nor a comment. -/
theorem Token.legal_of_isListed {t : Token} (h : t.isListed = true) :
    (∀ reason, t.cls ≠ .illegal reason) ∧ ∀ form, t.cls ≠ .comment form := by
  unfold Token.isListed at h
  constructor
  · intro reason hcls
    rw [hcls] at h
    exact nomatch h
  · intro form hcls
    rw [hcls] at h
    exact nomatch h

/-- A comment is the text of the token it is. -/
theorem Token.lexeme_of_comment? {t : Token} {c : Comment} (h : t.comment? = some c) :
    c.lexeme = t.lexeme := by
  unfold Token.comment? at h
  split at h
  · obtain rfl := Option.some.inj h
    rfl
  · exact nomatch h

namespace TokenStream

/-- The texts that a stream was read from: those of its tokens, apart from inserted semicolons and
the end of the file, and those of its comments. -/
def lexemes (s : TokenStream) : List Lexeme :=
  (s.written.filter fun t => t.cls ≠ .endOfFile).map Token.lexeme ++ s.comments.map Comment.lexeme

/-- The tokens and comments of a stream are its file, apart from white space and line feeds. -/
structure Covers (file : SourceFile) (s : TokenStream) : Prop where
  /-- Every token and comment has a valid span and is the text of it. -/
  spans : ∀ l ∈ s.lexemes, (l.span file).Valid ∧ (l.span file).text = l.text
  /-- None of them is empty. -/
  start_lt_stop : ∀ l ∈ s.lexemes, l.start < l.stop
  /-- No two of them share a character. -/
  disjoint : s.lexemes.Pairwise fun a b => a.stop ≤ b.start ∨ b.stop ≤ a.start
  /-- A character of none of them is a space, a tab, a carriage return or a line feed. -/
  blank : ∀ before c after, file.content = before ++ c :: after →
    (∀ l ∈ s.lexemes, Text.size before < l.start ∨ l.stop ≤ Text.size before) →
      c ∈ [' ', '\t', '\r', '\n']
  /-- The tokens stand one after another, the inserted ones included. -/
  tokens_ordered : s.tokens.IsChain fun a b => a.stop ≤ b.start
  /-- The comments stand one after another. -/
  comments_ordered : s.comments.Pairwise fun a b => a.lexeme.start < b.lexeme.start
  /-- No token is illegal or a comment. -/
  legal : ∀ t ∈ s.tokens, (∀ reason, t.cls ≠ .illegal reason) ∧ ∀ form, t.cls ≠ .comment form
  /-- The end of the file is the last token and no other. -/
  ending : ∃ front, s.tokens = front ++ [endOfFile (Text.size file.content)] ∧
    ∀ t ∈ front, t.cls ≠ .endOfFile

/-- The comments among tokens without illegal ones are the tokens that are not listed. -/
private theorem lexeme_filterMap_comment? {tokens : List Token}
    (h : ∀ t ∈ tokens, t.lexicalError? = none) :
    (tokens.filterMap Token.comment?).map Comment.lexeme =
      (tokens.filter fun t => !t.isListed).map Token.lexeme := by
  induction tokens with
  | nil => rfl
  | cons t tokens ih =>
    have hrest := ih fun x hx => h x (List.mem_cons_of_mem _ hx)
    by_cases hlisted : t.isListed = true
    · rw [List.filterMap_cons, Token.comment?_of_isListed hlisted,
        List.filter_cons_of_neg (by simp [hlisted]), hrest]
    · obtain ⟨form, hcls⟩ := t.exists_comment hlisted (h t List.mem_cons_self)
      rw [List.filterMap_cons, List.filter_cons_of_pos (by simp [hlisted])]
      simp only [Token.comment?, hcls, List.map_cons, hrest]

/-- Every token of a text covers text. -/
private theorem start_lt_stop_of_mem_placed {t : Text} {x : Token}
    (h : x ∈ Piece.placed 0 (pieces t)) : x.start < x.stop := by
  have hsound := sound_of_mem_pieces (Piece.mem_of_mem_placed h)
  have hpos := Text.size_pos hsound.1
  simp only [Token.start, Token.stop, Token.text, Lexeme.stop] at hpos ⊢
  omega

/-- No token of a text is the end of the file. -/
private theorem ne_endOfFile_of_mem_placed {t : Text} {x : Token}
    (h : x ∈ Piece.placed 0 (pieces t)) : x.cls ≠ .endOfFile :=
  (sound_of_mem_pieces (Piece.mem_of_mem_placed h)).2.1

/-- The lexemes of a stream are those of the tokens of its text. -/
theorem lexemes_perm_of_ok {t : Text} {s : TokenStream} (h : ofText t = .ok s) :
    s.lexemes.Perm ((Piece.placed 0 (pieces t)).map Token.lexeme) := by
  obtain ⟨herror, _, hcomments⟩ := eq_overPieces_of_ok h
  have hlegal : ∀ x ∈ Piece.placed 0 (pieces t), x.lexicalError? = none := by
    rw [Pass.error_overPieces] at herror
    exact List.findSome?_eq_none_iff.mp herror
  have htokens : (s.written.filter fun x => x.cls ≠ .endOfFile) =
      (Piece.placed 0 (pieces t)).filter Token.isListed := by
    have hkept : ((Piece.placed 0 (pieces t)).filter Token.isListed).filter
        (fun x => x.cls ≠ .endOfFile) = (Piece.placed 0 (pieces t)).filter Token.isListed := by
      apply List.filter_eq_self.mpr
      intro x hx
      simpa using ne_endOfFile_of_mem_placed (List.mem_filter.mp hx).1
    rw [written_of_ok h, List.filter_append, hkept]
    exact List.append_nil _
  rw [lexemes, htokens, hcomments, Pass.comments_overPieces herror,
    lexeme_filterMap_comment? hlegal, ← List.map_append]
  exact (List.filter_append_perm Token.isListed _).map _

/-- The comments of a stream stand one after another. -/
private theorem comments_ordered_of_ok {t : Text} {s : TokenStream} (h : ofText t = .ok s) :
    s.comments.Pairwise fun a b => a.lexeme.start < b.lexeme.start := by
  obtain ⟨herror, _, hcomments⟩ := eq_overPieces_of_ok h
  rw [hcomments, Pass.comments_overPieces herror, List.pairwise_filterMap]
  refine (Piece.pairwise_placed (pieces t) 0).imp_of_mem ?_
  intro a b ha _ hle c hc d hd
  have hlt := start_lt_stop_of_mem_placed ha
  rw [Token.lexeme_of_comment? hc, Token.lexeme_of_comment? hd]
  exact Nat.lt_of_lt_of_le hlt hle

/-- The end of the file is the last token of a stream and no other. -/
theorem ending_of_ok {t : Text} {s : TokenStream} (h : ofText t = .ok s) :
    ∃ front, s.tokens = front ++ [endOfFile (Text.size t)] ∧
      ∀ x ∈ front, x.cls ≠ .endOfFile := by
  obtain ⟨front, htokens, hfront⟩ := exists_front_of_ok h
  refine ⟨front, htokens, ?_⟩
  intro x hx
  rcases hfront x hx with hlisted | ⟨offset, rfl⟩
  · exact ne_endOfFile_of_mem_placed (List.mem_filter.mp hlisted).1
  · exact nofun

/-- **Nothing is dropped or counted twice.** The tokens and comments of a stream are its text, apart
from white space and line feeds. -/
theorem covers_of_ok {file : SourceFile} {s : TokenStream} (h : ofText file.content = .ok s) :
    s.Covers file := by
  have hperm := lexemes_perm_of_ok h
  have hplaced : ∀ l ∈ s.lexemes, ∃ x ∈ Piece.placed 0 (pieces file.content), x.lexeme = l :=
    fun l hl => List.mem_map.mp (hperm.subset hl)
  have hspans : ∀ l ∈ s.lexemes, (l.span file).Valid ∧ (l.span file).text = l.text := by
    intro l hl
    obtain ⟨x, hx, rfl⟩ := hplaced l hl
    obtain ⟨before, after, htext, hstart⟩ := Piece.between_of_mem_placed hx
    rw [flatMap_text_pieces] at htext
    rw [Nat.zero_add] at hstart
    have hbetween : Text.Between file.content x.lexeme.start x.lexeme.stop x.lexeme.text :=
      ⟨before, after, htext, hstart, rfl⟩
    exact ⟨hbetween.valid, hbetween.slice_eq⟩
  refine ⟨hspans, ?_, ?_, ?_, (laidOut_of_ok h).isChain, comments_ordered_of_ok h, ?_,
    ending_of_ok h⟩
  · intro l hl
    obtain ⟨x, hx, rfl⟩ := hplaced l hl
    exact start_lt_stop_of_mem_placed hx
  · -- tokens and comments are listed apart, so disjointness is carried over in its symmetric form
    have hsymm : ∀ {a b : Lexeme}, (a.stop ≤ b.start ∨ b.stop ≤ a.start) →
        (b.stop ≤ a.start ∨ a.stop ≤ b.start) := fun h => h.symm
    refine (hperm.pairwise_iff hsymm).mpr ?_
    rw [List.pairwise_map]
    exact (Piece.pairwise_placed (pieces file.content) 0).imp fun hle => .inl hle
  · intro before c after hsource huncovered
    have hgap : isGap c = true := by
      refine Piece.isGap_of_uncovered (fun p hp => sound_of_mem_pieces hp) 0
        ((flatMap_text_pieces file.content).trans hsource) ?_
      intro x hx
      rw [Nat.zero_add]
      exact huncovered x.lexeme (hperm.symm.subset (List.mem_map_of_mem hx))
    simpa [isGap, isBlank, or_assoc] using hgap
  · intro x hx
    obtain ⟨front, htokens, hfront⟩ := exists_front_of_ok h
    rw [htokens] at hx
    rcases List.mem_append.mp hx with hx | hx
    · rcases hfront x hx with hlisted | ⟨offset, rfl⟩
      · exact Token.legal_of_isListed (List.mem_filter.mp hlisted).2
      · exact Token.legal_of_isListed rfl
    · rw [List.mem_singleton.mp hx]
      exact Token.legal_of_isListed rfl

/-- What a stream covers where a comment, an inserted semicolon, blanks and a character of two bytes
meet. -/
theorem covers_of_ok_comment :
    ∃ s, ofText ['\t', 'x', '/', '/', '/', '\r', '\n', '\x22', 'é', '\x22', ' '] = .ok s ∧
      s.lexemes = [⟨1, ['x']⟩, ⟨7, ['\x22', 'é', '\x22']⟩, ⟨2, ['/', '/', '/']⟩] ∧
      s.Covers (SourceFile.ofText "comment"
        ['\t', 'x', '/', '/', '/', '\r', '\n', '\x22', 'é', '\x22', ' ']) :=
  ⟨⟨[⟨.identifier, 1, ['x']⟩, insertedSemicolon 6,
      ⟨.stringLiteral .interpreted, 7, ['\x22', 'é', '\x22']⟩, endOfFile 12],
      [⟨.line, 2, ['/', '/', '/']⟩]⟩,
    by cbv, by cbv, covers_of_ok (by cbv)⟩

end TokenStream

end Frontend
