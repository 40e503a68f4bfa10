import Frontend.Proofs.Stream.Pieces
import Frontend.Proofs.Text.Between

/-!
# Tokens at their places

The tokens among the pieces of a text stand one after another, each of them where its text is, and
what is left between them is gaps. A pass finds exactly these tokens: its error is the first illegal
one, its comments are the comments, and without the semicolons it inserted its tokens are the others
and the end of the file.
-/

namespace Frontend

/-- Whether the token was inserted: a delimiter that covers no text. -/
def Token.isInserted (t : Token) : Bool :=
  match t.cls with
  | .punctuation _ => t.text.isEmpty
  | _ => false

/-- Whether a token stream lists the token. -/
def Token.isListed (t : Token) : Bool :=
  t.cls.isListed

/-- The token as a lexical error, if it is illegal. -/
def Token.lexicalError? (t : Token) : Option LexicalError :=
  match t.cls with
  | .illegal reason => some ⟨reason, t.lexeme⟩
  | _ => none

/-- The token as a comment, if it is one. -/
def Token.comment? (t : Token) : Option Comment :=
  match t.cls with
  | .comment form => some ⟨form, t.lexeme⟩
  | _ => none

/-- A listed token is no error. -/
theorem Token.lexicalError?_of_isListed {t : Token} (h : t.isListed = true) :
    t.lexicalError? = none := by
  unfold lexicalError?
  split
  · rename_i reason hcls
    rw [isListed, hcls] at h
    exact nomatch h
  · rfl

/-- A listed token is no comment. -/
theorem Token.comment?_of_isListed {t : Token} (h : t.isListed = true) :
    t.comment? = none := by
  unfold comment?
  split
  · rename_i form hcls
    rw [isListed, hcls] at h
    exact nomatch h
  · rfl

/-- A token that covers text was not inserted. -/
theorem Token.isInserted_of_text_ne_nil {t : Token} (h : t.text ≠ []) : t.isInserted = false := by
  unfold isInserted
  split
  · exact List.isEmpty_eq_false_iff.mpr h
  · rfl

/-- The tokens that were not inserted. -/
def TokenStream.written (s : TokenStream) : List Token :=
  s.tokens.filter fun t => !t.isInserted

namespace Piece

/-- The size of the text of pieces is that of the first one and of the others. -/
theorem size_flatMap_cons (p : Piece) (ps : List Piece) :
    Text.size ((p :: ps).flatMap text) = Text.size p.text + Text.size (ps.flatMap text) := by
  rw [List.flatMap_cons, Text.size_append]

/-- A token among pieces stands where its text is. -/
theorem between_of_mem_placed {ps : List Piece} {offset : Nat} {t : Token}
    (h : t ∈ placed offset ps) :
    ∃ before after, ps.flatMap text = before ++ t.text ++ after ∧
      offset + Text.size before = t.start := by
  induction ps generalizing offset with
  | nil => simp [placed] at h
  | cons p ps ih =>
    cases p with
    | gap c =>
      obtain ⟨before, after, htext, hstart⟩ := ih h
      refine ⟨c :: before, after, ?_, ?_⟩
      · rw [List.flatMap_cons, htext]
        rfl
      · rw [← hstart, Text.size_cons]
        omega
    | token cls word =>
      rcases List.mem_cons.mp h with rfl | h
      · exact ⟨[], ps.flatMap text, rfl, rfl⟩
      · obtain ⟨before, after, htext, hstart⟩ := ih h
        refine ⟨word ++ before, after, ?_, ?_⟩
        · rw [List.flatMap_cons, htext]
          simp only [text, List.append_assoc]
        · rw [← hstart, Text.size_append]
          omega

/-- A token among pieces is one of them. -/
theorem mem_of_mem_placed {ps : List Piece} {offset : Nat} {t : Token}
    (h : t ∈ placed offset ps) : .token t.cls t.text ∈ ps := by
  induction ps generalizing offset with
  | nil => simp [placed] at h
  | cons p ps ih =>
    cases p with
    | gap c => exact List.mem_cons_of_mem _ (ih h)
    | token cls word =>
      rcases List.mem_cons.mp h with rfl | h
      · exact List.mem_cons_self
      · exact List.mem_cons_of_mem _ (ih h)

/-- A token among pieces has a place. -/
theorem exists_mem_placed {ps : List Piece} {cls : TokenClass} {text : Text} (offset : Nat)
    (h : .token cls text ∈ ps) : ∃ start, ⟨cls, start, text⟩ ∈ placed offset ps := by
  induction ps generalizing offset with
  | nil => exact absurd h List.not_mem_nil
  | cons p ps ih =>
    rcases List.mem_cons.mp h with rfl | hrest
    · exact ⟨offset, List.mem_cons_self⟩
    · cases p with
      | gap c => exact ih _ hrest
      | token other word =>
        obtain ⟨start, hstart⟩ := ih (offset + Text.size word) hrest
        exact ⟨start, List.mem_cons_of_mem _ hstart⟩

/-- No token among pieces starts before the first piece. -/
theorem le_start_of_mem_placed {ps : List Piece} {offset : Nat} {t : Token}
    (h : t ∈ placed offset ps) : offset ≤ t.start := by
  obtain ⟨before, after, _, hstart⟩ := between_of_mem_placed h
  omega

/-- Tokens among pieces stand one after another. -/
theorem pairwise_placed (ps : List Piece) (offset : Nat) :
    (placed offset ps).Pairwise fun a b => a.stop ≤ b.start := by
  induction ps generalizing offset with
  | nil => exact List.Pairwise.nil
  | cons p ps ih =>
    cases p with
    | gap c => exact ih _
    | token cls word =>
      refine List.Pairwise.cons ?_ (ih _)
      intro t ht
      exact le_start_of_mem_placed ht

/-- A character of a joined text stands in the second part, or in the first. -/
private theorem character_of_append {a b before after : Text} {c : Char}
    (h : a ++ b = before ++ c :: after) :
    (∃ skipped, before = a ++ skipped ∧ b = skipped ++ c :: after) ∨
      ∃ covered, a = before ++ c :: covered := by
  rcases List.append_eq_append_iff.mp h with ⟨skipped, hbefore, hb⟩ | ⟨covered, ha, hcovered⟩
  · exact .inl ⟨skipped, hbefore, hb⟩
  · cases covered with
    | nil => exact .inl ⟨[], by simpa using ha.symm, by simpa using hcovered.symm⟩
    | cons x covered =>
      obtain ⟨rfl, -⟩ := List.cons.inj hcovered
      exact .inr ⟨covered, ha⟩

/-- A character that no token covers is a gap. -/
theorem isGap_of_uncovered {ps : List Piece} (hsound : ∀ p ∈ ps, p.Sound) (offset : Nat)
    {before after : Text} {c : Char} (htext : ps.flatMap text = before ++ c :: after)
    (h : ∀ t ∈ placed offset ps,
      offset + Text.size before < t.start ∨ t.stop ≤ offset + Text.size before) :
    isGap c = true := by
  induction ps generalizing offset before with
  | nil => simp at htext
  | cons p ps ih =>
    have hrest : ∀ p ∈ ps, p.Sound := fun p hp => hsound p (List.mem_cons_of_mem _ hp)
    rw [List.flatMap_cons] at htext
    cases p with
    | gap x =>
      cases before with
      | nil =>
        obtain ⟨rfl, -⟩ := List.cons.inj htext
        exact hsound _ List.mem_cons_self
      | cons y before =>
        obtain ⟨rfl, htail⟩ := List.cons.inj htext
        refine ih hrest (offset + x.utf8Size) htail ?_
        intro t ht
        have hcover := h t ht
        rw [Text.size_cons, ← Nat.add_assoc] at hcover
        exact hcover
    | token cls word =>
      rcases character_of_append htext with ⟨skipped, rfl, htail⟩ | ⟨covered, hword⟩
      · refine ih hrest (offset + Text.size word) htail ?_
        intro t ht
        have hcover := h t (List.mem_cons_of_mem _ ht)
        rw [Text.size_append, ← Nat.add_assoc] at hcover
        exact hcover
      · -- a character inside the word would be covered by the token itself
        have hsize : Text.size word = Text.size before + Text.size (c :: covered) := by
          rw [show word = before ++ c :: covered from hword, Text.size_append]
        have hpos : 0 < Text.size (c :: covered) := Text.size_pos (List.cons_ne_nil c covered)
        have hcover : offset + Text.size before < offset ∨
            offset + Text.size word ≤ offset + Text.size before := h _ List.mem_cons_self
        omega

end Piece

namespace Pass

open Piece

/-- A pass stops at the first illegal token, and only there. -/
theorem error_overPieces (armed : Bool) (offset : Nat) (ps : List Piece) :
    (overPieces armed offset ps).error = (placed offset ps).findSome? Token.lexicalError? := by
  induction ps using Piece.listInduction generalizing armed offset with
  | nil => rfl
  | gap c ps ih =>
    rw [overPieces]
    split
    · rw [error_withSemicolon, ih]
      rfl
    · rw [ih]
      rfl
  | comment form text ps ih =>
    rw [overPieces, error_withSemicolon, error_withComment, ih]
    rfl
  | illegal reason text ps => rfl
  | listed cls text ps hcls ih =>
    have hlisted : Token.isListed ⟨cls, offset, text⟩ = true := hcls
    rw [overPieces_listed hcls, error_withToken, ih, placed, List.findSome?_cons,
      Token.lexicalError?_of_isListed hlisted]

/-- A pass that is not stopped finds the comments. -/
theorem comments_overPieces {armed : Bool} {offset : Nat} {ps : List Piece}
    (h : (overPieces armed offset ps).error = none) :
    (overPieces armed offset ps).comments = (placed offset ps).filterMap Token.comment? := by
  induction ps using Piece.listInduction generalizing armed offset with
  | nil => rfl
  | gap c ps ih =>
    rw [overPieces] at h ⊢
    split at h
    · rename_i hfeed
      rw [error_withSemicolon] at h
      rw [if_pos hfeed, comments_withSemicolon, ih h]
      rfl
    · rename_i hfeed
      rw [if_neg hfeed, ih h]
      rfl
  | comment form text ps ih =>
    rw [overPieces, error_withSemicolon, error_withComment] at h
    rw [overPieces, comments_withSemicolon, comments_withComment, ih h]
    rfl
  | illegal reason text ps => cases h
  | listed cls text ps hcls ih =>
    have hlisted : Token.isListed ⟨cls, offset, text⟩ = true := hcls
    rw [overPieces_listed hcls, error_withToken] at h
    rw [overPieces_listed hcls, comments_withToken, ih h, placed, List.filterMap_cons,
      Token.comment?_of_isListed hlisted]

/-- A pass that is not stopped finds the other tokens and the end of the file, and inserts
semicolons between them. -/
theorem written_overPieces {armed : Bool} {offset : Nat} {ps : List Piece}
    (hsound : ∀ p ∈ ps, p.Sound) (h : (overPieces armed offset ps).error = none) :
    (overPieces armed offset ps).tokens.filter (fun t => !t.isInserted) =
      (placed offset ps).filter Token.isListed ++
        [endOfFile (offset + Text.size (ps.flatMap Piece.text))] := by
  have hsemicolon (feed? : Option Nat) :
      (feed?.map insertedSemicolon).toList.filter (fun t => !t.isInserted) = [] := by
    cases feed? <;> rfl
  induction ps using Piece.listInduction generalizing armed offset with
  | nil => rfl
  | gap c ps ih =>
    have hrest : ∀ p ∈ ps, p.Sound := fun p hp => hsound p (List.mem_cons_of_mem _ hp)
    rw [size_flatMap_cons, ← Nat.add_assoc]
    rw [overPieces] at h ⊢
    split at h
    · rename_i hfeed
      rw [error_withSemicolon] at h
      rw [if_pos hfeed, tokens_withSemicolon, List.filter_append, hsemicolon, ih hrest h]
      rfl
    · rename_i hfeed
      rw [if_neg hfeed, ih hrest h]
      rfl
  | comment form text ps ih =>
    have hrest : ∀ p ∈ ps, p.Sound := fun p hp => hsound p (List.mem_cons_of_mem _ hp)
    rw [size_flatMap_cons, ← Nat.add_assoc]
    rw [overPieces, error_withSemicolon, error_withComment] at h
    rw [overPieces, tokens_withSemicolon, List.filter_append, hsemicolon, tokens_withComment,
      ih hrest h]
    rfl
  | illegal reason text ps => cases h
  | listed cls text ps hcls ih =>
    have hrest : ∀ p ∈ ps, p.Sound := fun p hp => hsound p (List.mem_cons_of_mem _ hp)
    have htext : text ≠ [] := (hsound _ List.mem_cons_self).1
    have hwritten : Token.isInserted ⟨cls, offset, text⟩ = false :=
      Token.isInserted_of_text_ne_nil htext
    have hlisted : Token.isListed ⟨cls, offset, text⟩ = true := hcls
    rw [size_flatMap_cons, ← Nat.add_assoc]
    rw [overPieces_listed hcls, error_withToken] at h
    rw [overPieces_listed hcls, tokens_withToken, List.filter_cons_of_pos (by simp [hwritten]),
      ih hrest h, placed, List.filter_cons_of_pos hlisted]
    rfl

end Pass

namespace TokenStream

/-- The stream of a text holds what a pass over its pieces finds, and nothing stops that pass. -/
theorem eq_overPieces_of_ok {t : Text} {s : TokenStream} (h : ofText t = .ok s) :
    (Pass.overPieces false 0 (pieces t)).error = none ∧
      s.tokens = (Pass.overPieces false 0 (pieces t)).tokens ∧
      s.comments = (Pass.overPieces false 0 (pieces t)).comments := by
  unfold ofText passOver at h
  rw [Pass.through_eq_overPieces] at h
  dsimp only at h
  split at h
  · rename_i herror
    obtain rfl := Except.ok.inj h
    exact ⟨herror, rfl, rfl⟩
  · exact nomatch h

/-- The written tokens of a stream are the listed tokens of its text and the end of the file. -/
theorem written_of_ok {t : Text} {s : TokenStream} (h : ofText t = .ok s) :
    s.written = (Piece.placed 0 (pieces t)).filter Token.isListed ++ [endOfFile (Text.size t)] := by
  obtain ⟨herror, htokens, _⟩ := eq_overPieces_of_ok h
  have hwritten := Pass.written_overPieces (fun p hp => sound_of_mem_pieces hp) herror
  rw [flatMap_text_pieces, Nat.zero_add] at hwritten
  rw [written, htokens, hwritten]

end TokenStream

end Frontend
