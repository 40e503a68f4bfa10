import Mathlib
import Frontend.Proofs.Stream.Placed
import Frontend.Proofs.Token.Reading
import Frontend.Pipeline

/-!
# A pass and the best effort

The best effort reads a text to its end and keeps illegal tokens and comments, where a pass stops at
the first illegal token and keeps the comments apart. Both find the tokens among the pieces of the
text, at their places, so what a pass finds is read off the best effort: everything, if none of it
is illegal, and the first illegal token otherwise.
-/

namespace Frontend

/-- The gaps before a token only move its place. -/
theorem placed_pieces_dropWhile (offset : Nat) (t : Text) :
    Piece.placed offset (pieces t) =
      Piece.placed (offset + Text.size (t.takeWhile isGap)) (pieces (t.dropWhile isGap)) := by
  induction t generalizing offset with
  | nil => rfl
  | cons c t ih =>
    by_cases hgap : isGap c = true
    · rw [pieces_gap hgap, Piece.placed, ih, List.takeWhile_cons_of_pos hgap,
        List.dropWhile_cons_of_pos hgap, Text.size_cons, Nat.add_assoc]
    · rw [List.takeWhile_cons_of_neg hgap, List.dropWhile_cons_of_neg hgap]
      rfl

/-- Reading tokens from a cursor on finds the tokens among the pieces of what is left. -/
theorem Cursor.tokens_eq_placed (c : Cursor) :
    (c.tokens isGap).1.map Prod.fst = Piece.placed c.offset (pieces c.rest) := by
  fun_induction Cursor.tokens isGap c with
  | case1 c e last htoken =>
    rw [placed_pieces_dropWhile, ← rest_walk]
    rcases (c.walk isGap).token_eq with ⟨hrest, -⟩ | ⟨x, t, after, -, hread, -⟩
    · rw [hrest, pieces_nil]
      rfl
    · rw [htoken] at hread
      exact nomatch hread
  | case2 c t after htoken others ih =>
    rw [placed_pieces_dropWhile, ← rest_walk, ← offset_walk]
    rcases (c.walk isGap).token_eq with ⟨-, hread⟩ |
      ⟨x, rest, after', hrest, hread, hafter, hoffset⟩
    · rw [htoken] at hread
      exact nomatch hread
    · obtain ⟨htoken, rfl⟩ := Prod.mk.inj (htoken.symm.trans hread)
      obtain rfl := Except.ok.inj htoken
      -- the walk stops before a character that is no gap
      have hgap : isGap x = false := by
        have hhead := List.head?_dropWhile_not isGap c.rest
        rw [← rest_walk, hrest] at hhead
        simpa using hhead
      rw [hrest, pieces_token hgap, Piece.placed, ← hafter, ← hoffset, ← ih]
      rfl

/-- The best effort finds the tokens among the pieces of a text. -/
theorem bestEffort_eq_placed (t : Text) : bestEffort t = Piece.placed 0 (pieces t) :=
  Cursor.tokens_eq_placed (Cursor.ofText t)

/-- A token is a lexical error if it is of the illegal kind. -/
theorem Token.lexicalError?_eq_none_iff {t : Token} :
    t.lexicalError? = none ↔ t.kind ≠ .illegal := by
  obtain ⟨cls, lexeme⟩ := t
  cases cls with
  | numeric form => cases form <;> simp [lexicalError?, kind, TokenClass.kind]
  | _ => simp [lexicalError?, kind, TokenClass.kind]

/-- Of legal tokens, a stream lists those that are no comments. -/
theorem Token.isListed_iff_of_legal {t : Token} (h : t.kind ≠ .illegal) :
    t.isListed = true ↔ t.kind ≠ .comment := by
  obtain ⟨cls, lexeme⟩ := t
  cases cls with
  | illegal reason => exact absurd rfl h
  | numeric form => cases form <;> simp [isListed, TokenClass.isListed, kind, TokenClass.kind]
  | _ => simp [isListed, TokenClass.isListed, kind, TokenClass.kind]

namespace TokenStream

/-- The first illegal token of the best effort is the error of a text. -/
theorem ofText_eq_error_of_bestEffort {t : Text} {e : LexicalError}
    (h : (bestEffort t).findSome? Token.lexicalError? = some e) : ofText t = .error e := by
  rw [bestEffort_eq_placed, ← Pass.error_overPieces false, ← Pass.through_eq_overPieces] at h
  rw [ofText, passOver, h]

/-- A text in which the best effort finds no illegal token has a token stream. -/
theorem exists_ofText_of_bestEffort {t : Text}
    (h : (bestEffort t).findSome? Token.lexicalError? = none) : ∃ s, ofText t = .ok s := by
  rw [bestEffort_eq_placed, ← Pass.error_overPieces false, ← Pass.through_eq_overPieces] at h
  rw [ofText, passOver, h]
  exact ⟨_, rfl⟩

variable {σ : Type}

/-- **A pass refines the best effort.** If the best effort finds no illegal token, a file has a
token stream, nothing is reported, and the stream holds what the best effort finds: its written
tokens before the end of the file are the tokens that are no comments, and its comments are the
comments.
Otherwise the first illegal token is the error, and it is reported once. -/
theorem tokenize_eq_of_bestEffort (handler : Handler Error σ) (file : SourceFile) (kept : σ) :
    ((∀ x ∈ bestEffort file.content, x.kind ≠ .illegal) →
      ∃ s, file.tokenize handler kept = (.ok s, kept) ∧
        s.written = (bestEffort file.content).filter (fun x => x.kind ≠ .comment) ++
          [endOfFile (Text.size file.content)] ∧
        s.comments = (bestEffort file.content).filterMap Token.comment?) ∧
    ∀ front reason lexeme back,
      bestEffort file.content = front ++ ⟨.illegal reason, lexeme⟩ :: back →
        (∀ x ∈ front, x.kind ≠ .illegal) →
          file.tokenize handler kept =
            (.error ⟨reason, lexeme⟩, handler.receive kept (.lexical file ⟨reason, lexeme⟩)) := by
  constructor
  · intro hlegal
    have hnone : (bestEffort file.content).findSome? Token.lexicalError? = none :=
      List.findSome?_eq_none_iff.mpr fun x hx => Token.lexicalError?_eq_none_iff.mpr (hlegal x hx)
    obtain ⟨s, hs⟩ := exists_ofText_of_bestEffort hnone
    obtain ⟨herror, -, hcomments⟩ := eq_overPieces_of_ok hs
    refine ⟨s, by rw [SourceFile.tokenize, hs], ?_, ?_⟩
    · rw [written_of_ok hs, ← bestEffort_eq_placed]
      congr 1
      apply List.filter_congr
      intro x hx
      exact Bool.eq_iff_iff.mpr (by simpa using Token.isListed_iff_of_legal (hlegal x hx))
    · rw [hcomments, Pass.comments_overPieces herror, bestEffort_eq_placed]
  · intro front reason lexeme back hsplit hfront
    have hnone : front.findSome? Token.lexicalError? = none :=
      List.findSome?_eq_none_iff.mpr fun x hx => Token.lexicalError?_eq_none_iff.mpr (hfront x hx)
    have hsome : (bestEffort file.content).findSome? Token.lexicalError? =
        some ⟨reason, lexeme⟩ := by
      rw [hsplit, List.findSome?_append, hnone]
      rfl
    rw [SourceFile.tokenize, ofText_eq_error_of_bestEffort hsome]

/-- A text with a comment between two words, and one in which two tokens are illegal: the first of
them is reported, though the best effort finds both. -/
theorem tokenize_eq_of_bestEffort_twoIllegal :
    (∃ s, (SourceFile.ofText "legal" ['x', '/', '*', '*', '/', 'y']).tokenize Handler.log [] =
        (.ok s, []) ∧
      s.written = [⟨.identifier, 0, ['x']⟩, ⟨.identifier, 5, ['y']⟩, endOfFile 6]) ∧
    bestEffort ['x', '\n', '0', 'b', ' ', '$'] = [⟨.identifier, 0, ['x']⟩,
      ⟨.illegal .malformedNumber, 2, ['0', 'b']⟩, ⟨.illegal (.unexpected '$'), 5, ['$']⟩] ∧
    (SourceFile.ofText "illegal" ['x', '\n', '0', 'b', ' ', '$']).tokenize Handler.log [] =
      (.error ⟨.malformedNumber, 2, ['0', 'b']⟩,
        [.lexical (SourceFile.ofText "illegal" ['x', '\n', '0', 'b', ' ', '$'])
          ⟨.malformedNumber, 2, ['0', 'b']⟩]) := by
  have hlegal : bestEffort ['x', '/', '*', '*', '/', 'y'] = [⟨.identifier, 0, ['x']⟩,
      ⟨.comment .delimited, 1, ['/', '*', '*', '/']⟩, ⟨.identifier, 5, ['y']⟩] := by cbv
  have hillegal : bestEffort ['x', '\n', '0', 'b', ' ', '$'] = [⟨.identifier, 0, ['x']⟩,
      ⟨.illegal .malformedNumber, 2, ['0', 'b']⟩, ⟨.illegal (.unexpected '$'), 5, ['$']⟩] := by cbv
  refine ⟨?_, hillegal, ?_⟩
  · have hkinds : ∀ x ∈ bestEffort ['x', '/', '*', '*', '/', 'y'], x.kind ≠ .illegal := by
      rw [hlegal]
      decide
    obtain ⟨s, hs, hwritten, -⟩ := (tokenize_eq_of_bestEffort Handler.log
      (SourceFile.ofText "legal" ['x', '/', '*', '*', '/', 'y']) []).1 hkinds
    exact ⟨s, hs, hwritten.trans (by rw [SourceFile.ofText, hlegal]; rfl)⟩
  · exact (tokenize_eq_of_bestEffort Handler.log _ []).2 [⟨.identifier, 0, ['x']⟩] _ _
      [⟨.illegal (.unexpected '$'), 5, ['$']⟩] hillegal (by decide)

end TokenStream

end Frontend
