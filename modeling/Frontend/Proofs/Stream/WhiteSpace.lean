import Frontend.Proofs.Stream.Composition
import Frontend.Proofs.Stream.Layout

/-!
# Comments as white space

A comment means what white space means: a line feed if it has one, and a space otherwise. The text
in which every comment gives way to that one character is cut where the text itself is, since a gap
ends every token that the comment ended, and a pass inserts the same semicolons, since it skips the
comment and the character alike.
-/

namespace Frontend

namespace Text

/-- The text with the part between two offsets replaced. -/
def replace (t : Text) (start stop : Nat) (new : Text) : Text :=
  slice t 0 start ++ new ++ slice t stop (size t)

/-- A part in the middle is replaced, and the rest of the text stays. -/
theorem replace_append (before part after new : Text) :
    (before ++ part ++ after).replace (size before) (size before + size part) new =
      before ++ new ++ after := by
  have hbefore : Between (before ++ part ++ after) 0 (size before) before :=
    ⟨[], part ++ after, by simp, rfl, Nat.zero_add _⟩
  have hafter : Between (before ++ part ++ after) (size before + size part)
      (size (before ++ part ++ after)) after :=
    ⟨before ++ part, [], by simp, size_append _ _, by simp only [size_append]⟩
  rw [replace, hbefore.slice_eq, hafter.slice_eq]

end Text

/-- The white space that a comment of the given text stands for. -/
def blankOf (text : Text) : Char :=
  if '\n' ∈ text then '\n' else ' '

/-- What a comment is replaced by is a gap. -/
theorem isGap_blankOf (text : Text) : isGap (blankOf text) = true := by
  unfold blankOf
  split <;> rfl

/-- The white space breaks the line where the comment does. -/
theorem lineFeed_mem_blankOf (text : Text) : '\n' ∈ [blankOf text] ↔ '\n' ∈ text := by
  unfold blankOf
  split <;> simp [*]

/-- The text with each of the comments replaced by white space. The last comment is replaced first,
so that the offsets of the others still hold. -/
def blankComments (t : Text) (comments : List Comment) : Text :=
  comments.foldr
    (fun c t => t.replace c.lexeme.start c.lexeme.stop [blankOf c.lexeme.text]) t

namespace Piece

/-- The piece, or white space if it is a comment. -/
def blanked : Piece → Piece
  | token (.comment _) text => gap (blankOf text)
  | p => p

/-- A listed token is not replaced. -/
theorem blanked_listed {cls : TokenClass} (h : cls.isListed = true) (text : Text) :
    blanked (.token cls text) = .token cls text := by
  cases cls with
  | comment form => exact nomatch h
  | _ => rfl

/-- Where comments are replaced, nothing goes on further than before. -/
theorem noFurther_blanked (ps : List Piece) :
    NoFurther ((ps.map blanked).flatMap text) (ps.flatMap text) := by
  induction ps using listInduction with
  | nil => exact .nil _
  | gap c ps ih => exact ih.append [c]
  | comment form text ps ih => exact .of_gap (isGap_blankOf text) _ _
  | illegal reason text ps ih => exact ih.append text
  | listed cls text ps hcls ih =>
    rw [List.map_cons, blanked_listed hcls]
    exact ih.append text

/-- To replace the comments of a text is to replace the pieces that are comments. -/
theorem blankComments_placed (before : Text) (ps : List Piece) :
    blankComments (before ++ ps.flatMap text)
        ((placed (Text.size before) ps).filterMap Token.comment?) =
      before ++ (ps.map blanked).flatMap text := by
  induction ps using listInduction generalizing before with
  | nil => rfl
  | gap c ps ih =>
    have hrest := ih (before ++ [c])
    rw [Text.size_append, Text.size_cons, Text.size_nil, Nat.add_zero, List.append_assoc,
      List.append_assoc] at hrest
    exact hrest
  | comment form text ps ih =>
    have hrest := ih (before ++ text)
    rw [Text.size_append] at hrest
    have hreplace := Text.replace_append before text ((ps.map blanked).flatMap Piece.text)
      [blankOf text]
    rw [← hrest, List.append_assoc, List.append_assoc before [_]] at hreplace
    exact hreplace
  | illegal reason text ps ih =>
    have hrest := ih (before ++ text)
    rw [Text.size_append, List.append_assoc, List.append_assoc] at hrest
    exact hrest
  | listed cls text ps hcls ih =>
    have hlisted : Token.isListed ⟨cls, Text.size before, text⟩ = true := hcls
    have hrest := ih (before ++ text)
    rw [Text.size_append, List.append_assoc, List.append_assoc] at hrest
    rw [placed, List.filterMap_cons, Token.comment?_of_isListed hlisted, List.map_cons,
      blanked_listed hcls]
    exact hrest

end Piece

/-- Where comments are replaced, a legal text is cut into the same tokens. -/
theorem pieces_blanked {t : Text} (hlegal : ∀ p ∈ pieces t, p.Legal) :
    pieces (((pieces t).map Piece.blanked).flatMap Piece.text) =
      (pieces t).map Piece.blanked := by
  fun_induction pieces t with
  | case1 => rw [List.map_nil, List.flatMap_nil, pieces_nil]
  | case2 c t hgap ih =>
    have hrest := ih (List.forall_mem_of_forall_mem_cons hlegal)
    have hcut := pieces_gap hgap (((pieces t).map Piece.blanked).flatMap Piece.text)
    rw [hrest] at hcut
    exact hcut
  | case3 c t hgap ih =>
    have hc : isGap c = false := by simpa using hgap
    have hrest := ih (List.forall_mem_of_forall_mem_cons hlegal)
    have hscan : (Scan.leading c t).Legal := hlegal _ List.mem_cons_self
    by_cases hcomment : ∃ form, (Scan.leading c t).cls = .comment form
    · obtain ⟨form, hcls⟩ := hcomment
      have hblank := isGap_blankOf (Scan.leading c t).text
      have hcut := pieces_gap hblank
        (((pieces (Scan.leading c t).rest).map Piece.blanked).flatMap Piece.text)
      rw [hrest] at hcut
      rw [List.map_cons, hcls]
      exact hcut
    · -- the token stays, and what follows it goes on no further than before
      have hlisted : (Scan.leading c t).cls.isListed = true := by
        cases hcls : (Scan.leading c t).cls with
        | comment form => exact absurd ⟨form, hcls⟩ hcomment
        | illegal reason => exact absurd hcls (hscan reason)
        | _ => rfl
      have hnew := Piece.noFurther_blanked (pieces (Scan.leading c t).rest)
      rw [flatMap_text_pieces] at hnew
      have hagain := pieces_leading_again hc hscan hnew fun hcls => absurd ⟨_, hcls⟩ hcomment
      rw [hrest] at hagain
      rw [List.map_cons, Piece.blanked_listed hlisted]
      exact hagain

/-- What a token is, apart from where it stands. -/
def Token.reading (t : Token) : TokenClass × Text :=
  (t.cls, t.text)

/-- Texts that both have a line feed, or both have none, call for the same semicolon. -/
theorem map_reading_semicolonIn {gap gap' : Text} (h : '\n' ∈ gap' ↔ '\n' ∈ gap) (arms : Bool)
    (start start' : Nat) :
    (semicolonIn arms start' gap').map Token.reading =
      (semicolonIn arms start gap).map Token.reading := by
  unfold semicolonIn
  by_cases hcalls : arms = true ∧ '\n' ∈ gap
  · have hcalls' : arms = true ∧ '\n' ∈ gap' := ⟨hcalls.1, h.mpr hcalls.2⟩
    rw [if_pos hcalls, if_pos hcalls']
    rfl
  · have hcalls' : ¬(arms = true ∧ '\n' ∈ gap') := fun h' => hcalls ⟨h'.1, h.mp h'.2⟩
    rw [if_neg hcalls, if_neg hcalls']

namespace Pass

/-- Passes over two lists of pieces find the same tokens, wherever they start, and neither list
stops one. -/
def ReadAlike (ps ps' : List Piece) : Prop :=
  ∀ (armed : Bool) (offset offset' : Nat),
    (overPieces armed offset' ps').tokens.map Token.reading =
        (overPieces armed offset ps).tokens.map Token.reading ∧
      (overPieces armed offset' ps').error = none

/-- Pieces that are skipped can take each other's place if both end the line, or neither does. -/
theorem ReadAlike.skip {p p' : Piece} (hp : Skips p) (hp' : Skips p')
    (hfeed : '\n' ∈ p'.text ↔ '\n' ∈ p.text) {ps ps' : List Piece} (h : ReadAlike ps ps') :
    ReadAlike (p :: ps) (p' :: ps') := by
  intro armed offset offset'
  have hgoes : (armed && decide ('\n' ∉ p'.text)) = (armed && decide ('\n' ∉ p.text)) := by
    rw [decide_eq_decide.mpr (not_congr hfeed)]
  obtain ⟨htokens, -⟩ := hp armed offset ps
  obtain ⟨htokens', herror'⟩ := hp' armed offset' ps'
  obtain ⟨hrest, herror⟩ := h (armed && decide ('\n' ∉ p.text)) (offset + Text.size p.text)
    (offset' + Text.size p'.text)
  rw [hgoes] at htokens' herror'
  constructor
  · rw [htokens, htokens', List.map_append, List.map_append, hrest,
      map_reading_semicolonIn hfeed armed offset offset']
  · rw [herror', herror]

/-- A listed token is found on both sides. -/
theorem ReadAlike.listed {cls : TokenClass} (hcls : cls.isListed = true) (text : Text)
    {ps ps' : List Piece} (h : ReadAlike ps ps') :
    ReadAlike (.token cls text :: ps) (.token cls text :: ps') := by
  intro armed offset offset'
  obtain ⟨hrest, herror⟩ := h cls.arms (offset + Text.size text) (offset' + Text.size text)
  rw [overPieces_listed hcls, overPieces_listed hcls]
  refine ⟨?_, herror⟩
  rw [tokens_withToken, tokens_withToken, List.map_cons, List.map_cons, hrest]
  rfl

/-- Legal pieces are read alike with and without their comments replaced. -/
theorem readAlike_blanked {ps : List Piece} (hsound : ∀ p ∈ ps, p.Sound)
    (hlegal : ∀ p ∈ ps, p.Legal) : ReadAlike ps (ps.map Piece.blanked) := by
  induction ps using Piece.listInduction with
  | nil => exact fun _ _ _ => ⟨rfl, rfl⟩
  | gap c ps ih =>
    have hrest := ih (List.forall_mem_of_forall_mem_cons hsound)
      (List.forall_mem_of_forall_mem_cons hlegal)
    exact hrest.skip (skips_gap c) (skips_gap c) Iff.rfl
  | comment form text ps ih =>
    have hrest := ih (List.forall_mem_of_forall_mem_cons hsound)
      (List.forall_mem_of_forall_mem_cons hlegal)
    have hline : form = .line → '\n' ∉ text := by
      intro hform
      subst hform
      exact (hsound _ List.mem_cons_self).2.2 rfl
    exact hrest.skip (skips_comment hline) (skips_gap _) (lineFeed_mem_blankOf text)
  | illegal reason text ps => exact absurd rfl (hlegal _ List.mem_cons_self reason)
  | listed cls text ps hcls ih =>
    have hrest := ih (List.forall_mem_of_forall_mem_cons hsound)
      (List.forall_mem_of_forall_mem_cons hlegal)
    rw [List.map_cons, Piece.blanked_listed hcls]
    exact hrest.listed hcls text

/-- A pass over pieces whose comments are replaced finds no comment. -/
theorem comments_overPieces_blanked (armed : Bool) (offset : Nat) (ps : List Piece) :
    (overPieces armed offset (ps.map Piece.blanked)).comments = [] := by
  have hgap (c : Char) (ps : List Piece)
      (h : ∀ armed offset, (overPieces armed offset ps).comments = []) (armed : Bool)
      (offset : Nat) : (overPieces armed offset (.gap c :: ps)).comments = [] := by
    rw [overPieces]
    split
    · rw [comments_withSemicolon, h]
    · exact h _ _
  induction ps using Piece.listInduction generalizing armed offset with
  | nil => rfl
  | gap c ps ih => exact hgap c _ ih armed offset
  | comment form text ps ih => exact hgap _ _ ih armed offset
  | illegal reason text ps => rfl
  | listed cls text ps hcls ih =>
    rw [List.map_cons, Piece.blanked_listed hcls, overPieces_listed hcls, comments_withToken, ih]

end Pass

namespace TokenStream

/-- **Comments mean white space.** Where each comment of a text that has a stream is replaced by a
line feed, if it has one, or else by a space, the text has a stream of the same kinds and lexemes,
with the same semicolons inserted, and without comments. -/
theorem ofText_blankComments {t : Text} {s : TokenStream} (h : ofText t = .ok s) :
    ∃ s', ofText (blankComments t s.comments) = .ok s' ∧ s'.kinds = s.kinds ∧
      s'.tokens.map Token.text = s.tokens.map Token.text ∧
      s'.tokens.map Token.isInserted = s.tokens.map Token.isInserted ∧ s'.comments = [] := by
  obtain ⟨herror, htokens, hcomments⟩ := eq_overPieces_of_ok h
  have hsound : ∀ p ∈ pieces t, p.Sound := fun p hp => sound_of_mem_pieces hp
  have hlegal : ∀ p ∈ pieces t, p.Legal := Pass.legal_of_error_eq_none herror
  have hblank : blankComments t s.comments =
      ((pieces t).map Piece.blanked).flatMap Piece.text := by
    have hplaced := Piece.blankComments_placed [] (pieces t)
    rw [Text.size_nil, ← Pass.comments_overPieces herror, ← hcomments, List.nil_append,
      List.nil_append, flatMap_text_pieces] at hplaced
    exact hplaced
  obtain ⟨hreading, herror'⟩ := Pass.readAlike_blanked hsound hlegal false 0 0
  have hnone := Pass.comments_overPieces_blanked false 0 (pieces t)
  have hok : ofText (blankComments t s.comments) =
      .ok ⟨(Pass.overPieces false 0 ((pieces t).map Piece.blanked)).tokens, []⟩ := by
    rw [hblank, ofText, passOver, Pass.through_eq_overPieces, pieces_blanked hlegal]
    simp only [herror', hnone]
  rw [← htokens] at hreading
  refine ⟨_, hok, ?_, ?_, ?_, rfl⟩
  · have hkinds := congrArg (List.map fun r => TokenClass.kind r.1) hreading
    rwa [List.map_map, List.map_map] at hkinds
  · have htexts := congrArg (List.map Prod.snd) hreading
    rwa [List.map_map, List.map_map] at htexts
  · have hinserted := congrArg
      (List.map fun r => Token.isInserted ⟨r.1, 0, r.2⟩) hreading
    rwa [List.map_map, List.map_map] at hinserted

/-- Comments between parts that would be one token, a comment over two lines that ends a statement,
and a comment at the end of a line. -/
theorem ofText_blankComments_between :
    ∃ s, ofText ['.', '/', '*', '*', '/', '.', 'x', '/', '*', '\n', '*', '/', '/', '/', '\n'] =
        .ok s ∧
      blankComments ['.', '/', '*', '*', '/', '.', 'x', '/', '*', '\n', '*', '/', '/', '/', '\n']
        s.comments = ['.', ' ', '.', 'x', '\n', ' ', '\n'] ∧
      ∃ s', ofText ['.', ' ', '.', 'x', '\n', ' ', '\n'] = .ok s' ∧
        s'.tokens.map Token.text = [['.'], ['.'], ['x'], [], []] := by
  have hs : ofText
      ['.', '/', '*', '*', '/', '.', 'x', '/', '*', '\n', '*', '/', '/', '/', '\n'] =
      .ok ⟨[⟨.punctuation .period, 0, ['.']⟩, ⟨.punctuation .period, 5, ['.']⟩,
        ⟨.identifier, 6, ['x']⟩, insertedSemicolon 9, endOfFile 15],
        [⟨.delimited, 1, ['/', '*', '*', '/']⟩, ⟨.delimited, 7, ['/', '*', '\n', '*', '/']⟩,
          ⟨.line, 12, ['/', '/']⟩]⟩ := by cbv
  obtain ⟨s', hs', -, htexts, -⟩ := ofText_blankComments hs
  exact ⟨_, hs, by cbv, s', hs', htexts⟩

end TokenStream

end Frontend
