import Mathlib
import Frontend.Proofs.Stream.Placed

/-!
# The layout rule

Where a line ends after a token that can end a statement, a semicolon is inserted. `LaidOut` is that
rule for a whole list of tokens: it looks at two neighbours and at the text between them, comments
and white space alike, and at nothing else. The list of every token stream is laid out by the rule.
What carries the proof along a pass is the text since the last token: the pass is armed as long as
that token can end a statement and the text has no line feed.
-/

namespace Frontend

/-- The semicolon that the text after a token calls for: one at the first line feed, if there is one
and the token can end a statement. -/
def semicolonIn (arms : Bool) (start : Nat) (gap : Text) : List Token :=
  if arms = true ∧ '\n' ∈ gap then
    [insertedSemicolon (start + Text.size (gap.takeWhile (· ≠ '\n')))]
  else []

/-- The list `tokens` is `words` with the semicolons that the text between them calls for. -/
inductive LaidOut (source : Text) : List Token → List Token → Prop
  | last (t : Token) : LaidOut source [t] [t]
  | next {a b : Token} {words tokens : List Token} {gap : Text}
      (hgap : Text.Between source a.stop b.start gap) (h : LaidOut source (b :: words) tokens) :
      LaidOut source (a :: b :: words) (a :: (semicolonIn a.arms a.stop gap ++ tokens))

/-- An inserted semicolon starts where it is inserted. -/
@[simp] theorem start_insertedSemicolon (offset : Nat) :
    (insertedSemicolon offset).start = offset :=
  rfl

/-- An inserted semicolon covers nothing. -/
@[simp] theorem stop_insertedSemicolon (offset : Nat) : (insertedSemicolon offset).stop = offset :=
  rfl

/-- The empty text calls for no semicolon. -/
@[simp] theorem semicolonIn_nil (arms : Bool) (start : Nat) : semicolonIn arms start [] = [] := by
  simp [semicolonIn]

/-- After a token that does not end a statement, no text calls for a semicolon. -/
@[simp] theorem semicolonIn_false (start : Nat) (gap : Text) :
    semicolonIn false start gap = [] := by
  simp [semicolonIn]

/-- A line feed calls for a semicolon before itself, and what follows it does not matter. -/
theorem semicolonIn_lineFeed (arms : Bool) (start : Nat) (gap : Text) :
    semicolonIn arms start ('\n' :: gap) =
      if arms = true then [insertedSemicolon start] else [] := by
  simp [semicolonIn]

/-- Any other character leaves the semicolon to the text behind it. -/
theorem semicolonIn_cons {c : Char} (h : c ≠ '\n') (arms : Bool) (start : Nat) (gap : Text) :
    semicolonIn arms start (c :: gap) = semicolonIn arms (start + c.utf8Size) gap := by
  simp [semicolonIn, h, h.symm, Nat.add_assoc]

/-- Of two texts in a row, the second calls for a semicolon only if the first has no line feed. -/
theorem semicolonIn_append (arms : Bool) (start : Nat) (a b : Text) :
    semicolonIn arms start (a ++ b) =
      semicolonIn arms start a ++
        semicolonIn (arms && decide ('\n' ∉ a)) (start + Text.size a) b := by
  induction a generalizing start with
  | nil => simp
  | cons c a ih =>
    by_cases hfeed : c = '\n'
    · subst hfeed
      have hnone : (arms && decide ('\n' ∉ '\n' :: a)) = false := by simp
      rw [List.cons_append, semicolonIn_lineFeed, semicolonIn_lineFeed, hnone, semicolonIn_false,
        List.append_nil]
    · have hmem : decide ('\n' ∉ c :: a) = decide ('\n' ∉ a) := by
        simp [Ne.symm hfeed]
      rw [List.cons_append, semicolonIn_cons hfeed, semicolonIn_cons hfeed, ih, hmem,
        Text.size_cons, Nat.add_assoc]

/-- Every token that a text calls for is an inserted semicolon. -/
theorem isInserted_of_mem_semicolonIn {arms : Bool} {start : Nat} {gap : Text} {t : Token}
    (h : t ∈ semicolonIn arms start gap) : ∃ offset, t = insertedSemicolon offset := by
  unfold semicolonIn at h
  split at h
  · exact ⟨_, List.mem_singleton.mp h⟩
  · exact absurd h List.not_mem_nil

/-- The semicolon that a text calls for is none of the written tokens. -/
theorem filter_semicolonIn (arms : Bool) (start : Nat) (gap : Text) :
    (semicolonIn arms start gap).filter (fun t => !t.isInserted) = [] := by
  apply List.filter_eq_nil_iff.mpr
  intro t ht
  obtain ⟨offset, rfl⟩ := isInserted_of_mem_semicolonIn ht
  simp [Token.isInserted, insertedSemicolon, Token.text]

namespace Pass

/-- Pieces that a pass lists no token for: it inserts what their text calls for, and goes on armed
if the text does not end the line. -/
def Skips (p : Piece) : Prop :=
  ∀ (armed : Bool) (offset : Nat) (ps : List Piece),
    (overPieces armed offset (p :: ps)).tokens =
        semicolonIn armed offset p.text ++
          (overPieces (armed && decide ('\n' ∉ p.text)) (offset + Text.size p.text) ps).tokens ∧
      (overPieces armed offset (p :: ps)).error =
        (overPieces (armed && decide ('\n' ∉ p.text)) (offset + Text.size p.text) ps).error

/-- Gaps are skipped. -/
theorem skips_gap (c : Char) : Skips (.gap c) := by
  intro armed offset ps
  rw [overPieces, Piece.text]
  split
  · rename_i hfeed
    subst hfeed
    have hnone : (armed && decide ('\n' ∉ ['\n'])) = false := by simp
    rw [semicolonIn_lineFeed, hnone, tokens_withSemicolon, error_withSemicolon]
    cases armed <;> exact ⟨rfl, rfl⟩
  · rename_i hfeed
    have hsame : (armed && decide ('\n' ∉ [c])) = armed := by
      simp [Ne.symm hfeed]
    rw [semicolonIn_cons hfeed, semicolonIn_nil, hsame]
    exact ⟨rfl, rfl⟩

/-- Comments are skipped. Only the delimited ones are searched for a line feed, and only those can
have one. -/
theorem skips_comment {form : CommentForm} {text : Text} (hline : form = .line → '\n' ∉ text) :
    Skips (.token (.comment form) text) := by
  intro armed offset ps
  have hfeed : lineFeedOffset? form ⟨offset, text⟩ =
      if '\n' ∈ text then some (offset + Text.size (text.takeWhile (· ≠ '\n'))) else none := by
    unfold lineFeedOffset?
    by_cases hmem : '\n' ∈ text
    · have hform : form = .delimited := by
        cases form with
        | line => exact absurd hmem (hline rfl)
        | delimited => rfl
      rw [if_pos ⟨hform, hmem⟩, if_pos hmem]
    · rw [if_neg (fun h => hmem h.2), if_neg hmem]
  rw [overPieces, hfeed, Piece.text, tokens_withSemicolon, error_withSemicolon,
    tokens_withComment, error_withComment]
  by_cases hmem : '\n' ∈ text <;> cases armed <;> simp [semicolonIn, hmem]

/-- The pass that goes on after a token and a text that it skipped. It is armed as long as the token
can end a statement and the text has no line feed. -/
def after (last : Token) (gap : Text) (ps : List Piece) : Pass :=
  overPieces (last.arms && decide ('\n' ∉ gap)) (last.stop + Text.size gap) ps

/-- What a pass skips joins the text since the last token. -/
theorem after_skip {p : Piece} (hp : Skips p) (last : Token) (gap : Text) (ps : List Piece) :
    semicolonIn last.arms last.stop gap ++ (after last gap (p :: ps)).tokens =
        semicolonIn last.arms last.stop (gap ++ p.text) ++
          (after last (gap ++ p.text) ps).tokens ∧
      (after last gap (p :: ps)).error = (after last (gap ++ p.text) ps).error := by
  have hjoin : (last.arms && decide ('\n' ∉ gap) && decide ('\n' ∉ p.text)) =
      (last.arms && decide ('\n' ∉ gap ++ p.text)) := by
    simp [Bool.and_assoc, not_or]
  obtain ⟨htokens, herror⟩ := hp (last.arms && decide ('\n' ∉ gap)) (last.stop + Text.size gap) ps
  rw [hjoin, Nat.add_assoc, ← Text.size_append] at htokens herror
  refine ⟨?_, herror⟩
  rw [semicolonIn_append, List.append_assoc, after, htokens]
  rfl

/-- A token that a pass lists is the last one from there on, with nothing skipped after it yet. -/
theorem after_listed {cls : TokenClass} (hcls : cls.isListed = true) (last : Token)
    (gap text : Text) (ps : List Piece) :
    after last gap (.token cls text :: ps) =
      (after ⟨cls, last.stop + Text.size gap, text⟩ [] ps).withToken
        ⟨cls, last.stop + Text.size gap, text⟩ := by
  have harmed : (cls.arms && decide ('\n' ∉ ([] : Text))) = cls.arms := by simp
  rw [after, overPieces_listed hcls, after]
  simp only [Token.arms, Token.stop, Lexeme.stop, harmed, Text.size_nil, Nat.add_zero]

/-- A pass over pieces lays out what it lists, whatever token and text came before them. -/
def LaysOut (ps : List Piece) : Prop :=
  ∀ ⦃source before gap : Text⦄ ⦃last : Token⦄,
    source = before ++ gap ++ ps.flatMap Piece.text → Text.size before = last.stop →
      (after last gap ps).error = none →
        LaidOut source (last :: (after last gap ps).tokens.filter fun t => !t.isInserted)
          (last :: (semicolonIn last.arms last.stop gap ++ (after last gap ps).tokens))

/-- Where no piece is left, the end of the file comes next, behind the semicolon that the text
before it calls for. -/
theorem laysOut_nil : LaysOut [] := by
  intro source before gap last hsource hbefore _
  have hgap : Text.Between source last.stop (last.stop + Text.size gap) gap :=
    ⟨before, [], hsource, hbefore, rfl⟩
  exact LaidOut.next hgap (LaidOut.last _)

/-- A piece that is skipped becomes part of the text between tokens. -/
theorem LaysOut.skip {p : Piece} {ps : List Piece} (hp : Skips p) (h : LaysOut ps) :
    LaysOut (p :: ps) := by
  intro source before gap last hsource hbefore herror
  obtain ⟨htokens, herrors⟩ := after_skip hp last gap ps
  have hsplit : source = before ++ (gap ++ p.text) ++ ps.flatMap Piece.text := by
    rw [hsource, List.flatMap_cons]
    simp only [List.append_assoc]
  have hlaid := h hsplit hbefore (herrors.symm.trans herror)
  have hwritten := congrArg (List.filter fun t => !t.isInserted) htokens
  rw [List.filter_append, List.filter_append, filter_semicolonIn, filter_semicolonIn,
    List.nil_append, List.nil_append] at hwritten
  rw [hwritten, htokens]
  exact hlaid

/-- A listed token ends the text between tokens, and comes behind the semicolon that this text calls
for. -/
theorem LaysOut.listed {cls : TokenClass} (hcls : cls.isListed = true) {text : Text}
    (htext : text ≠ []) {ps : List Piece} (h : LaysOut ps) : LaysOut (.token cls text :: ps) := by
  intro source before gap last hsource hbefore herror
  have hwritten : Token.isInserted ⟨cls, last.stop + Text.size gap, text⟩ = false :=
    Token.isInserted_of_text_ne_nil htext
  rw [after_listed hcls, error_withToken] at herror
  rw [after_listed hcls, tokens_withToken, List.filter_cons_of_pos (by simp [hwritten])]
  have hgap : Text.Between source last.stop (last.stop + Text.size gap) gap :=
    ⟨before, text ++ ps.flatMap Piece.text, hsource, hbefore, rfl⟩
  have hsplit : source = (before ++ gap ++ text) ++ [] ++ ps.flatMap Piece.text := by
    rw [hsource, List.flatMap_cons]
    simp only [Piece.text, List.append_assoc, List.nil_append]
  have hstop : Text.size (before ++ gap ++ text) =
      Token.stop ⟨cls, last.stop + Text.size gap, text⟩ := by
    rw [Text.size_append, Text.size_append, hbefore]
    rfl
  have hlaid := h hsplit hstop herror
  rw [semicolonIn_nil, List.nil_append] at hlaid
  exact LaidOut.next hgap hlaid

/-- Sound pieces are laid out. -/
theorem laysOut_of_sound {ps : List Piece} (hsound : ∀ p ∈ ps, p.Sound) : LaysOut ps := by
  have hrest (p : Piece) (ps : List Piece) (h : ∀ q ∈ p :: ps, q.Sound) : ∀ q ∈ ps, q.Sound :=
    fun q hq => h q (List.mem_cons_of_mem _ hq)
  induction ps using Piece.listInduction with
  | nil => exact laysOut_nil
  | gap c ps ih => exact (ih (hrest _ _ hsound)).skip (skips_gap c)
  | comment form text ps ih =>
    have hline : form = .line → '\n' ∉ text := by
      intro hform
      subst hform
      exact (hsound _ List.mem_cons_self).2.2 rfl
    exact (ih (hrest _ _ hsound)).skip (skips_comment hline)
  | illegal reason text ps =>
    intro source before gap last _ _ herror
    exact nomatch herror
  | listed cls text ps hcls ih =>
    exact (ih (hrest _ _ hsound)).listed hcls (hsound _ List.mem_cons_self).1

end Pass

namespace LaidOut

/-- A token that can end no statement has no bearing on what follows it. -/
theorem tail {source : Text} {t : Token} {words tokens : List Token} (ht : t.arms = false)
    (hwords : words ≠ []) (h : LaidOut source (t :: words) (t :: tokens)) :
    LaidOut source words tokens := by
  cases h with
  | last => exact absurd rfl hwords
  | next hgap h =>
    rw [ht, semicolonIn_false, List.nil_append]
    exact h

/-- A list that is laid out ends where its words end, and before that it holds nothing but words and
inserted semicolons. -/
theorem exists_front {source : Text} {words tokens : List Token} {e : Token}
    (h : LaidOut source (words ++ [e]) tokens) :
    ∃ front, tokens = front ++ [e] ∧
      ∀ t ∈ front, t ∈ words ∨ ∃ offset, t = insertedSemicolon offset := by
  generalize hall : words ++ [e] = all at h
  induction h generalizing words with
  | last t =>
    obtain ⟨rfl, rfl⟩ : words = [] ∧ e = t := by simpa [List.append_eq_singleton_iff] using hall
    exact ⟨[], rfl, fun t ht => absurd ht List.not_mem_nil⟩
  | @next a b rest tokens gap hgap h ih =>
    cases words with
    | nil => exact absurd (List.cons.inj hall).2 (by simp)
    | cons x words =>
      obtain ⟨rfl, hwords⟩ := List.cons.inj hall
      obtain ⟨front, rfl, hfront⟩ := ih hwords
      refine ⟨x :: (semicolonIn x.arms x.stop gap ++ front), by simp, ?_⟩
      intro t ht
      rcases List.mem_cons.mp ht with rfl | ht
      · exact .inl List.mem_cons_self
      rcases List.mem_append.mp ht with ht | ht
      · exact .inr (isInserted_of_mem_semicolonIn ht)
      · rcases hfront t ht with hmem | hinserted
        · exact .inl (List.mem_cons_of_mem _ hmem)
        · exact .inr hinserted

end LaidOut

namespace TokenStream

/-- The list of a stream is laid out between its written tokens. -/
theorem laidOut_of_ok {t : Text} {s : TokenStream} (h : ofText t = .ok s) :
    LaidOut t s.written s.tokens := by
  obtain ⟨herror, htokens, _⟩ := eq_overPieces_of_ok h
  have hsound : ∀ p ∈ pieces t, p.Sound := fun p hp => sound_of_mem_pieces hp
  -- the start of the text is taken for a token that ends no statement
  have hsource : t = [] ++ [] ++ (pieces t).flatMap Piece.text := (flatMap_text_pieces t).symm
  have hbefore : Text.size [] = (endOfFile 0).stop := rfl
  have hlaid := Pass.laysOut_of_sound hsound hsource hbefore herror
  have hwords : s.written ≠ [] := by
    rw [written_of_ok h]
    exact List.append_ne_nil_of_right_ne_nil _ (List.cons_ne_nil _ _)
  rw [written, htokens] at hwords ⊢
  exact hlaid.tail rfl hwords

/-- The end of the file stands last in a stream. Before it stand the listed tokens of the text and
inserted semicolons. -/
theorem exists_front_of_ok {t : Text} {s : TokenStream} (h : ofText t = .ok s) :
    ∃ front, s.tokens = front ++ [endOfFile (Text.size t)] ∧
      ∀ x ∈ front, x ∈ (Piece.placed 0 (pieces t)).filter Token.isListed ∨
        ∃ offset, x = insertedSemicolon offset := by
  have hlaid := laidOut_of_ok h
  rw [written_of_ok h] at hlaid
  exact hlaid.exists_front

/-- **The layout rule.** The tokens of a stream are its written tokens, the last of which is the end
of the file, with a semicolon between two neighbours where the text between them has a line feed and
the first of the two can end a statement. The semicolon stands at the first line feed of that text,
and nothing else is inserted. -/
theorem tokens_laidOut {t : Text} {s : TokenStream} (h : ofText t = .ok s) :
    LaidOut t s.written s.tokens ∧ s.written.getLast? = some (endOfFile (Text.size t)) ∧
      ∀ x ∈ s.tokens, x.isInserted = true → ∃ offset, x = insertedSemicolon offset := by
  refine ⟨laidOut_of_ok h, ?_, ?_⟩
  · rw [written_of_ok h, List.getLast?_append, List.getLast?_singleton, Option.some_or]
  · intro x hx hinserted
    obtain ⟨front, htokens, hfront⟩ := exists_front_of_ok h
    have hwritten (hmem : x ∈ s.written) : ∃ offset, x = insertedSemicolon offset := by
      have hnot := (List.mem_filter.mp hmem).2
      rw [hinserted] at hnot
      exact nomatch hnot
    rw [htokens] at hx
    rcases List.mem_append.mp hx with hx | hx
    · rcases hfront x hx with hmem | hsemicolon
      · exact hwritten (by rw [written_of_ok h]; exact List.mem_append_left _ hmem)
      · exact hsemicolon
    · exact hwritten (by rw [written_of_ok h]; exact List.mem_append_right _ hx)

/-- The rule at work on a comment over two lines, a line break after it, a line break after an
operator, and a raw string over two lines before the end of the file. -/
theorem tokens_laidOut_comment :
    ∃ s, ofText ['x', '/', '*', '\n', '*', '/', '\n', '+', '\r', '\n', '\x60', '\n', '\x60'] =
        .ok s ∧
      s.tokens = [⟨.identifier, 0, ['x']⟩, insertedSemicolon 3, ⟨.punctuation .add, 7, ['+']⟩,
        ⟨.stringLiteral .raw, 10, ['\x60', '\n', '\x60']⟩, endOfFile 13] ∧
      LaidOut ['x', '/', '*', '\n', '*', '/', '\n', '+', '\r', '\n', '\x60', '\n', '\x60']
        s.written s.tokens :=
  ⟨⟨[⟨.identifier, 0, ['x']⟩, insertedSemicolon 3, ⟨.punctuation .add, 7, ['+']⟩,
      ⟨.stringLiteral .raw, 10, ['\x60', '\n', '\x60']⟩, endOfFile 13],
      [⟨.delimited, 1, ['/', '*', '\n', '*', '/']⟩]⟩,
    by cbv, rfl, (tokens_laidOut (by cbv)).1⟩

end TokenStream

end Frontend
