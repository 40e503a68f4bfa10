import Mathlib
import Frontend.Proofs.Stream.Composition

/-!
# Streams that compose at line breaks

A text that ends with a line break can be read on its own: no token goes on past the break, and the
break itself disarms the pass, so that what comes after it is read as if it stood alone. Only its
offsets are those of the whole text, which `shift` accounts for.
-/

namespace Frontend

/-- The lexeme in a text with more characters of the given size in front. -/
def Lexeme.shift (n : Nat) (l : Lexeme) : Lexeme :=
  { l with start := l.start + n }

/-- The token in a text with more characters of the given size in front. -/
def Token.shift (n : Nat) (t : Token) : Token :=
  { t with lexeme := t.lexeme.shift n }

/-- The comment in a text with more characters of the given size in front. -/
def Comment.shift (n : Nat) (c : Comment) : Comment :=
  { c with lexeme := c.lexeme.shift n }

/-- The error in a text with more characters of the given size in front. -/
def LexicalError.shift (n : Nat) (e : LexicalError) : LexicalError :=
  { e with lexeme := e.lexeme.shift n }

/-- The span of a shifted lexeme is shifted. -/
theorem Lexeme.stop_shift (n : Nat) (l : Lexeme) : (l.shift n).stop = l.stop + n := by
  simp only [stop, shift, Nat.add_right_comm]

namespace Pass

/-- The pass over a text with more characters of the given size in front. -/
def shift (n : Nat) (p : Pass) : Pass :=
  ⟨p.tokens.map (·.shift n), p.comments.map (·.shift n), p.error.map (·.shift n)⟩

/-- A token found first is shifted with the rest. -/
theorem shift_withToken (n : Nat) (t : Token) (p : Pass) :
    (p.withToken t).shift n = (p.shift n).withToken (t.shift n) :=
  rfl

/-- A comment found first is shifted with the rest. -/
theorem shift_withComment (n : Nat) (c : Comment) (p : Pass) :
    (p.withComment c).shift n = (p.shift n).withComment (c.shift n) :=
  rfl

/-- A semicolon inserted first is shifted with the rest. -/
theorem shift_withSemicolon (n : Nat) (offset : Option Nat) (p : Pass) :
    (p.withSemicolon offset).shift n = (p.shift n).withSemicolon (offset.map (· + n)) := by
  cases offset <;> rfl

/-- The line feed of a comment is shifted with it. -/
theorem lineFeedOffset?_shift (form : CommentForm) (n : Nat) (l : Lexeme) :
    lineFeedOffset? form (l.shift n) = (lineFeedOffset? form l).map (· + n) := by
  obtain ⟨start, text⟩ := l
  unfold lineFeedOffset? Lexeme.shift
  by_cases h : form = .delimited ∧ '\n' ∈ text
  · rw [if_pos h, if_pos h, Option.map_some, Nat.add_right_comm]
  · rw [if_neg h, if_neg h, Option.map_none]

/-- A pass depends on where it starts only by the offsets of what it finds. -/
theorem overPieces_add (n : Nat) (armed : Bool) (offset : Nat) (ps : List Piece) :
    overPieces armed (offset + n) ps = (overPieces armed offset ps).shift n := by
  induction ps using Piece.listInduction generalizing armed offset with
  | nil => rfl
  | gap c ps ih =>
    rw [overPieces, overPieces, Nat.add_right_comm]
    split
    · rw [ih, shift_withSemicolon]
      cases armed <;> rfl
    · exact ih _ _
  | comment form text ps ih =>
    have hfeed : (if armed then lineFeedOffset? form ⟨offset + n, text⟩ else none) =
        (if armed then lineFeedOffset? form ⟨offset, text⟩ else none).map (· + n) := by
      cases armed with
      | false => rfl
      | true => exact lineFeedOffset?_shift form n ⟨offset, text⟩
    rw [overPieces, overPieces, shift_withSemicolon, shift_withComment, ← ih]
    simp only [hfeed, Option.isNone_map, Nat.add_right_comm]
    rfl
  | illegal reason text ps => rfl
  | listed cls text ps hcls ih =>
    rw [overPieces_listed hcls, overPieces_listed hcls, shift_withToken, ← ih, Nat.add_right_comm]
    rfl

end Pass

/-- A legal text that ends with a line feed is cut there. -/
theorem exists_pieces_eq_append_feed {s : Text}
    (hlegal : ∀ p ∈ pieces (s ++ ['\n']), p.Legal) :
    ∃ ps, pieces (s ++ ['\n']) = ps ++ [.gap '\n'] := by
  have htext := flatMap_text_pieces (s ++ ['\n'])
  rcases List.eq_nil_or_concat (pieces (s ++ ['\n'])) with hnil | ⟨ps, p, hps⟩
  · rw [hnil] at htext
    simp at htext
  · rw [List.concat_eq_append] at hps
    have hmem : p ∈ pieces (s ++ ['\n']) := by
      rw [hps]
      exact List.mem_append_right _ List.mem_cons_self
    have hlast : (ps.flatMap Piece.text ++ p.text).getLast? = some '\n' := by
      rw [hps, List.flatMap_append, List.flatMap_singleton] at htext
      rw [htext, List.getLast?_concat]
    refine ⟨ps, hps.trans ?_⟩
    cases p with
    | gap c =>
      rw [Piece.text, List.getLast?_concat] at hlast
      rw [Option.some.inj hlast]
    | token cls text =>
      -- a legal token does not end with a line feed
      rw [Piece.text, List.getLast?_append] at hlast
      cases hword : text.getLast? with
      | none => exact absurd (List.getLast?_eq_none_iff.mp hword) (sound_of_mem_pieces hmem).1
      | some x =>
        rw [hword, Option.some_or] at hlast
        exact absurd (hword.trans hlast) (getLast?_text_of_mem_pieces hmem (hlegal _ hmem))

/-- A pass depends on where it starts only by the offsets of what it finds. -/
theorem Pass.through_add (n : Nat) (armed : Bool) (t : Text) :
    through armed n t = (through armed 0 t).shift n := by
  rw [through_eq_overPieces, through_eq_overPieces, ← overPieces_add, Nat.zero_add]

namespace TokenStream

/-- A legal text that ends with a line feed leaves nothing open: whatever follows it, a pass finds
the tokens and comments of its stream, without the end of the file, and goes on unarmed. -/
theorem exists_reads_of_ok {s : Text} {a : TokenStream} (h : ofText (s ++ ['\n']) = .ok a) :
    ∃ front, a.tokens = front ++ [endOfFile (Text.size (s ++ ['\n']))] ∧
      Pass.Reads false 0 (s ++ ['\n']) front a.comments false := by
  have hlegal : ∀ p ∈ pieces (s ++ ['\n']), p.Legal :=
    Pass.legal_of_error_eq_none (eq_overPieces_of_ok h).1
  obtain ⟨ps, hps⟩ := exists_pieces_eq_append_feed hlegal
  have hfront : ∀ p ∈ ps, p.Legal := by
    intro p hp
    refine hlegal p ?_
    rw [hps]
    exact List.mem_append_left _ hp
  obtain ⟨tokens, comments, armed, hfinds⟩ := Pass.exists_finds hfront false 0
  have hall := hfinds.append (Pass.finds_feed armed _)
  have hspells : Spells (s ++ ['\n']) (pieces (s ++ ['\n'])) :=
    spells_of_legal (.inr List.getLast?_concat) hlegal
  rw [← hps] at hall
  have hreads := hspells.reads hall
  have hok := ofText_of_reads hreads
  rw [h] at hok
  obtain rfl := Except.ok.inj hok
  exact ⟨_, rfl, hreads⟩

/-- **Streams compose at line breaks.** Whatever follows a text that has a stream and ends with a
line feed has the stream or the error that it has on its own, shifted by the size of the text. -/
theorem ofText_append_of_lineFeed {s : Text} {a : TokenStream} (h : ofText (s ++ ['\n']) = .ok a) :
    ∃ front, a.tokens = front ++ [endOfFile (Text.size (s ++ ['\n']))] ∧
      ∀ t, ofText (s ++ ['\n'] ++ t) = match ofText t with
        | .ok b => .ok ⟨front ++ b.tokens.map (·.shift (Text.size (s ++ ['\n']))),
            a.comments ++ b.comments.map (·.shift (Text.size (s ++ ['\n'])))⟩
        | .error e => .error (e.shift (Text.size (s ++ ['\n']))) := by
  obtain ⟨front, htokens, hreads⟩ := exists_reads_of_ok h
  refine ⟨front, htokens, fun t => ?_⟩
  unfold ofText passOver
  rw [hreads t, Nat.zero_add, Pass.through_add]
  cases herror : (Pass.through false 0 t).error with
  | none => simp only [Pass.prepend, Pass.shift, herror, Option.map_none]
  | some e => simp only [Pass.prepend, Pass.shift, herror, Option.map_some]

/-- Behind a word on a line of its own, a second line with a comment and one that is illegal. -/
theorem ofText_append_of_lineFeed_twoLines :
    ofText ['x', '\n', '/', '/', '\n', 'y'] = .ok
      ⟨[⟨.identifier, 0, ['x']⟩, insertedSemicolon 1, ⟨.identifier, 5, ['y']⟩, endOfFile 6],
        [⟨.line, 2, ['/', '/']⟩]⟩ ∧
    ofText ['x', '\n', '0', 'b'] = .error ⟨.malformedNumber, 2, ['0', 'b']⟩ := by
  have hfirst : ofText (['x'] ++ ['\n']) =
      .ok ⟨[⟨.identifier, 0, ['x']⟩, insertedSemicolon 1, endOfFile 2], []⟩ := by cbv
  have hlegal : ofText ['/', '/', '\n', 'y'] =
      .ok ⟨[⟨.identifier, 3, ['y']⟩, endOfFile 4], [⟨.line, 0, ['/', '/']⟩]⟩ := by cbv
  have hillegal : ofText ['0', 'b'] = .error ⟨.malformedNumber, 0, ['0', 'b']⟩ := by cbv
  obtain ⟨front, hfront, hall⟩ := ofText_append_of_lineFeed hfirst
  have hsplit : [⟨.identifier, 0, ['x']⟩, insertedSemicolon 1] ++ [endOfFile 2] =
      front ++ [endOfFile 2] := hfront
  obtain rfl := List.append_cancel_right hsplit
  constructor
  · have hsecond := hall ['/', '/', '\n', 'y']
    rw [hlegal] at hsecond
    exact hsecond
  · have hsecond := hall ['0', 'b']
    rw [hillegal] at hsecond
    exact hsecond

end TokenStream

end Frontend
