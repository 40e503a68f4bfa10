import Frontend.Proofs.Spans
import Frontend.Proofs.Stream.Composition
import Frontend.Proofs.Token.Alone

/-!
# Texts cut at their error

What comes after the illegal token of a text has no part in the error. Without the token and what
follows it the text is legal, and a pass finds in it what it has found before the error: a token is
read again where a beginning of what followed it is left, and a line comment too, since the cut is
in front of a character that is no gap, so that it does not part the two characters of a line break.
With the token but without what follows it, the error is the same, since the token is read again
from its own text alone.
-/

namespace Frontend

/-- A line that is ended is still ended if what follows is cut behind a character that is no gap, or
in front of one. -/
theorem Comments.EndsLine.cut {body back u v : Text} (h : EndsLine body (back ++ u))
    (hu : u.head?.any isGap = false) (hv : v <+: u) : EndsLine body (back ++ v) := by
  have hstart {c : Char} {more : Text} (hc : isGap c = true) : u ≠ c :: more := by
    rintro rfl
    rw [List.head?_cons, Option.any_some, hc] at hu
    exact nomatch hu
  rcases h with hnil | ⟨more, hreturn⟩ | ⟨⟨more, hfeed⟩, hlast⟩
  · obtain ⟨rfl, rfl⟩ := List.append_eq_nil_iff.mp hnil
    exact .inl (List.prefix_nil.mp hv)
  · -- the line feed is not where the text is cut
    rcases back with _ | ⟨x, _ | ⟨y, back⟩⟩
    · exact absurd hreturn (hstart (by rfl))
    · exact absurd (List.cons.inj hreturn).2 (hstart (by rfl))
    · obtain ⟨rfl, hrest⟩ := List.cons.inj hreturn
      obtain ⟨rfl, -⟩ := List.cons.inj hrest
      exact .inr (.inl ⟨back ++ v, rfl⟩)
  · rcases back with _ | ⟨x, back⟩
    · exact absurd hfeed (hstart (by rfl))
    · obtain ⟨rfl, -⟩ := List.cons.inj hfeed
      exact .inr (.inr ⟨⟨back ++ v, rfl⟩, hlast⟩)

/-- The last pieces of a text are what their own text is cut into. -/
theorem pieces_flatMap_of_append {t : Text} {ps qs : List Piece} (h : pieces t = ps ++ qs) :
    pieces (qs.flatMap Piece.text) = qs := by
  induction ps generalizing t with
  | nil =>
    obtain rfl : pieces t = qs := h
    rw [flatMap_text_pieces]
  | cons p ps ih =>
    cases t with
    | nil =>
      rw [pieces_nil] at h
      exact nomatch h
    | cons c t =>
      cases hgap : isGap c with
      | true =>
        rw [pieces_gap hgap] at h
        exact ih (List.cons.inj h).2
      | false =>
        rw [pieces_token hgap] at h
        exact ih (List.cons.inj h).2

/-- A text can be cut in front of a character that is no gap, or anywhere in what follows: the legal
pieces before are the same. -/
theorem pieces_append_of_prefix {ps : List Piece} {t u v : Text} (h : pieces t = ps ++ pieces u)
    (hlegal : ∀ p ∈ ps, p.Legal) (hu : u.head?.any isGap = false) (hv : v <+: u) :
    pieces (ps.flatMap Piece.text ++ v) = ps ++ pieces v := by
  induction ps generalizing t with
  | nil => rfl
  | cons p ps ih =>
    have hrest : ∀ p ∈ ps, p.Legal := fun q hq => hlegal q (List.mem_cons_of_mem _ hq)
    cases t with
    | nil =>
      rw [pieces_nil] at h
      exact nomatch h
    | cons c t =>
      cases hgap : isGap c with
      | true =>
        rw [pieces_gap hgap] at h
        obtain ⟨rfl, htail⟩ := List.cons.inj h
        have hcut := pieces_gap hgap (ps.flatMap Piece.text ++ v)
        rw [ih htail hrest] at hcut
        exact hcut
      | false =>
        rw [pieces_token hgap] at h
        obtain rfl := (List.cons.inj h).1
        have htail : pieces (Scan.leading c t).rest = ps ++ pieces u := (List.cons.inj h).2
        have hleft : (Scan.leading c t).rest = ps.flatMap Piece.text ++ u := by
          rw [← flatMap_text_pieces (Scan.leading c t).rest, htail, List.flatMap_append,
            flatMap_text_pieces]
        -- what follows the token is cut short, which lets it go on no further
        have hnew : NoFurther (ps.flatMap Piece.text ++ v) (Scan.leading c t).rest := by
          rw [hleft]
          exact .of_isPrefix (List.prefix_append_right_inj _ |>.mpr hv)
        -- a line comment still ends its line, since `u` does not start with the line break
        have hline : (Scan.leading c t).cls = .comment .line →
            Comments.EndsLine (Scan.leading c t).text (ps.flatMap Piece.text ++ v) := by
          intro hcls
          have hends := Scan.endsLine_leading hcls
          rw [hleft] at hends
          exact hends.cut hu hv
        have hcut := pieces_leading_again hgap (hlegal _ List.mem_cons_self) hnew hline
        rw [ih htail hrest, ← List.append_assoc] at hcut
        exact hcut

/-- A piece that is a token is cut out of its own text alone, be it legal or not. -/
theorem pieces_text_of_token {t text : Text} {cls : TokenClass} {ps : List Piece}
    (h : pieces t = .token cls text :: ps) :
    pieces text = [.token cls text] ∧ text <+: t ∧ t.head?.any isGap = false := by
  cases t with
  | nil =>
    rw [pieces_nil] at h
    exact nomatch h
  | cons c t =>
    cases hgap : isGap c with
    | true =>
      rw [pieces_gap hgap] at h
      exact nomatch h
    | false =>
      rw [pieces_token hgap] at h
      obtain ⟨rfl, rfl⟩ := Piece.token.inj (List.cons.inj h).1
      obtain ⟨w, htext, hrest⟩ :=
        Text.exists_tail (Scan.leading_of c t) (Scan.leading_text_ne_nil c t)
      refine ⟨?_, ⟨_, Scan.leading_of c t⟩, hgap⟩
      rw [htext, pieces_token hgap, Scan.leading_alone htext, pieces_nil]

/-- Of pieces, the first of which stands at an offset, the first illegal one is the error. -/
structure StopsAt (offset : Nat) (ps : List Piece) (e : LexicalError) (front back : List Piece) :
    Prop where
  split : ps = front ++ .token (.illegal e.reason) e.lexeme.text :: back
  legal : ∀ p ∈ front, p.Legal
  start : e.lexeme.start = offset + Text.size (front.flatMap Piece.text)

/-- A legal piece more in front does not change the error. -/
theorem StopsAt.cons {offset : Nat} {p : Piece} {ps front back : List Piece} {e : LexicalError}
    (h : StopsAt (offset + Text.size p.text) ps e front back) (hp : p.Legal) :
    StopsAt offset (p :: ps) e (p :: front) back where
  split := by
    rw [h.split]
    rfl
  legal := List.forall_mem_cons.mpr ⟨hp, h.legal⟩
  start := by rw [h.start, List.flatMap_cons, Text.size_append, Nat.add_assoc]

namespace Pass

/-- A pass that is stopped is stopped at the first illegal piece. -/
theorem exists_stopsAt_of_error {armed : Bool} {offset : Nat} {ps : List Piece} {e : LexicalError}
    (h : (overPieces armed offset ps).error = some e) :
    ∃ front back, StopsAt offset ps e front back := by
  induction ps using Piece.listInduction generalizing armed offset with
  | nil => cases h
  | gap c ps ih =>
    have hrest : ∃ front back, StopsAt (offset + c.utf8Size) ps e front back := by
      rw [overPieces] at h
      split at h
      · rw [error_withSemicolon] at h
        exact ih h
      · exact ih h
    obtain ⟨front, back, hstops⟩ := hrest
    exact ⟨_, back, hstops.cons (p := .gap c) trivial⟩
  | comment form text ps ih =>
    rw [overPieces, error_withSemicolon, error_withComment] at h
    obtain ⟨front, back, hstops⟩ := ih h
    refine ⟨_, back, hstops.cons (p := .token (.comment form) text) ?_⟩
    intro _ heq
    cases heq
  | illegal reason text ps =>
    obtain rfl := Option.some.inj h
    exact ⟨[], ps, rfl, fun p hp => absurd hp List.not_mem_nil, rfl⟩
  | listed cls text ps hcls ih =>
    rw [overPieces_listed hcls, error_withToken] at h
    obtain ⟨front, back, hstops⟩ := ih h
    refine ⟨_, back, hstops.cons (p := .token cls text) ?_⟩
    rintro reason rfl
    cases hcls

/-- Whatever comes after the first illegal piece, and whether it comes at all, a pass finds the same
before it. -/
theorem overPieces_of_stopsAt {ps front back : List Piece} {e : LexicalError}
    (h : StopsAt 0 ps e front back) :
    overPieces false 0 front =
        (finished e.lexeme.start).prepend (overPieces false 0 ps).tokens
          (overPieces false 0 ps).comments ∧
      overPieces false 0 (front ++ [.token (.illegal e.reason) e.lexeme.text]) =
        overPieces false 0 ps := by
  obtain ⟨tokens, comments, armed, hfinds⟩ := exists_finds h.legal false 0
  rw [Finds, ← h.start] at hfinds
  have hstopped : overPieces false 0 ps = (stopped e).prepend tokens comments := by
    rw [h.split, hfinds]
    rfl
  have htokens : (overPieces false 0 ps).tokens = tokens := by simp [hstopped, prepend, stopped]
  have hcomments : (overPieces false 0 ps).comments = comments := by
    simp [hstopped, prepend, stopped]
  constructor
  · have hend := hfinds []
    rw [List.append_nil] at hend
    rw [hend, htokens, hcomments]
    rfl
  · rw [hstopped, hfinds]
    rfl

end Pass

/-- Cut where its first illegal token starts or where it ends, a text is cut into its pieces up to
there. -/
theorem pieces_slice_of_stopsAt {t : Text} {e : LexicalError} {front back : List Piece}
    (h : StopsAt 0 (pieces t) e front back) :
    Text.Between t e.lexeme.start e.lexeme.stop e.lexeme.text ∧
      pieces (Text.slice t 0 e.lexeme.start) = front ∧
      pieces (Text.slice t 0 e.lexeme.stop) =
        front ++ [.token (.illegal e.reason) e.lexeme.text] := by
  obtain ⟨hsplit, hlegal, hstart⟩ := h
  rw [Nat.zero_add] at hstart
  have htail := pieces_flatMap_of_append hsplit
  obtain ⟨halone, hprefix, hhead⟩ := pieces_text_of_token htail
  have htext : t = front.flatMap Piece.text ++ e.lexeme.text ++ back.flatMap Piece.text := by
    rw [← flatMap_text_pieces t, hsplit, List.flatMap_append, List.flatMap_cons, List.append_assoc]
    rfl
  have hbefore : Text.Between t 0 e.lexeme.start (front.flatMap Piece.text) :=
    ⟨[], _, by rw [List.nil_append, htext, List.append_assoc], rfl, by rw [hstart, Nat.zero_add]⟩
  have hupTo : Text.Between t 0 e.lexeme.stop (front.flatMap Piece.text ++ e.lexeme.text) :=
    ⟨[], _, htext, rfl, by rw [Lexeme.stop, hstart, Text.size_append, Nat.zero_add]⟩
  rw [← htail] at hsplit
  refine ⟨⟨_, _, htext, hstart.symm, rfl⟩, ?_, ?_⟩
  · have hcut := pieces_append_of_prefix hsplit hlegal hhead List.nil_prefix
    rw [List.append_nil, pieces_nil, List.append_nil] at hcut
    rw [hbefore.slice_eq, hcut]
  · have hcut := pieces_append_of_prefix hsplit hlegal hhead hprefix
    rw [hupTo.slice_eq, hcut, halone]

namespace TokenStream

/-- **An error blames exactly the text it spans.** The text before the error has a stream: the
tokens, inserted semicolons included, and the comments that a pass over the whole text finds before
the error, and the end of the file right there. The text up to the end of the error has the same
error. -/
theorem ofText_slice_of_error {t : Text} {e : LexicalError} (h : ofText t = .error e) :
    Text.Between t e.lexeme.start e.lexeme.stop e.lexeme.text ∧
      ofText (Text.slice t 0 e.lexeme.start) =
        .ok ⟨(passOver t).tokens ++ [endOfFile e.lexeme.start], (passOver t).comments⟩ ∧
      ofText (Text.slice t 0 e.lexeme.stop) = .error e := by
  have hpass (u : Text) : passOver u = Pass.overPieces false 0 (pieces u) :=
    Pass.through_eq_overPieces false 0 u
  have herror := error_passOver_of_error h
  rw [hpass] at herror
  obtain ⟨front, back, hstops⟩ := Pass.exists_stopsAt_of_error herror
  obtain ⟨hbetween, hfront, hblamed⟩ := pieces_slice_of_stopsAt hstops
  obtain ⟨hbefore, hupTo⟩ := Pass.overPieces_of_stopsAt hstops
  refine ⟨hbetween, ?_, ?_⟩
  · rw [ofText, hpass, hfront, hbefore, hpass t]
    simp [Pass.prepend, Pass.finished]
  · rw [← hblamed, ← hpass, ← hpass] at hupTo
    rw [ofText, hupTo, ← ofText, h]

/-- A comment and an inserted semicolon before a literal that the line break leaves open, with a
letter of two bytes in it: the text before the literal, and the text with it. -/
theorem ofText_slice_of_error_open :
    ofText ['x', '/', '/', '\r', '\n', '\x22', 'é', '\n', 'y'] =
        .error ⟨.unterminated .string, 5, ['\x22', 'é']⟩ ∧
      ofText ['x', '/', '/', '\r', '\n'] =
        .ok ⟨[⟨.identifier, 0, ['x']⟩, insertedSemicolon 4, endOfFile 5],
          [⟨.line, 1, ['/', '/']⟩]⟩ ∧
      ofText ['x', '/', '/', '\r', '\n', '\x22', 'é'] =
        .error ⟨.unterminated .string, 5, ['\x22', 'é']⟩ := by
  have herror : ofText ['x', '/', '/', '\r', '\n', '\x22', 'é', '\n', 'y'] =
      .error ⟨.unterminated .string, 5, ['\x22', 'é']⟩ := by cbv
  obtain ⟨-, hbefore, hupTo⟩ := ofText_slice_of_error herror
  have hpass : passOver ['x', '/', '/', '\r', '\n', '\x22', 'é', '\n', 'y'] =
      ⟨[⟨.identifier, 0, ['x']⟩, insertedSemicolon 4], [⟨.line, 1, ['/', '/']⟩],
        some ⟨.unterminated .string, 5, ['\x22', 'é']⟩⟩ := by cbv
  rw [hpass] at hbefore
  exact ⟨herror, hbefore, hupTo⟩

end TokenStream

end Frontend
