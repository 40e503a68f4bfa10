import Frontend.Proofs.Stream.Placed
import Frontend.Proofs.Stream.Spelling

/-!
# Passes that compose

What a pass finds in the first part of a text, and whether it goes on armed, can be said without
what follows: `Pass.Finds` says it of pieces, and `Pass.Reads` of a text that spells them. Both
compose, so what a pass finds in a text is put together from what it finds in its parts.
-/

namespace Frontend

namespace Pass

/-- The pass that found tokens and comments before others. -/
def prepend (tokens : List Token) (comments : List Comment) (p : Pass) : Pass :=
  ⟨tokens ++ p.tokens, comments ++ p.comments, p.error⟩

/-- A comment found first is one found before the others. -/
theorem withComment_eq_prepend (c : Comment) (p : Pass) : p.withComment c = p.prepend [] [c] :=
  rfl

/-- A semicolon inserted first, if there is one, is found before the others. -/
theorem withSemicolon_eq_prepend (offset : Option Nat) (p : Pass) :
    p.withSemicolon offset = p.prepend (offset.map insertedSemicolon).toList [] := by
  cases offset <;> rfl

/-- Finding more before what was found before others is finding all of it before them. -/
theorem prepend_prepend (ts us : List Token) (cs ds : List Comment) (p : Pass) :
    (p.prepend us ds).prepend ts cs = p.prepend (ts ++ us) (cs ++ ds) := by
  simp only [prepend, List.append_assoc]

/-- In the pieces a pass finds the tokens and comments, whatever pieces follow, and then goes on
armed or not. -/
def Finds (armed : Bool) (offset : Nat) (ps : List Piece) (tokens : List Token)
    (comments : List Comment) (armed' : Bool) : Prop :=
  ∀ qs, overPieces armed offset (ps ++ qs) =
    (overPieces armed' (offset + Text.size (ps.flatMap Piece.text)) qs).prepend tokens comments

/-- In no pieces nothing is found, and the pass stays armed if it was. -/
theorem finds_nil (armed : Bool) (offset : Nat) : Finds armed offset [] [] [] armed :=
  fun _ => rfl

/-- What is found in pieces, and then in the pieces behind them, is found in all of them. The first
part hands over whether the pass is armed, and how far it has come. -/
theorem Finds.append {armed armed' armed'' : Bool} {offset : Nat} {ps qs : List Piece}
    {ts us : List Token} {cs ds : List Comment} (hps : Finds armed offset ps ts cs armed')
    (hqs : Finds armed' (offset + Text.size (ps.flatMap Piece.text)) qs us ds armed'') :
    Finds armed offset (ps ++ qs) (ts ++ us) (cs ++ ds) armed'' := by
  intro rest
  rw [List.append_assoc, hps, hqs, prepend_prepend, List.flatMap_append, Text.size_append,
    Nat.add_assoc]

/-- A listed token is found, and its class says whether the pass goes on armed. -/
theorem finds_listed {cls : TokenClass} (h : cls.isListed = true) (armed : Bool) (offset : Nat)
    (text : Text) :
    Finds armed offset [.token cls text] [⟨cls, offset, text⟩] [] cls.arms := by
  intro qs
  rw [List.singleton_append, overPieces_listed h, List.flatMap_singleton]
  rfl

/-- In a blank nothing is found, and the pass stays armed if it was. -/
theorem finds_blank {c : Char} (h : c ≠ '\n') (armed : Bool) (offset : Nat) :
    Finds armed offset [.gap c] [] [] armed := by
  intro qs
  rw [List.singleton_append, overPieces, if_neg h, List.flatMap_singleton]
  rfl

/-- A line feed ends the statement: an armed pass finds a semicolon there, and any pass goes on
unarmed. -/
theorem finds_feed (armed : Bool) (offset : Nat) :
    Finds armed offset [.gap '\n'] (if armed then [insertedSemicolon offset] else []) [] false := by
  intro qs
  rw [List.singleton_append, overPieces, if_pos rfl, List.flatMap_singleton]
  cases armed <;> rfl

/-- A comment is found, with a semicolon at its first line feed if the pass is armed. Without such a
line feed the pass stays armed. -/
theorem finds_comment {armed : Bool} {offset : Nat} {form : CommentForm} {text : Text}
    {feed? : Option Nat}
    (h : (if armed then lineFeedOffset? form ⟨offset, text⟩ else none) = feed?) :
    Finds armed offset [.token (.comment form) text] (feed?.map insertedSemicolon).toList
      [⟨form, offset, text⟩] (armed && feed?.isNone) := by
  subst h
  intro qs
  rw [List.singleton_append, overPieces, withSemicolon_eq_prepend, withComment_eq_prepend,
    prepend_prepend, List.append_nil, List.nil_append, List.flatMap_singleton]
  rfl

/-- Legal pieces do not end a pass. -/
theorem exists_finds {ps : List Piece} (h : ∀ p ∈ ps, p.Legal) (armed : Bool) (offset : Nat) :
    ∃ tokens comments armed', Finds armed offset ps tokens comments armed' := by
  induction ps generalizing armed offset with
  | nil => exact ⟨_, _, _, finds_nil armed offset⟩
  | cons p ps ih =>
    obtain ⟨tokens, comments, armed', hhead⟩ :
        ∃ tokens comments armed', Finds armed offset [p] tokens comments armed' := by
      cases p with
      | gap c =>
        by_cases hfeed : c = '\n'
        · rw [hfeed]
          exact ⟨_, _, _, finds_feed armed offset⟩
        · exact ⟨_, _, _, finds_blank hfeed armed offset⟩
      | token cls text =>
        cases cls with
        | comment form => exact ⟨_, _, _, finds_comment rfl⟩
        | illegal reason => exact absurd rfl (h _ List.mem_cons_self reason)
        | _ => exact ⟨_, _, _, finds_listed rfl armed offset text⟩
    obtain ⟨_, _, _, htail⟩ := ih (fun q hq => h q (List.mem_cons_of_mem _ hq)) armed'
      (offset + Text.size ([p].flatMap Piece.text))
    exact ⟨_, _, _, hhead.append htail⟩

/-- The pieces of a pass that nothing stops are legal. -/
theorem legal_of_error_eq_none {armed : Bool} {offset : Nat} {ps : List Piece}
    (h : (overPieces armed offset ps).error = none) : ∀ p ∈ ps, p.Legal := by
  intro p hp
  cases p with
  | gap c => trivial
  | token cls text =>
    rintro reason rfl
    obtain ⟨start, hplaced⟩ := Piece.exists_mem_placed offset hp
    rw [error_overPieces, List.findSome?_eq_none_iff] at h
    exact nomatch h _ hplaced

/-- In the text a pass finds the tokens and comments, whatever text follows, and then goes on armed
or not. -/
def Reads (armed : Bool) (offset : Nat) (t : Text) (tokens : List Token) (comments : List Comment)
    (armed' : Bool) : Prop :=
  ∀ rest, through armed offset (t ++ rest) =
    (through armed' (offset + Text.size t) rest).prepend tokens comments

/-- In the empty text nothing is found, and the pass stays armed if it was. -/
theorem reads_nil (armed : Bool) (offset : Nat) : Reads armed offset [] [] [] armed :=
  fun _ => rfl

/-- What is found in a text, and then in the text behind it, is found in both in a row. -/
theorem Reads.append {armed armed' armed'' : Bool} {offset : Nat} {t u : Text} {ts us : List Token}
    {cs ds : List Comment} (ht : Reads armed offset t ts cs armed')
    (hu : Reads armed' (offset + Text.size t) u us ds armed'') :
    Reads armed offset (t ++ u) (ts ++ us) (cs ++ ds) armed'' := by
  intro rest
  rw [List.append_assoc, ht, hu, prepend_prepend, Text.size_append, Nat.add_assoc]

end Pass

open Pass

variable {armed armed' : Bool} {offset : Nat}

/-- A pass over a text finds what it finds in the pieces that the text spells. -/
theorem Spells.reads {t : Text} {ps : List Piece} {tokens : List Token} {comments : List Comment}
    (ht : Spells t ps) (h : Finds armed offset ps tokens comments armed') :
    Reads armed offset t tokens comments armed' := by
  intro rest
  rw [through_eq_overPieces, ht, h, through_eq_overPieces, ht.size_eq]

/-- A line feed is read as the gap it is, with a semicolon if the pass is armed. -/
theorem reads_feed :
    Reads armed offset ['\n'] (if armed then [insertedSemicolon offset] else []) [] false :=
  (Spells.gap (by decide)).reads (finds_feed armed offset)

/-- A listed token that can stand anywhere is found. -/
theorem Spells.reads_listed {cls : TokenClass} {text : Text} (h : Spells text [.token cls text])
    (hlisted : cls.isListed = true) :
    Reads armed offset text [⟨cls, offset, text⟩] [] cls.arms :=
  h.reads (finds_listed hlisted armed offset text)

/-- A listed token with a space behind it is found. -/
theorem Freestanding.reads_space {cls : TokenClass} {text : Text} (h : Freestanding cls text)
    (hlisted : cls.isListed = true) :
    Reads armed offset (text ++ [' ']) [⟨cls, offset, text⟩] [] cls.arms :=
  (h.spells (by decide)).reads
    ((finds_listed hlisted armed offset text).append (finds_blank (by decide) _ _))

/-- A listed token with a line feed behind it is found, and a semicolon is inserted if the token can
end a statement. -/
theorem Freestanding.reads_feed {cls : TokenClass} {text : Text} (h : Freestanding cls text)
    (hlisted : cls.isListed = true) :
    Reads armed offset (text ++ ['\n']) (⟨cls, offset, text⟩ ::
      if cls.arms then [insertedSemicolon (offset + Text.size text)] else []) [] false := by
  have hfinds := (finds_listed hlisted armed offset text).append (finds_feed _ _)
  rw [List.flatMap_singleton] at hfinds
  exact (h.spells (by decide)).reads hfinds

namespace TokenStream

/-- A text in which a pass finds tokens and comments has the stream of them. -/
theorem ofText_of_reads {t : Text} {tokens : List Token} {comments : List Comment}
    (h : Reads false 0 t tokens comments armed) :
    ofText t = .ok ⟨tokens ++ [endOfFile (Text.size t)], comments⟩ := by
  have hend := h []
  rw [List.append_nil, Nat.zero_add] at hend
  rw [ofText, passOver, hend]
  simp only [prepend, through, finished, List.append_nil]

end TokenStream

end Frontend
