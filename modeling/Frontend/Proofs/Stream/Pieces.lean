import Frontend.Stream.Basic
import Frontend.Proofs.Token.Classes

/-!
# Texts cut into pieces

A pass over a text does two things at once: it cuts the text, and it keeps a list of what it finds.
`pieces` is the first alone. It cuts a text into the characters between tokens and the tokens, and
loses nothing of it. `Pass.overPieces` is the second: a pass over a text that is already cut. What a
pass finds is then a matter of lists, and it is read off the tokens at their places, `placed`.
-/

namespace Frontend

/-- A character that belongs to no token: white space or a line feed. -/
def isGap (c : Char) : Bool :=
  isBlank c || c = '\n'

/-- What a text is cut into. -/
inductive Piece where
  /-- A character between tokens. -/
  | gap (c : Char)
  /-- A token, which may be a comment or an illegal one. -/
  | token (cls : TokenClass) (text : Text)
  deriving DecidableEq, Repr

/-- Token classes that a token stream lists; comments stand apart, illegal tokens end the pass. -/
def TokenClass.isListed : TokenClass → Bool
  | comment _ | illegal _ => false
  | _ => true

namespace Piece

/-- The text of a piece. -/
def text : Piece → Text
  | gap c => [c]
  | token _ text => text

/-- What holds of every piece that a text is cut into. -/
def Sound : Piece → Prop
  | gap c => isGap c
  | token cls text => text ≠ [] ∧ cls ≠ .endOfFile ∧ (cls = .comment .line → '\n' ∉ text)

/-- Lists of pieces, taken apart by what a pass does with the first piece. -/
@[elab_as_elim]
theorem listInduction {motive : List Piece → Prop} (nil : motive [])
    (gap : ∀ c ps, motive ps → motive (.gap c :: ps))
    (comment : ∀ form text ps, motive ps → motive (.token (.comment form) text :: ps))
    (illegal : ∀ reason text ps, motive ps → motive (.token (.illegal reason) text :: ps))
    (listed : ∀ cls text ps, cls.isListed → motive ps → motive (.token cls text :: ps))
    (ps : List Piece) : motive ps := by
  induction ps with
  | nil => exact nil
  | cons p ps ih =>
    cases p with
    | gap c => exact gap c ps ih
    | token cls text =>
      cases cls with
      | comment form => exact comment form text ps ih
      | illegal reason => exact illegal reason text ps ih
      | _ => exact listed _ text ps rfl ih

/-- The tokens among pieces, where the first piece stands at an offset. -/
def placed (offset : Nat) : List Piece → List Token
  | [] => []
  | gap c :: ps => placed (offset + c.utf8Size) ps
  | token cls text :: ps => ⟨cls, offset, text⟩ :: placed (offset + Text.size text) ps

end Piece

/-- The pieces of a text. -/
def pieces : Text → List Piece
  | [] => []
  | c :: t =>
    if isGap c then .gap c :: pieces t
    else .token (Scan.leading c t).cls (Scan.leading c t).text :: pieces (Scan.leading c t).rest
termination_by t => t.length
decreasing_by
  · simp
  · exact Scan.length_rest_leading c t

/-- There are no pieces of the empty text. -/
@[simp] theorem pieces_nil : pieces [] = [] := by
  rw [pieces]

/-- A gap is a piece of its own. -/
theorem pieces_gap {c : Char} (h : isGap c = true) (t : Text) :
    pieces (c :: t) = .gap c :: pieces t := by
  rw [pieces, if_pos h]

/-- What is no gap starts a token, and the text is cut behind it. -/
theorem pieces_token {c : Char} (h : isGap c = false) (t : Text) :
    pieces (c :: t) =
      .token (Scan.leading c t).cls (Scan.leading c t).text :: pieces (Scan.leading c t).rest := by
  rw [pieces, if_neg (by simp [h])]

/-- Cutting a text loses nothing of it. -/
theorem flatMap_text_pieces (t : Text) : (pieces t).flatMap Piece.text = t := by
  fun_induction pieces t with
  | case1 => rfl
  | case2 c t hgap ih => rw [List.flatMap_cons, ih]; rfl
  | case3 c t hgap ih =>
    rw [List.flatMap_cons, ih]
    exact Scan.leading_of c t

/-- The pieces of a text are sound. -/
theorem sound_of_mem_pieces {t : Text} {p : Piece} (h : p ∈ pieces t) : p.Sound := by
  fun_induction pieces t with
  | case1 => simp at h
  | case2 c t hgap ih =>
    rcases List.mem_cons.mp h with rfl | h
    · exact hgap
    · exact ih h
  | case3 c t hgap ih =>
    rcases List.mem_cons.mp h with rfl | h
    · exact ⟨Scan.leading_text_ne_nil c t, Scan.sound_leading c t⟩
    · exact ih h

namespace Pass

/-- A token found first is in front of the tokens. -/
@[simp] theorem tokens_withToken (t : Token) (p : Pass) :
    (p.withToken t).tokens = t :: p.tokens := rfl

/-- A token found first is no comment. -/
@[simp] theorem comments_withToken (t : Token) (p : Pass) :
    (p.withToken t).comments = p.comments := rfl

/-- A token found first does not stop the pass. -/
@[simp] theorem error_withToken (t : Token) (p : Pass) : (p.withToken t).error = p.error := rfl

/-- A comment found first is none of the tokens. -/
@[simp] theorem tokens_withComment (c : Comment) (p : Pass) :
    (p.withComment c).tokens = p.tokens := rfl

/-- A comment found first is in front of the comments. -/
@[simp] theorem comments_withComment (c : Comment) (p : Pass) :
    (p.withComment c).comments = c :: p.comments := rfl

/-- A comment found first does not stop the pass. -/
@[simp] theorem error_withComment (c : Comment) (p : Pass) :
    (p.withComment c).error = p.error := rfl

/-- A semicolon inserted first, if there is one, is in front of the tokens. -/
@[simp] theorem tokens_withSemicolon (offset : Option Nat) (p : Pass) :
    (p.withSemicolon offset).tokens = (offset.map insertedSemicolon).toList ++ p.tokens := by
  cases offset <;> rfl

/-- An inserted semicolon is no comment. -/
@[simp] theorem comments_withSemicolon (offset : Option Nat) (p : Pass) :
    (p.withSemicolon offset).comments = p.comments := by
  cases offset <;> rfl

/-- An inserted semicolon does not stop the pass. -/
@[simp] theorem error_withSemicolon (offset : Option Nat) (p : Pass) :
    (p.withSemicolon offset).error = p.error := by
  cases offset <;> rfl

/-- A pass over pieces, the first of which stands at an offset. -/
def overPieces (armed : Bool) (offset : Nat) : List Piece → Pass
  | [] => finished offset
  | .gap c :: ps =>
    if c = '\n' then
      (overPieces false (offset + c.utf8Size) ps).withSemicolon
        (if armed then some offset else none)
    else overPieces armed (offset + c.utf8Size) ps
  | .token (.comment form) text :: ps =>
    let feed? := if armed then lineFeedOffset? form ⟨offset, text⟩ else none
    ((overPieces (armed && feed?.isNone) (offset + Text.size text) ps).withComment
      ⟨form, offset, text⟩).withSemicolon feed?
  | .token (.illegal reason) text :: _ => stopped ⟨reason, offset, text⟩
  | .token cls text :: ps =>
    (overPieces cls.arms (offset + Text.size text) ps).withToken ⟨cls, offset, text⟩

/-- A pass over a listed token finds it, and its class says whether the pass goes on armed. This is
the last equation of `overPieces`, for all the classes it is about at once. -/
theorem overPieces_listed {cls : TokenClass} (h : cls.isListed = true) (armed : Bool)
    (offset : Nat) (text : Text) (ps : List Piece) :
    overPieces armed offset (.token cls text :: ps) =
      (overPieces cls.arms (offset + Text.size text) ps).withToken ⟨cls, offset, text⟩ := by
  cases cls with
  | comment form => simp [TokenClass.isListed] at h
  | illegal reason => simp [TokenClass.isListed] at h
  | _ => rfl

/-- A pass over a text is a pass over its pieces. -/
theorem through_eq_overPieces (armed : Bool) (offset : Nat) (t : Text) :
    through armed offset t = overPieces armed offset (pieces t) := by
  fun_induction through armed offset t with
  | case1 => rw [pieces_nil]; rfl
  | case2 armed offset t ih =>
    rw [pieces_gap (by decide), ih]
    rfl
  | case3 armed offset c t hfeed hblank ih =>
    rw [pieces_gap (by simp [isGap, hblank]), ih, overPieces, if_neg hfeed]
  | case4 armed offset c t hfeed hblank scan lexeme form hcls feed? ih =>
    rw [pieces_token (by simp [isGap, hblank, hfeed]), hcls, overPieces, ih]
    rfl
  | case5 armed offset c t hfeed hblank scan lexeme reason hcls =>
    rw [pieces_token (by simp [isGap, hblank, hfeed]), hcls, overPieces]
  | case6 armed offset c t hfeed hblank scan lexeme hcomment hillegal ih =>
    have hlisted : scan.cls.isListed = true := by
      unfold TokenClass.isListed
      split
      · rename_i form h
        exact absurd h (hcomment form)
      · rename_i reason h
        exact absurd h (hillegal reason)
      · rfl
    rw [pieces_token (by simp [isGap, hblank, hfeed]), overPieces_listed hlisted, ih]
    rfl

end Pass

end Frontend
