import Frontend.Proofs.Token.Reading
import Frontend.Proofs.Token.Rereading
import Frontend.Proofs.Text.Between

/-!
# Where comments end

A delimited comment is read with no memory at all: a star is the end of it if a slash comes next,
and otherwise it is passed like any other character. So the first closing mark after the opening
mark ends it, whatever run of stars stands before the slash, and the star of the opening mark is no
part of one. A line comment looks one character further to tell the carriage return of a line break
from one inside the line.
-/

namespace Frontend

namespace Comments

/-- A mark that closes a delimited comment, somewhere in the text after its opening mark. -/
def Closes (t body rest : Text) : Prop :=
  t = body ++ '*' :: '/' :: rest

/-- The first of the marks that close a delimited comment. -/
def ClosesFirst (t body rest : Text) : Prop :=
  Closes t body rest ∧ ∀ body' rest', Closes t body' rest' → body.length ≤ body'.length

/-- One of the marks that close a delimited comment is the first. -/
theorem Closes.exists_first {t body rest : Text} (h : Closes t body rest) :
    ∃ body rest, ClosesFirst t body rest :=
  Text.exists_shortest ⟨body, rest, h⟩

/-- Only one of the marks that close a delimited comment is the first. -/
theorem ClosesFirst.unique {t body rest body' rest' : Text} (h : ClosesFirst t body rest)
    (h' : ClosesFirst t body' rest') : body = body' ∧ rest = rest' := by
  have hlength : body.length = body'.length :=
    Nat.le_antisymm (h.2 body' rest' h'.1) (h'.2 body rest h.1)
  obtain ⟨hbody, hmark⟩ := List.append_inj (h.1.symm.trans h'.1) hlength
  refine ⟨hbody, ?_⟩
  simpa using hmark

/-- The slash after a run of stars closes a comment together with the last of them. -/
theorem closesFirst_stars (n : Nat) (rest : Text) :
    ClosesFirst (List.replicate n '*' ++ '*' :: '/' :: rest) (List.replicate n '*') rest := by
  refine ⟨rfl, fun body' rest' hcloses => ?_⟩
  rw [List.length_replicate]
  apply Nat.le_of_not_lt
  intro hlt
  -- the slash of an earlier mark would stand where there is a star
  have hslash := congrArg (·[body'.length + 1]?) hcloses
  have hstars : List.replicate n '*' ++ '*' :: '/' :: rest =
      List.replicate (n + 1) '*' ++ '/' :: rest := by
    rw [List.replicate_succ', List.append_assoc]
    rfl
  rw [hstars] at hslash
  simp [List.getElem?_append, hlt] at hslash

/-- A part of a comment in which no closing mark starts is passed. -/
theorem delimitedBody_append (body rest : Text)
    (h : ∀ a b, Closes (body ++ rest) a b → body.length ≤ a.length) :
    delimitedBody (body ++ rest) = (delimitedBody rest).prepend body := by
  induction body with
  | nil => rfl
  | cons c body ih =>
    have hmark : ¬(c = '*' ∧ (body ++ rest).head? = some '/') := by
      rintro ⟨rfl, hslash⟩
      obtain ⟨more, hmore⟩ := List.head?_eq_some_iff.mp hslash
      have hle := h [] more (congrArg ('*' :: ·) hmore)
      exact absurd hle (Nat.not_succ_le_zero _)
    have hlater : ∀ a b, Closes (body ++ rest) a b → body.length ≤ a.length :=
      fun a b hcloses => Nat.le_of_succ_le_succ (h (c :: a) b (congrArg (c :: ·) hcloses))
    rw [List.cons_append, delimitedBody, if_neg hmark, ih hlater]
    rfl

/-- The first mark that closes a comment ends it. -/
theorem delimitedBody_of_closesFirst {t body rest : Text} (h : ClosesFirst t body rest) :
    delimitedBody t = ⟨.comment .delimited, body ++ ['*', '/'], rest⟩ := by
  obtain ⟨rfl, hfirst⟩ := h
  rw [delimitedBody_append _ _ hfirst]
  rfl

/-- A comment that no mark closes takes all of the text. -/
theorem delimitedBody_of_open {t : Text} (h : ∀ body rest, ¬Closes t body rest) :
    delimitedBody t = ⟨.illegal (.unterminated .comment), t, []⟩ := by
  have hopen : ∀ a b, Closes (t ++ []) a b → t.length ≤ a.length := by
    intro a b hcloses
    rw [List.append_nil] at hcloses
    exact absurd hcloses (h a b)
  have hpassed := delimitedBody_append t [] hopen
  rw [List.append_nil] at hpassed
  rw [hpassed]
  simp [delimitedBody, Scan.prepend]

/-- Where the text after the slashes of a line comment comes to the end of its line: at the end of
the text, or at the line break, be it the first line feed or a carriage return right before it. -/
structure LineEnd (t body rest : Text) : Prop where
  split : t = body ++ rest
  onLine : '\n' ∉ body
  endsLine : EndsLine body rest

/-- The line ends in one place only. -/
theorem LineEnd.unique {t body rest body' rest' : Text} (h : LineEnd t body rest)
    (h' : LineEnd t body' rest') : body = body' ∧ rest = rest' := by
  have hline := lineBody_of_endsLine h.onLine h.endsLine
  have hline' := lineBody_of_endsLine h'.onLine h'.endsLine
  rw [← h.split] at hline
  rw [← h'.split] at hline'
  exact Taken.mk.inj (hline.symm.trans hline')

/-- A line comment is read to the end of its line. -/
theorem lineEnd_lineBody (t : Text) : LineEnd t (lineBody t).text (lineBody t).rest := by
  obtain ⟨hsplit, hfeed, hends⟩ := endsLine_of_lineBody (t := t) rfl
  exact ⟨hsplit, hfeed, hends⟩

end Comments

/-- **A comment ends at the first closing mark, or with its line.** Behind the opening mark of a
delimited comment, if some mark closes it, the first of them ends it, be it after a run of stars,
and otherwise the comment is left open to the end of the text. Behind two slashes, a comment ends
where its line does: at the end of the text, or in front of the line break, which is left to be
read. -/
theorem Cursor.yields_comment (c : Cursor) (t : Text) :
    (c.rest = '/' :: '*' :: t →
      ((∃ body rest, Comments.Closes t body rest) → ∃ body rest,
        Comments.ClosesFirst t body rest ∧
        c.Yields (.comment .delimited) ('/' :: '*' :: body ++ ['*', '/']) rest) ∧
      (∀ n rest, t = List.replicate n '*' ++ '*' :: '/' :: rest →
        c.Yields (.comment .delimited) ('/' :: '*' :: List.replicate n '*' ++ ['*', '/']) rest) ∧
      ((¬∃ body rest, Comments.Closes t body rest) →
        c.Yields (.illegal (.unterminated .comment)) ('/' :: '*' :: t) [])) ∧
    (c.rest = '/' :: '/' :: t →
      ∃ body rest, Comments.LineEnd t body rest ∧
        c.Yields (.comment .line) ('/' :: '/' :: body) rest) := by
  constructor
  · intro h
    have hyields := yields_of_leading h (Scan.leading_delimitedComment t)
    have hclosed {body rest : Text} (hfirst : Comments.ClosesFirst t body rest) :
        c.Yields (.comment .delimited) ('/' :: '*' :: body ++ ['*', '/']) rest := by
      rw [Comments.delimitedBody_of_closesFirst hfirst] at hyields
      exact hyields
    refine ⟨?_, ?_, ?_⟩
    · rintro ⟨body, rest, hcloses⟩
      obtain ⟨first, rest', hfirst⟩ := hcloses.exists_first
      exact ⟨first, rest', hfirst, hclosed hfirst⟩
    · rintro n rest rfl
      exact hclosed (Comments.closesFirst_stars n rest)
    · intro hopen
      rw [Comments.delimitedBody_of_open fun body rest hcloses => hopen ⟨body, rest, hcloses⟩]
        at hyields
      exact hyields
  · intro h
    have hyields := yields_of_leading h (Scan.leading_lineComment t)
    exact ⟨_, _, Comments.lineEnd_lineBody t, hyields⟩

/-- The star of the opening mark closes nothing, so a slash right after it is part of the comment,
and the comment ends after the next mark, or never. A carriage return ends no line by itself. -/
theorem Cursor.yields_comment_stars :
    (ofText ['/', '*', '/', '*', '*', '/', '*', '/']).Yields (.comment .delimited)
      ['/', '*', '/', '*', '*', '/'] ['*', '/'] ∧
    (ofText ['/', '*', '*', '*', '/', 'x']).Yields (.comment .delimited)
      ['/', '*', '*', '*', '/'] ['x'] ∧
    (ofText ['/', '*', '/']).Yields (.illegal (.unterminated .comment)) ['/', '*', '/'] [] ∧
    (ofText ['/', '/', '\r', 'x', '\r', '\r', '\n', '\n']).Yields (.comment .line)
      ['/', '/', '\r', 'x', '\r'] ['\r', '\n', '\n'] := by
  refine ⟨?_, ?_, ?_, ?_⟩
  · have hcloses : Comments.Closes ['/', '*', '*', '/', '*', '/'] ['/', '*'] ['*', '/'] := rfl
    have hfirst : Comments.ClosesFirst ['/', '*', '*', '/', '*', '/'] ['/', '*'] ['*', '/'] := by
      refine ⟨hcloses, fun body rest h => ?_⟩
      rcases body with _ | ⟨a, _ | ⟨b, body⟩⟩
      · simp [Comments.Closes] at h
      · simp [Comments.Closes] at h
      · simp
    obtain ⟨body, rest, hfirst', hyields⟩ :=
      ((yields_comment (ofText _) _).1 rfl).1 ⟨_, _, hcloses⟩
    obtain ⟨rfl, rfl⟩ := hfirst.unique hfirst'
    exact hyields
  · exact ((yields_comment (ofText _) _).1 rfl).2.1 1 ['x'] rfl
  · have hopen : ¬∃ body rest, Comments.Closes ['/'] body rest := by
      rintro ⟨body, rest, h⟩
      have hlength := congrArg List.length h
      simp only [List.length_append, List.length_cons, List.length_nil] at hlength
      omega
    exact ((yields_comment (ofText _) _).1 rfl).2.2 hopen
  · have hline : Comments.LineEnd ['\r', 'x', '\r', '\r', '\n', '\n'] ['\r', 'x', '\r']
        ['\r', '\n', '\n'] := ⟨rfl, by decide, .inr (.inl ⟨_, rfl⟩)⟩
    obtain ⟨body, rest, hline', hyields⟩ := (yields_comment (ofText _) _).2 rfl
    obtain ⟨rfl, rfl⟩ := hline.unique hline'
    exact hyields

end Frontend
