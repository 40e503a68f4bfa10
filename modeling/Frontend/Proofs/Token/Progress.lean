import Frontend.Proofs.Token.Alone

/-!
# Reading gets ahead

Before the end of a text, wherever a cursor has got to, reading a token passes the text of the token
and nothing else, and that is one character at least. A loop that passes over characters of a class
and reads a token, again and again, is therefore over after at most one token for each character
that was left.
-/

namespace Frontend

namespace Cursor

/-- Reading at the cursor passes exactly the token: it stands between the offsets before and after,
it has a character at least, and the last one is the character that the cursor remembers. -/
structure Consumes (t : Text) (c : Cursor) (x : Token) (after : Cursor) : Prop where
  read : c.token = (.ok x, after)
  start : x.start = c.offset
  stop : x.stop = after.offset
  ahead : c.offset < after.offset
  boundary : Text.isBoundary c.offset t = true ∧ Text.isBoundary after.offset t = true
  covered : Text.slice t c.offset after.offset = x.text
  prev : ∃ front last, x.text = front ++ [last] ∧
    after.prev = some (c.offset + Text.size front, last)

/-- The loop that passes over characters of a class and reads a token, until there is none, has read
these tokens and left the cursor there. -/
inductive Scans (skip : Char → Bool) : Cursor → List Token → Cursor → Prop
  | done {c last : Cursor} (h : (c.walk skip).token = (.error .atEnd, last)) : Scans skip c [] last
  | more {c after last : Cursor} {x : Token} {xs : List Token}
      (h : (c.walk skip).token = (.ok x, after)) (others : Scans skip after xs last) :
      Scans skip c (x :: xs) last

variable {t : Text} {c after last : Cursor} {x : Token} {xs : List Token} {skip : Char → Bool}

/-- A cursor that passes some characters remembers the last of them. -/
theorem prev_advance {front rest : Text} {y : Char} (h : c.rest = front ++ y :: rest) :
    (c.advance (front.length + 1)).prev = some (c.offset + Text.size front, y) := by
  induction front generalizing c with
  | nil =>
    have hnext : c.next = ⟨c.offset + y.utf8Size, some (c.offset, y), rest⟩ := by
      simp only [next, h, List.nil_append]
    rw [List.length_nil, advance, advance, hnext, Text.size_nil, Nat.add_zero]
  | cons z front ih =>
    have hnext : c.next = ⟨c.offset + z.utf8Size, some (c.offset, z), front ++ y :: rest⟩ := by
      simp only [next, h, List.cons_append]
    rw [List.length_cons, advance, ih (by rw [hnext]), hnext, Text.size_cons, Nat.add_assoc]

/-- A cursor that has read a token remembers the last character of it. -/
theorem prev_token (h : c.token = (.ok x, after)) :
    ∃ front last, x.text = front ++ [last] ∧
      after.prev = some (c.offset + Text.size front, last) := by
  unfold token at h
  cases hrest : c.rest with
  | nil =>
    rw [hrest] at h
    exact nomatch h
  | cons y rest =>
    rw [hrest] at h
    obtain ⟨hx, rfl⟩ := Prod.mk.inj h
    obtain rfl := Except.ok.inj hx
    obtain ⟨front, last, htext⟩ := (List.eq_nil_or_concat' (Scan.leading y rest).text).resolve_left
      (Scan.leading_text_ne_nil y rest)
    have hsplit : c.rest = front ++ last :: (Scan.leading y rest).rest := by
      have hof := Scan.leading_of y rest
      rw [Scan.Of, htext, List.append_assoc] at hof
      rw [hrest, ← hof]
      rfl
    refine ⟨front, last, htext, ?_⟩
    rw [htext, List.length_append]
    exact prev_advance hsplit

/-- Reading at a cursor that is in a text consumes the token. -/
theorem In.consumes (hc : c.In t) (h : c.token = (.ok x, after)) : Consumes t c x after := by
  obtain ⟨hstart, hstop, hbetween⟩ := hc.between_token h
  obtain ⟨front, last, htext, hprev⟩ := prev_token h
  have hslice := hbetween.slice_eq
  rw [hstart, hstop] at hslice
  obtain ⟨before, behind, ht, hbefore, hsize⟩ := hbetween
  have hpos : 0 < Text.size x.text := Text.size_pos (by rw [htext]; simp)
  refine ⟨h, hstart, hstop, by omega, ⟨?_, ?_⟩, hslice, front, last, htext, hprev⟩
  · rw [← hstart, ← hbefore, ht, List.append_assoc]
    exact Text.isBoundary_size_append _ _
  · rw [← hstop, ← hsize, ← hbefore, ← Text.size_append, ht]
    exact Text.isBoundary_size_append _ _

/-- A cursor in a text has characters left unless its offset is the size of the text. -/
theorem In.rest_eq_nil_iff (hc : c.In t) : c.rest = [] ↔ c.offset = Text.size t := by
  obtain ⟨passed, ht, hoffset, -⟩ := hc
  constructor
  · intro hrest
    rw [ht, hrest, List.append_nil, hoffset]
  · intro hend
    by_contra hrest
    have hpos := Text.size_pos hrest
    rw [ht, Text.size_append] at hend
    omega

/-! ## The loop -/

/-- The tokens from a cursor on are those that the loop reads. -/
theorem scans_tokens (skip : Char → Bool) (c : Cursor) :
    Scans skip c ((c.tokens skip).1.map Prod.fst) (c.tokens skip).2 := by
  fun_induction Cursor.tokens skip c with
  | case1 c e last htoken => exact .done htoken
  | case2 c x after htoken others ih => exact .more htoken ih

/-- The loop reads at most one token for each character that is left. -/
theorem Scans.length_le (h : Scans skip c xs last) : xs.length ≤ c.rest.length := by
  induction h with
  | done h => exact Nat.zero_le _
  | @more c after last x xs h others ih =>
    have hlt := length_rest_token h
    have hle := (List.dropWhile_sublist skip (l := c.rest)).length_le
    rw [← rest_walk] at hle
    rw [List.length_cons]
    omega

/-- Where no token is read, the text is at its end and the cursor stays where it is. -/
theorem eq_of_token_error {e : ReadingError} (h : c.token = (.error e, last)) :
    c.rest = [] ∧ last = c := by
  rcases c.token_eq with ⟨hrest, hread⟩ | ⟨y, rest, after, -, hread, -⟩
  · exact ⟨hrest, congrArg Prod.snd (h.symm.trans hread)⟩
  · exact nomatch h.symm.trans hread

/-- The loop leaves the cursor at the end of the text. -/
theorem Scans.offset_eq (h : Scans skip c xs last) (hc : c.In t) : last.offset = Text.size t := by
  induction h with
  | done h =>
    obtain ⟨hrest, rfl⟩ := eq_of_token_error h
    exact (hc.advance _).rest_eq_nil_iff.mp hrest
  | @more c after last x xs h others ih =>
    have hafter : (c.walk skip).token.2.In t := (hc.advance _).token
    rw [h] at hafter
    exact ih hafter

/-- **Reading gets ahead and consumes exactly the token.** Whatever led a cursor to its place: at
the end of the text it reads no token and stays as it is. Anywhere else, in front of white space
too, it reads a token and passes just that. So whatever characters the loop passes over in between,
it is over at the end of the text, after at most one token for each character that was left. -/
theorem Reached.getsAhead (h : Reached t c) :
    (c.offset = Text.size t → c.token = (.error .atEnd, c)) ∧
    (c.offset ≠ Text.size t → ∃ x after, Consumes t c x after) ∧
    ∃ passed, t = passed ++ c.rest ∧ c.offset = Text.size passed ∧
      ∀ skip, Scans skip c ((c.tokens skip).1.map Prod.fst) (c.tokens skip).2 ∧
        (c.tokens skip).1.length ≤ c.rest.length ∧ (c.tokens skip).2.offset = Text.size t := by
  have hc : c.In t := h.inText
  refine ⟨?_, ?_, ?_⟩
  · intro hend
    have hrest := hc.rest_eq_nil_iff.mpr hend
    rcases c.token_eq with ⟨-, hread⟩ | ⟨y, rest, after, hcons, -⟩
    · exact hread
    · exact nomatch hrest.symm.trans hcons
  · intro hend
    obtain ⟨x, after, hread⟩ := exists_token fun hrest => hend (hc.rest_eq_nil_iff.mp hrest)
    exact ⟨x, after, hc.consumes hread⟩
  · obtain ⟨passed, ht, hoffset, -⟩ := h.inText
    refine ⟨passed, ht, hoffset, fun skip => ?_⟩
    have hscans := scans_tokens skip c
    have hlength := hscans.length_le
    rw [List.length_map] at hlength
    exact ⟨hscans, hlength, hscans.offset_eq hc⟩

/-- A cursor behind a character of two bytes and in front of a space, which is read as a token, and
then at the end of the text. Where nothing is passed over, each character left is a token. -/
theorem Reached.getsAhead_space :
    (ofText ['é', ' ', '$']).next.token = (.ok ⟨.illegal (.unexpected ' '), 2, [' ']⟩,
      ⟨3, some (2, ' '), ['$']⟩) ∧
    Consumes ['é', ' ', '$'] (ofText ['é', ' ', '$']).next
      ⟨.illegal (.unexpected ' '), 2, [' ']⟩ ⟨3, some (2, ' '), ['$']⟩ ∧
    ((ofText ['é', ' ', '$']).next.tokens fun _ => false).1.length = 2 ∧
    (ofText ['é', ' ', '$']).next.rest.length = 2 ∧
    ((ofText ['é', ' ', '$']).next.tokens fun _ => false).2.token.1 = .error .atEnd := by
  have hreached : Reached ['é', ' ', '$'] (ofText ['é', ' ', '$']).next := .next .start
  obtain ⟨-, hahead, -⟩ := hreached.getsAhead
  have hread : (ofText ['é', ' ', '$']).next.token = (.ok ⟨.illegal (.unexpected ' '), 2, [' ']⟩,
      ⟨3, some (2, ' '), ['$']⟩) := by cbv
  obtain ⟨x, after, hconsumes⟩ := hahead (by decide)
  obtain ⟨hx, rfl⟩ := Prod.mk.inj (hconsumes.read.symm.trans hread)
  obtain rfl := Except.ok.inj hx
  exact ⟨hread, hconsumes, by cbv, rfl, by cbv⟩

end Cursor

end Frontend
