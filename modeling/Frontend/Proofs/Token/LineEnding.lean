import Frontend.Proofs.Token.Rereading

/-!
# Tokens of texts with carriage returns

A carriage return before each line feed changes no token but those that hold a line feed, and those
have the carriage returns in their texts as well. A rule whose tokens are solid stops before the
line break in either text. The rules for literals in quotes and for comments read on over it, and
each of them takes the carriage return for an ordinary character, except that a comment to the end
of the line stops before both. Only what is left of an illegal literal may differ.
-/

namespace Frontend

namespace Text

/-- The text with a carriage return before each line feed. -/
def crlf (t : Text) : Text :=
  t.flatMap fun c => if c = '\n' then ['\r', '\n'] else [c]

/-- The empty text stays as it is. -/
@[simp] theorem crlf_nil : crlf [] = [] := rfl

/-- A line feed gets a carriage return before it. -/
@[simp] theorem crlf_feed (t : Text) : crlf ('\n' :: t) = '\r' :: '\n' :: crlf t := rfl

/-- Any other character stays as it is. -/
theorem crlf_cons {c : Char} (h : c ≠ '\n') (t : Text) : crlf (c :: t) = c :: crlf t := by
  simp [crlf, h]

/-- Two texts in a row get their carriage returns each on its own. -/
@[simp] theorem crlf_append (a b : Text) : crlf (a ++ b) = crlf a ++ crlf b :=
  List.flatMap_append

/-- A line feed is a gap. -/
theorem ne_feed_of_isGap {c : Char} (h : isGap c = false) : c ≠ '\n' := by
  rintro rfl
  exact absurd h (by decide)

/-- A text without line feeds stays as it is. -/
theorem crlf_eq_self {t : Text} (h : '\n' ∉ t) : crlf t = t := by
  induction t with
  | nil => rfl
  | cons c t ih =>
    have hc : c ≠ '\n' := fun heq => h (heq ▸ List.mem_cons_self)
    rw [crlf_cons hc, ih fun hmem => h (List.mem_cons_of_mem _ hmem)]

/-- A solid text stays as it is. -/
theorem crlf_of_solid {t : Text} (h : ∀ c ∈ t, isGap c = false) : crlf t = t :=
  crlf_eq_self fun hmem => ne_feed_of_isGap (h '\n' hmem) rfl

/-- Both texts start with the same character, if it is not part of a line break. -/
theorem head?_crlf {c : Char} (hfeed : c ≠ '\n') (hreturn : c ≠ '\r') (t : Text) :
    (crlf t).head? = some c ↔ t.head? = some c := by
  cases t with
  | nil => rfl
  | cons x t =>
    by_cases hx : x = '\n'
    · subst hx
      simp [hfeed.symm, hreturn.symm]
    · rw [crlf_cons hx]
      rfl

/-- With the carriage returns, a text goes on no further. -/
theorem noFurther_crlf (t : Text) : NoFurther (crlf t) t := by
  induction t with
  | nil => exact .nil _
  | cons c t ih =>
    by_cases hfeed : c = '\n'
    · subst hfeed
      exact .of_gap rfl _ _
    · rw [crlf_cons hfeed]
      exact ih.append [c]

end Text

open Text

namespace Scan

/-- The scan with a carriage return before each line feed of its texts. -/
def crlf (s : Scan) : Scan :=
  ⟨s.cls, s.text.crlf, s.rest.crlf⟩

/-- A text in front of a scan gets its carriage returns on its own. -/
theorem crlf_prepend (front : Text) (s : Scan) :
    (s.prepend front).crlf = s.crlf.prepend front.crlf := by
  simp only [crlf, prepend, crlf_append]

/-- The second scan is the first with carriage returns, or both are illegal for the same reason. -/
structure Alike (s s' : Scan) : Prop where
  cls : s'.cls = s.cls
  legal : s.Legal → s' = s.crlf

namespace Alike

/-- Scans are alike if the second is the first with carriage returns. -/
theorem of_eq {s s' : Scan} (h : s' = s.crlf) : Alike s s' :=
  ⟨h ▸ rfl, fun _ => h⟩

/-- Scans that are illegal for the same reason are alike, whatever they have read. -/
theorem of_illegal {s s' : Scan} (reason : IllegalReason) (h : s.cls = .illegal reason)
    (h' : s'.cls = .illegal reason) : Alike s s' :=
  ⟨h'.trans h.symm, fun hlegal => absurd h (hlegal reason)⟩

/-- Scans stay alike with a text in front, which gets its carriage returns in the second. -/
theorem prepend {s s' : Scan} (h : Alike s s') (front : Text) :
    Alike (s.prepend front) (s'.prepend (Text.crlf front)) where
  cls := h.cls
  legal hlegal := by
    rw [h.legal hlegal, crlf_prepend]

/-- A character that is no line feed is read in front of both. -/
theorem prepend_singleton {s s' : Scan} (h : Alike s s') {c : Char} (hc : c ≠ '\n') :
    Alike (s.prepend [c]) (s'.prepend [c]) := by
  have hboth := h.prepend [c]
  rwa [crlf_cons hc] at hboth

end Alike

/-- Whatever reads a solid token from its own text again reads it with carriage returns after it. -/
theorem eq_crlf_of_again {s : Scan} {t : Text} {f : Text → Scan} (happend : s.text ++ s.rest = t)
    (hsolid : ∀ c ∈ s.text, isGap c = false)
    (hagain : ∀ new, NoFurther new s.rest → f (s.text ++ new) = ⟨s.cls, s.text, new⟩) :
    f (Text.crlf t) = s.crlf := by
  have htext : Text.crlf s.text = s.text := crlf_of_solid hsolid
  rw [← happend, crlf_append, htext, hagain _ (noFurther_crlf _), crlf, htext]

/-- A stable rule reads its token with carriage returns after it. -/
theorem Stable.crlf_eq {f : Text → Scan} (hf : Stable f) (t : Text) :
    f (Text.crlf t) = (f t).crlf :=
  eq_crlf_of_again (hf.append t) (hf.solid t) (hf.again t)

end Scan

namespace Quote

/-- A quote closes the literal in both texts, or in neither. -/
theorem alike_closeChar {payload : Text} (h : '\n' ∉ payload) (t : Text) :
    Scan.Alike (closeChar payload t) (closeChar payload t.crlf) := by
  have hsame : payload.crlf = payload := crlf_eq_self h
  cases t with
  | nil => exact .of_illegal (.unterminated .char) rfl rfl
  | cons c t =>
    by_cases hfeed : c = '\n'
    · subst hfeed
      exact .of_illegal (.unterminated .char) rfl rfl
    by_cases hquote : c = '\x27'
    · subst hquote
      rw [crlf_cons (by decide)]
      apply Scan.Alike.of_eq
      simp [closeChar, Scan.crlf, hsame, crlf_cons]
    · rw [crlf_cons hfeed]
      apply Scan.Alike.of_illegal (.unterminated .char) <;> simp [closeChar, hquote]

/-- A line break makes a character literal illegal, with or without the carriage return. -/
theorem alike_charBody (t : Text) : Scan.Alike (charBody t) (charBody t.crlf) := by
  cases t with
  | nil => exact .of_illegal (.unterminated .char) rfl rfl
  | cons c t =>
    by_cases hfeed : c = '\n'
    · subst hfeed
      exact .of_illegal (.unterminated .char) rfl rfl
    rw [crlf_cons hfeed]
    by_cases hquote : c = '\x27'
    · subst hquote
      exact .of_illegal (.unterminated .char) rfl rfl
    by_cases hbackslash : c = '\\'
    · subst hbackslash
      cases t with
      | nil => exact .of_illegal (.unterminated .char) rfl rfl
      | cons d t =>
        by_cases hline : d = '\n'
        · -- the carriage return is the escaped character, and the line feed closes nothing
          subst hline
          exact .of_illegal (.unterminated .char) rfl rfl
        · have hpayload : '\n' ∉ ['\\', d] := by simp [Ne.symm hline]
          rw [crlf_cons hline]
          simpa only [charBody, if_neg hline] using alike_closeChar hpayload t
    · have hpayload : '\n' ∉ [c] := by simp [Ne.symm hfeed]
      rw [charBody_cons hfeed hquote hbackslash, charBody_cons hfeed hquote hbackslash]
      exact alike_closeChar hpayload t

/-- A line break closes no string literal. It leaves one in double quotes open, be the carriage
return escaped or not. -/
theorem alike_stringBody (form : StringForm) (escaped : Bool) (t : Text) :
    Scan.Alike (stringBody form escaped t) (stringBody form escaped t.crlf) := by
  induction t generalizing escaped with
  | nil => exact .of_eq rfl
  | cons c t ih =>
    by_cases hfeed : c = '\n'
    · subst hfeed
      rw [crlf_feed]
      cases form with
      | interpreted =>
        apply Scan.Alike.of_illegal (.unterminated .string)
        · rfl
        · simp [stringBody, mark, unclosed]
      | raw =>
        have hbreak (escaped : Bool) {x : Char} (hx : x ≠ '\\' ∧ x ≠ mark .raw) (u : Text) :
            stringBody .raw escaped (x :: u) = (stringBody .raw false u).prepend [x] := by
          simp [stringBody, hx]
        rw [hbreak escaped (by decide), hbreak escaped (by decide), hbreak false (by decide)]
        exact (ih false).prepend ['\n']
    · have hopen : ¬(c = '\n' ∧ form = .interpreted) := fun h => hfeed h.1
      rw [crlf_cons hfeed, stringBody, if_neg hopen, stringBody, if_neg hopen]
      by_cases hmark : c = mark form ∧ !escaped
      · rw [if_pos hmark, if_pos hmark]
        apply Scan.Alike.of_eq
        rw [Scan.crlf, crlf_cons hfeed, crlf_nil]
      · rw [if_neg hmark, if_neg hmark]
        exact (ih _).prepend_singleton hfeed

end Quote

namespace Comments

/-- A comment to the end of the line stops before the carriage return. -/
theorem lineBody_crlf {t : Text} (h : '\r' ∉ t) :
    lineBody (crlf t) = ⟨(lineBody t).text, (lineBody t).rest.crlf⟩ := by
  obtain ⟨ht, hfeed, hends⟩ := endsLine_of_lineBody (Eq.refl (lineBody t))
  have hbreak : EndsLine (lineBody t).text (lineBody t).rest.crlf := by
    rcases hends with hnil | ⟨more, hmore⟩ | ⟨⟨more, hmore⟩, -⟩
    · rw [hnil]
      exact .inl rfl
    · rw [ht, hmore] at h
      exact absurd (List.mem_append_right _ List.mem_cons_self) h
    · rw [hmore]
      exact .inr (.inl ⟨Text.crlf more, rfl⟩)
  have hbody := lineBody_of_endsLine hfeed hbreak
  rw [← crlf_eq_self hfeed, ← crlf_append, ← ht] at hbody
  rw [hbody, crlf_eq_self hfeed]

/-- A delimited comment has carriage returns like any other characters. -/
theorem delimitedBody_crlf (t : Text) : delimitedBody t.crlf = (delimitedBody t).crlf := by
  induction t with
  | nil => rfl
  | cons c t ih =>
    by_cases hfeed : c = '\n'
    · subst hfeed
      have hbreak {x : Char} (hx : x ≠ '*') (u : Text) :
          delimitedBody (x :: u) = (delimitedBody u).prepend [x] := by
        rw [delimitedBody, if_neg (fun h => hx h.1)]
      rw [crlf_feed, hbreak (by decide), hbreak (by decide), hbreak (by decide), ih,
        Scan.crlf_prepend]
      rfl
    · have hslash := head?_crlf (c := '/') (by decide) (by decide) t
      rw [crlf_cons hfeed, delimitedBody, delimitedBody]
      by_cases hclose : c = '*' ∧ t.head? = some '/'
      · obtain ⟨rest, rfl⟩ := List.head?_eq_some_iff.mp hclose.2
        rw [if_pos hclose, if_pos ⟨hclose.1, hslash.mpr hclose.2⟩, crlf_cons (by decide)]
        rfl
      · rw [if_neg hclose, if_neg (fun h => hclose ⟨h.1, hslash.mp h.2⟩), ih, Scan.crlf_prepend,
          crlf_cons hfeed, crlf_nil]

end Comments

namespace Scan

/-- A line comment of a text without carriage returns stops before a line break of either kind. -/
theorem lineComment_crlf {t : Text} (h : '\r' ∉ t) :
    lineComment t.crlf = (lineComment t).crlf := by
  have htext : Text.crlf (Comments.lineBody t).text = (Comments.lineBody t).text :=
    crlf_eq_self (Comments.notMem_text_lineBody t)
  rw [lineComment, lineComment, Comments.lineBody_crlf h, crlf, htext]

/-- An operator or delimiter is read the same, as no spelling of one has a gap. -/
theorem operator_crlf {c : Char} (hc : isGap c = false) (t : Text) :
    operator c t.crlf = (operator c t).crlf := by
  have happend := operator_of c t
  obtain ⟨w, htext, hrest⟩ := Text.exists_tail happend (operator_text_ne_nil c t)
  have hw : ∀ x ∈ w, isGap x = false := by
    intro x hx
    apply solid_operator hc t
    rw [htext]
    exact List.mem_cons_of_mem _ hx
  have hsame : NoFurther (w ++ (operator c t).rest.crlf) t := by
    have hnew := (noFurther_crlf (operator c t).rest).append w
    rwa [hrest] at hnew
  have hsplit : t.crlf = w ++ (operator c t).rest.crlf := by
    conv => lhs; rw [← hrest]
    rw [crlf_append, crlf_of_solid hw]
  have hself : Text.crlf (operator c t).text = c :: w := by
    rw [crlf_of_solid (solid_operator hc t), htext]
  rw [hsplit, operator_again htext hsame, crlf, hself]

/-- **Tokens do not depend on line endings.** In front of a text without carriage returns, and in
front of the same text with one before each line feed, the same token is read, or an illegal one
for the same reason. -/
theorem alike_leading {c : Char} (hc : isGap c = false) {t : Text} (ht : '\r' ∉ t) :
    Alike (leading c t) (leading c t.crlf) := by
  have hfeed := ne_feed_of_isGap hc
  rcases leading_cases c t with hword | ⟨hword, hdigit⟩ | ⟨rfl, hpoint⟩ | rfl | ⟨form, rfl⟩ |
    ⟨rfl, u, rfl⟩ | ⟨rfl, u, rfl⟩ | honly
  · rw [leading_word hword, leading_word hword, ← crlf_cons hfeed]
    exact .of_eq (stable_word.crlf_eq (c :: t))
  · rw [leading_digit hword hdigit, leading_digit hword hdigit, ← crlf_cons hfeed]
    exact .of_eq (eq_crlf_of_again (Number.literal_of (c :: t)) (Number.solid_literal c t)
      fun new => Number.literal_again hdigit)
  · obtain ⟨d, hhead, hdigit⟩ := (Option.any_eq_true ..).mp hpoint
    have hd : d ≠ '\n' ∧ d ≠ '\r' := by
      constructor <;> rintro rfl <;> exact nomatch hdigit
    have hpoint' : t.crlf.head?.any Char.isDigit = true := by
      rw [(head?_crlf hd.1 hd.2 t).mpr hhead]
      exact hdigit
    rw [leading_point hpoint, leading_point hpoint', Number.stable_afterPoint.crlf_eq]
    exact (Alike.of_eq rfl).prepend_singleton hfeed
  · rw [leading_char, leading_char]
    exact (Quote.alike_charBody t).prepend_singleton hfeed
  · rw [leading_string, leading_string]
    exact (Quote.alike_stringBody form false t).prepend_singleton hfeed
  · have hu : '\r' ∉ u := fun h => ht (List.mem_cons_of_mem _ h)
    rw [crlf_cons hfeed, leading_lineComment, leading_lineComment, lineComment_crlf hu]
    exact (Alike.of_eq rfl).prepend ['/', '/']
  · rw [crlf_cons (by decide), leading_delimitedComment, leading_delimitedComment,
      Comments.delimitedBody_crlf]
    exact (Alike.of_eq rfl).prepend ['/', '*']
  · have honly' : OnlyOperator c t.crlf := honly.of_noFurther (noFurther_crlf t)
    rw [leading_operator honly, leading_operator honly']
    exact .of_eq (operator_crlf hc t)

end Scan

end Frontend
