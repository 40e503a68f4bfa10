import Frontend.Proofs.Token.Boundary

/-!
# Where literals and comments end

Numeric literals are made of runs of digits and single characters that may be missing, so their
rules are stable. Literals in quotes and delimited comments are closed by their last character. A
comment to the end of the line is stable in its own way: what follows it has to end the line.
-/

namespace Frontend

namespace Number

/-- Digits of a radix and underscores are no gaps. -/
theorem stable_digits {radix : Nat} : Taken.Stable (digits radix) :=
  Taken.stable_run (Solid.of_gaps ⟨rfl, rfl, rfl, rfl⟩)

/-- Taking a single character that is no gap is stable. -/
private theorem stable_one_eq {x : Char} (h : isGap x = false) :
    Taken.Stable (Taken.one fun c => c = x) := by
  apply Taken.stable_one
  intro c hc
  have hne : c ≠ x := by
    rintro rfl
    rw [h] at hc
    exact nomatch hc
  simpa using hne

/-- The rule for what follows a radix mark is stable: its class depends on the digits alone. -/
theorem stable_afterMark (radix : Nat) : Scan.Stable (afterMark radix) :=
  Scan.stable_of_taken stable_digits fun text =>
    if hasDigit radix text then .numeric .int else .illegal .malformedNumber

/-- The rule for the end of a complete literal is stable. -/
theorem stable_suffix (form : NumericForm) : Scan.Stable (suffix form) :=
  Scan.stable_of_taken (stable_one_eq (x := 'i') rfl) fun text =>
    .numeric (if text.isEmpty then form else .imaginary)

/-- The rule for the digits of an exponent is stable. -/
theorem stable_exponentDigits : Scan.Stable exponentDigits := by
  -- without a digit among them, the digits are followed by nothing that is read
  let k (front : Text) : Text → Scan :=
    if hasDigit 10 front then suffix .float else fun rest => ⟨.illegal .malformedNumber, [], rest⟩
  have heq : exponentDigits = fun t =>
      (k (digits 10 t).text (digits 10 t).rest).prepend (digits 10 t).text := by
    funext t
    unfold exponentDigits
    dsimp only [k]
    split
    · rfl
    · simp only [Scan.prepend, List.append_nil]
  rw [heq]
  refine stable_digits.after ?_
  intro front
  dsimp only [k]
  split
  · exact stable_suffix .float
  · exact Scan.stable_nil _

/-- The rule for what follows the digits before an exponent is stable. -/
theorem stable_tail (form : NumericForm) : Scan.Stable (tail form) := by
  have hsign : Taken.Stable (Taken.one isSign) :=
    Taken.stable_one (Solid.of_gaps ⟨rfl, rfl, rfl, rfl⟩)
  have hletter : Taken.Stable (Taken.one isExponentLetter) :=
    Taken.stable_one (Solid.of_gaps ⟨rfl, rfl, rfl, rfl⟩)
  exact hletter.optional (stable_suffix form) (hsign.after fun _ => stable_exponentDigits)

/-- The rule for what follows the decimal point is stable. -/
theorem stable_afterPoint : Scan.Stable afterPoint :=
  stable_digits.after fun _ => stable_tail .float

/-- The rule for what follows the first digits of a decimal literal is stable. -/
theorem stable_afterWhole : Scan.Stable afterWhole :=
  (stable_one_eq (x := '.') rfl).optional (stable_tail .int) stable_afterPoint

/-- The rule for decimal literals is stable. -/
theorem stable_decimal : Scan.Stable decimal :=
  stable_digits.after fun _ => stable_afterWhole

/-- What goes on with a decimal literal is the beginning of one. -/
theorem decimal_text_ne_nil {c : Char} (h : continuesDecimal c = true) (t : Text) :
    (decimal (c :: t)).text ≠ [] := by
  by_cases hdigit : isDigitOrMark 10 c = true
  · simp [decimal, digits, Taken.run, Scan.prepend, hdigit]
  · have hrun : digits 10 (c :: t) = ⟨[], c :: t⟩ := by simp [digits, Taken.run, hdigit]
    have hrest : c = '.' ∨ c = 'e' ∨ c = 'E' ∨ c = 'i' := by
      simp only [isDigitOrMark, Bool.or_eq_true, decide_eq_true_eq, not_or] at hdigit
      simpa [continuesDecimal, hdigit, or_assoc] using h
    rw [decimal, hrun]
    rcases hrest with rfl | rfl | rfl | rfl <;>
      simp [afterWhole, tail, suffix, Taken.one, isExponentLetter, Scan.prepend]

/-- A digit after a point is part of the literal. -/
theorem afterPoint_text_ne_nil {t : Text} (h : t.head?.any Char.isDigit = true) :
    (afterPoint t).text ≠ [] := by
  cases t with
  | nil => exact nomatch h
  | cons c t =>
    have hdigit := isDigitOrMark_of_isDigit (c := c) h
    simp [afterPoint, digits, Taken.run, Scan.prepend, hdigit]

/-- A decimal literal if the text goes on with one, and otherwise nothing. -/
private theorem stable_decimalIf : Scan.Stable fun t =>
    if t.head?.any continuesDecimal then decimal t else ⟨.numeric .int, [], t⟩ where
  append := by
    intro t
    split
    · exact stable_decimal.append t
    · rfl
  solid := by
    intro t c hc
    split at hc
    · exact stable_decimal.solid t c hc
    · exact absurd hc List.not_mem_nil
  again := by
    intro t new h
    split at h
    · rename_i hgoes
      -- the literal is not empty, so both texts start with the same character
      obtain ⟨c, rest, rfl⟩ : ∃ c rest, t = c :: rest := by
        cases t with
        | nil => exact nomatch hgoes
        | cons c rest => exact ⟨c, rest, rfl⟩
      obtain ⟨text, htext, -⟩ := Text.exists_tail (stable_decimal.append (c :: rest))
        (decimal_text_ne_nil hgoes rest)
      have hagain := stable_decimal.again (c :: rest) new h
      rw [if_pos hgoes, if_pos (by rw [htext]; exact hgoes), hagain]
    · rename_i hstops
      have hnew := h.head_any (Solid.of_gaps ⟨rfl, rfl, rfl, rfl⟩) (Bool.eq_false_iff.mpr hstops)
      rw [if_neg hstops, List.nil_append, if_neg (by simp [hnew])]

/-- The rule for what follows a leading zero is stable: octal digits are a run, and whether a
decimal literal goes on with them depends on its first character. -/
theorem stable_afterZero : Scan.Stable afterZero := by
  have hrun : Taken.Stable (Taken.run (isDigitIn 8)) :=
    Taken.stable_run (Solid.of_gaps ⟨rfl, rfl, rfl, rfl⟩)
  have heq : afterZero = fun t =>
      (if (Taken.run (isDigitIn 8) t).rest.head?.any continuesDecimal then
        decimal (Taken.run (isDigitIn 8) t).rest
      else ⟨.numeric .int, [], (Taken.run (isDigitIn 8) t).rest⟩).prepend
        (Taken.run (isDigitIn 8) t).text := by
    funext t
    unfold afterZero
    dsimp only
    split
    · rfl
    · simp only [Scan.prepend, List.append_nil]
  rw [heq]
  exact hrun.after fun _ => stable_decimalIf

/-- A zero with a radix mark behind it leaves the rest to the rule for that radix. -/
theorem literal_of_mark {c : Char} {radix : Nat} (h : radixOfMark? c = some radix) (t : Text) :
    literal ('0' :: c :: t) = (afterMark radix t).prepend ['0', c] := by
  simp only [literal, h]

/-- A zero with no radix mark behind it leaves the rest to the rule for leading zeros. -/
theorem literal_of_no_mark {t : Text} (h : t.head?.bind radixOfMark? = none) :
    literal ('0' :: t) = (afterZero t).prepend ['0'] := by
  cases t with
  | nil => rfl
  | cons c t =>
    have hmark : radixOfMark? c = none := h
    simp only [literal, hmark]

/-- A literal that does not start with a zero is a decimal one. -/
theorem literal_of_ne {c : Char} (h : c ≠ '0') (t : Text) :
    literal (c :: t) = decimal (c :: t) := by
  unfold literal
  split
  · rename_i heq
    exact absurd (List.cons.inj heq).1 h
  · rename_i heq
    exact absurd (List.cons.inj heq).1 h
  · rfl

/-- Radix marks are no gaps. -/
theorem solid_radixOfMark? : Solid fun c => (radixOfMark? c).isSome :=
  Solid.of_gaps ⟨rfl, rfl, rfl, rfl⟩

/-- A literal that starts with a digit is solid. -/
theorem solid_literal (c : Char) (t : Text) : ∀ x ∈ (literal (c :: t)).text, isGap x = false := by
  intro x hx
  by_cases hzero : c = '0'
  · subst hzero
    cases hmark : t.head?.bind radixOfMark? with
    | none =>
      rw [literal_of_no_mark hmark] at hx
      rcases List.mem_cons.mp hx with rfl | hx
      · rfl
      · exact stable_afterZero.solid _ x hx
    | some radix =>
      obtain ⟨m, hhead, hradix⟩ := Option.bind_eq_some_iff.mp hmark
      obtain ⟨rest, rfl⟩ := List.head?_eq_some_iff.mp hhead
      rw [literal_of_mark hradix] at hx
      rcases List.mem_cons.mp hx with rfl | hx
      · rfl
      rcases List.mem_cons.mp hx with rfl | hx
      · exact solid_radixOfMark?.isGap_eq_false (by rw [hradix]; rfl)
      · exact (stable_afterMark radix).solid _ x hx
  · rw [literal_of_ne hzero] at hx
    exact stable_decimal.solid _ x hx

/-- A literal that starts with a digit is read again. -/
theorem literal_again {c : Char} (hdigit : c.isDigit = true) {t new : Text}
    (h : NoFurther new (literal (c :: t)).rest) :
    literal ((literal (c :: t)).text ++ new) =
      ⟨(literal (c :: t)).cls, (literal (c :: t)).text, new⟩ := by
  by_cases hzero : c = '0'
  · subst hzero
    cases hmark : t.head?.bind radixOfMark? with
    | none =>
      rw [literal_of_no_mark hmark] at h ⊢
      have hsame := NoFurther.append h (afterZero t).text
      have hold : t.head?.any (fun c => (radixOfMark? c).isSome) = false := by
        cases hhead : t.head? <;> simp_all
      rw [show (afterZero t).text ++ ((afterZero t).prepend ['0']).rest = t from
        stable_afterZero.append t] at hsame
      have hnew := hsame.head_any solid_radixOfMark? hold
      have hnone : ((afterZero t).text ++ new).head?.bind radixOfMark? = none := by
        cases hhead : ((afterZero t).text ++ new).head? <;> simp_all
      have hagain := stable_afterZero.again t new h
      rw [Scan.text_prepend, List.append_assoc, List.singleton_append, literal_of_no_mark hnone,
        hagain]
      rfl
    | some radix =>
      obtain ⟨m, hhead, hradix⟩ := Option.bind_eq_some_iff.mp hmark
      obtain ⟨rest, rfl⟩ := List.head?_eq_some_iff.mp hhead
      rw [literal_of_mark hradix] at h ⊢
      have hagain := (stable_afterMark radix).again rest new h
      rw [Scan.text_prepend, List.append_assoc, List.cons_append, List.singleton_append,
        literal_of_mark hradix, hagain]
      rfl
  · have hne := literal_text_ne_nil hdigit t
    rw [literal_of_ne hzero] at h hne ⊢
    obtain ⟨text, htext, -⟩ := Text.exists_tail (stable_decimal.append (c :: t)) hne
    have hagain := stable_decimal.again (c :: t) new h
    rw [htext] at hagain ⊢
    rw [List.cons_append, literal_of_ne hzero, ← List.cons_append, hagain]

end Number

namespace Quote

/-- A payload of one character, or of a backslash and one character, which a quote can close. -/
def IsPayload (payload : Text) : Prop :=
  (∃ c, c ≠ '\n' ∧ payload = ['\\', c]) ∨
    ∃ c, c ≠ '\n' ∧ c ≠ '\\' ∧ c ≠ '\x27' ∧ payload = [c]

/-- A character that is no mark of its own is the payload of a literal. -/
theorem charBody_cons {c : Char} (hfeed : c ≠ '\n') (hquote : c ≠ '\x27')
    (hbackslash : c ≠ '\\') (t : Text) : charBody (c :: t) = closeChar [c] t := by
  unfold charBody
  split
  · rename_i heq
    exact absurd (List.cons.inj heq).1 hbackslash
  · rename_i heq
    exact absurd (List.cons.inj heq).1 hbackslash
  · rename_i heq
    exact absurd (List.cons.inj heq).1 hquote
  · rename_i heq
    obtain ⟨rfl, rfl⟩ := List.cons.inj heq
    rw [if_neg hfeed]
  · rename_i heq
    exact nomatch heq

/-- If a payload with what follows it is legal, a quote follows it. -/
private theorem closeChar_of_legal {payload t : Text} (h : (closeChar payload t).Legal) :
    ∃ rest, closeChar payload t = ⟨.charLiteral, payload ++ ['\x27'], rest⟩ := by
  unfold closeChar at h ⊢
  split at h
  · rename_i rest
    exact ⟨rest, rfl⟩
  · exact absurd rfl (h _)

/-- A legal character literal is a payload that a quote closes. -/
theorem charBody_of_legal {t : Text} (h : (charBody t).Legal) :
    ∃ payload rest, IsPayload payload ∧
      charBody t = ⟨.charLiteral, payload ++ ['\x27'], rest⟩ := by
  unfold charBody at h ⊢
  split at h
  · rename_i c rest
    split at h
    · -- a line feed cannot follow the backslash
      rename_i hfeed
      subst hfeed
      exact absurd rfl (h _)
    · rename_i hfeed
      obtain ⟨rest', hclose⟩ := closeChar_of_legal h
      exact ⟨_, rest', .inl ⟨c, hfeed, rfl⟩, by rw [if_neg hfeed, hclose]⟩
  · exact absurd rfl (h _)
  · exact absurd rfl (h _)
  · rename_i c rest hescape hlone hquote
    split at h
    · rename_i hfeed
      subst hfeed
      exact absurd rfl (h _)
    · rename_i hfeed
      obtain ⟨rest', hclose⟩ := closeChar_of_legal h
      have hbackslash : c ≠ '\\' := by
        rintro rfl
        cases rest with
        | nil => exact hlone rfl rfl
        | cons d rest => exact hescape d rest rfl rfl
      exact ⟨_, rest', .inr ⟨c, hfeed, hbackslash, hquote, rfl⟩, by rw [if_neg hfeed, hclose]⟩
  · exact absurd rfl (h _)

/-- A payload that a quote closes is a character literal. -/
theorem charBody_of_isPayload {payload : Text} (h : IsPayload payload) (rest : Text) :
    charBody (payload ++ '\x27' :: rest) = ⟨.charLiteral, payload ++ ['\x27'], rest⟩ := by
  rcases h with ⟨c, hfeed, rfl⟩ | ⟨c, hfeed, hbackslash, hquote, rfl⟩
  · simp [charBody, hfeed, closeChar]
  · simp [charBody, hfeed, hbackslash, closeChar]

/-- A character literal is closed by its last character, and read again whatever follows. -/
theorem closed_charBody : Scan.Closed charBody '\x27' where
  last_eq := by
    intro t h
    obtain ⟨payload, rest, -, heq⟩ := charBody_of_legal h
    rw [heq]
    exact List.getLast?_concat
  again := by
    intro t h new
    obtain ⟨payload, rest, hpayload, heq⟩ := charBody_of_legal h
    rw [heq, List.append_assoc]
    exact charBody_of_isPayload hpayload new

/-- A string literal is closed by the quote of its form, and read again whatever follows. -/
theorem closed_stringBody (form : StringForm) (escaped : Bool) :
    Scan.Closed (stringBody form escaped) (mark form) where
  last_eq := by
    intro t h
    induction t generalizing escaped with
    | nil => exact absurd rfl (h _)
    | cons c t ih =>
      unfold stringBody at h ⊢
      split at h
      · exact absurd rfl (h _)
      split at h
      · rename_i hfeed hmark
        rw [if_neg hfeed, if_pos hmark, hmark.1]
        rfl
      · rename_i hfeed hmark
        rw [if_neg hfeed, if_neg hmark, Scan.text_prepend, List.getLast?_append, ih _ h]
        rfl
  again := by
    intro t h new
    induction t generalizing escaped with
    | nil => exact absurd rfl (h _)
    | cons c t ih =>
      unfold stringBody at h
      rw [stringBody]
      split at h
      · exact absurd rfl (h _)
      split at h
      · rename_i hfeed hmark
        rw [if_neg hfeed, if_pos hmark, List.singleton_append, stringBody, if_neg hfeed,
          if_pos hmark]
      · rename_i hfeed hmark
        rw [if_neg hfeed, if_neg hmark, Scan.text_prepend, List.append_assoc,
          List.singleton_append, stringBody, if_neg hfeed, if_neg hmark, ih _ h]
        rfl

end Quote

namespace Comments

/-- A legal delimited comment ends with a slash. -/
theorem getLast?_delimitedBody {t : Text} (h : (delimitedBody t).Legal) :
    (delimitedBody t).text.getLast? = some '/' := by
  induction t with
  | nil => exact absurd rfl (h _)
  | cons c t ih =>
    unfold delimitedBody at h ⊢
    split at h
    · rename_i hclose
      rw [if_pos hclose]
      rfl
    · rename_i hclose
      rw [if_neg hclose, Scan.text_prepend, List.getLast?_append, ih h]
      rfl

/-- A delimited comment is closed by its slash, and read again whatever follows. -/
theorem closed_delimitedBody : Scan.Closed delimitedBody '/' where
  last_eq := fun _ h => getLast?_delimitedBody h
  again := by
    intro t h new
    induction t with
    | nil => exact absurd rfl (h _)
    | cons c t ih =>
      unfold delimitedBody at h
      rw [delimitedBody]
      split at h
      · rename_i hclose
        rw [if_pos hclose]
        rfl
      · rename_i hclose
        -- what is left of the comment is not empty, so the same character comes after this one
        obtain ⟨x, text, htext⟩ : ∃ x text, (delimitedBody t).text = x :: text := by
          apply List.exists_cons_of_ne_nil
          intro hnil
          have hlast := getLast?_delimitedBody h
          rw [hnil] at hlast
          exact nomatch hlast
        have hhead : ((delimitedBody t).text ++ new).head? = t.head? := by
          have happend : (delimitedBody t).text ++ (delimitedBody t).rest = t := delimitedBody_of t
          conv => rhs; rw [← happend]
          rw [htext]
          rfl
        rw [if_neg hclose, Scan.text_prepend, List.append_assoc, List.singleton_append,
          delimitedBody, hhead, if_neg hclose, ih h]
        rfl

/-- The text after a line comment: the end, or a line break, of which the carriage return is no part
of the comment. -/
def EndsLine (body rest : Text) : Prop :=
  rest = [] ∨ (∃ more, rest = '\r' :: '\n' :: more) ∨
    (∃ more, rest = '\n' :: more) ∧ body.getLast? ≠ some '\r'

/-- A text that ends a line ends it after any later part of the line too. -/
theorem EndsLine.of_cons {c : Char} {body rest : Text} (h : EndsLine (c :: body) rest) :
    EndsLine body rest := by
  rcases h with hnil | hreturn | ⟨hmore, hlast⟩
  · exact .inl hnil
  · exact .inr (.inl hreturn)
  · refine .inr (.inr ⟨hmore, ?_⟩)
    intro hreturn
    apply hlast
    rw [List.getLast?_cons, hreturn]
    rfl

/-- It ends a line that starts earlier, if that does not make a carriage return its end. -/
theorem EndsLine.cons {c : Char} {body rest : Text} (h : EndsLine body rest) (hc : c ≠ '\r') :
    EndsLine (c :: body) rest := by
  rcases h with hnil | hreturn | ⟨hmore, hlast⟩
  · exact .inl hnil
  · exact .inr (.inl hreturn)
  · refine .inr (.inr ⟨hmore, ?_⟩)
    cases body with
    | nil => simpa using hc
    | cons x body => rwa [List.getLast?_cons_cons]

/-- More text after the line break changes nothing. -/
theorem EndsLine.append {body rest : Text} (h : EndsLine body rest) (hrest : rest ≠ [])
    (more : Text) : EndsLine body (rest ++ more) := by
  rcases h with hnil | ⟨back, rfl⟩ | ⟨⟨back, rfl⟩, hlast⟩
  · exact absurd hnil hrest
  · exact .inr (.inl ⟨back ++ more, rfl⟩)
  · exact .inr (.inr ⟨⟨back ++ more, rfl⟩, hlast⟩)

/-- A line comment stays on its line. -/
theorem endsLine_of_lineBody {t body rest : Text} (h : lineBody t = ⟨body, rest⟩) :
    t = body ++ rest ∧ '\n' ∉ body ∧ EndsLine body rest := by
  induction t generalizing body with
  | nil =>
    obtain ⟨rfl, rfl⟩ := Taken.mk.inj h
    exact ⟨rfl, List.not_mem_nil, .inl rfl⟩
  | cons c t ih =>
    unfold lineBody at h
    split at h
    · rename_i hbreak
      obtain ⟨rfl, rfl⟩ := Taken.mk.inj h
      refine ⟨rfl, List.not_mem_nil, ?_⟩
      rcases hbreak with rfl | ⟨rfl, hfeed⟩
      · exact .inr (.inr ⟨⟨t, rfl⟩, by simp⟩)
      · obtain ⟨more, rfl⟩ := List.head?_eq_some_iff.mp hfeed
        exact .inr (.inl ⟨more, rfl⟩)
    · rename_i hbreak
      obtain ⟨rfl, rfl⟩ := Taken.mk.inj h
      obtain ⟨ht, hfeed, hends⟩ := ih rfl
      rw [not_or] at hbreak
      refine ⟨congrArg (c :: ·) ht, ?_, ?_⟩
      · simpa [Ne.symm hbreak.1] using hfeed
      · rcases hends with hnil | hreturn | ⟨⟨more, hmore⟩, hlast⟩
        · exact .inl hnil
        · exact .inr (.inl hreturn)
        · refine .inr (.inr ⟨⟨more, hmore⟩, ?_⟩)
          cases hbody : (lineBody t).text with
          | nil =>
            -- a carriage return right before the line feed would have ended the comment
            intro hreturn
            obtain rfl : c = '\r' := Option.some.inj hreturn
            apply hbreak.2
            rw [ht, hbody, hmore]
            exact ⟨rfl, rfl⟩
          | cons x body =>
            rw [hbody] at hlast
            rwa [List.getLast?_cons_cons]

/-- What stays on its line, in front of what ends the line, is a line comment. -/
theorem lineBody_of_endsLine {body rest : Text} (hfeed : '\n' ∉ body)
    (hends : EndsLine body rest) : lineBody (body ++ rest) = ⟨body, rest⟩ := by
  induction body with
  | nil => rcases hends with rfl | ⟨more, rfl⟩ | ⟨⟨more, rfl⟩, -⟩ <;> rfl
  | cons c body ih =>
    have hc : c ≠ '\n' := by
      rintro rfl
      exact hfeed List.mem_cons_self
    have hbreak : ¬(c = '\r' ∧ (body ++ rest).head? = some '\n') := by
      rintro ⟨rfl, hhead⟩
      cases body with
      | nil =>
        rcases hends with rfl | ⟨more, rfl⟩ | ⟨-, hlast⟩
        · cases hhead
        · cases hhead
        · exact hlast rfl
      | cons x body =>
        obtain rfl := Option.some.inj hhead
        exact hfeed (List.mem_cons_of_mem _ List.mem_cons_self)
    have hrest := ih (fun h => hfeed (List.mem_cons_of_mem _ h)) hends.of_cons
    rw [List.cons_append, lineBody, if_neg (by simpa [hc] using hbreak), hrest]

end Comments

end Frontend
