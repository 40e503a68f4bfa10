import Frontend.Proofs.Token.NumberGrammar
import Frontend.Proofs.Token.Reading
import Frontend.Proofs.Token.Rereading

/-!
# Numbers are read greedily

The scanner takes each part of a number as far as it goes, so in front of a greedy literal it reads
that literal. It looks at octal digits behind a leading zero first, and leaves early if nothing else
goes on with them, which comes to the same as reading a decimal literal.
-/

namespace Frontend

open Text

namespace Text.StartsOutside

variable {cs rest : Text}

/-- No test that only characters of a class pass is passed by the first of a text that starts
outside of it. -/
theorem head_any (h : StartsOutside cs rest) {p : Char → Bool} (hp : ∀ c, p c = decide (c ∈ cs)) :
    rest.head?.any p = false := by
  cases rest with
  | nil => rfl
  | cons c rest =>
    have hc : c ∉ cs := fun hc => h c hc rfl
    simpa [hp] using hc

/-- A run of a class is taken whole in front of a text that starts outside of it. -/
theorem run_eq (h : StartsOutside cs rest) {p : Char → Bool} (hp : ∀ c, p c = decide (c ∈ cs))
    {w : Text} (hw : w ⊆ cs) : Taken.run p (w ++ rest) = ⟨w, rest⟩ :=
  Taken.run_append (fun c hc => by simpa [hp] using hw hc) (h.head_any hp)

/-- Nothing is taken of a text that starts outside of a class. -/
theorem one_eq (h : StartsOutside cs rest) {p : Char → Bool} (hp : ∀ c, p c = decide (c ∈ cs)) :
    Taken.one p rest = ⟨[], rest⟩ :=
  Taken.one_of_none (h.head_any hp)

end Text.StartsOutside

/-- A character of the class is taken. -/
theorem Taken.one_cons {p : Char → Bool} {c : Char} (h : p c = true) (t : Text) :
    one p (c :: t) = ⟨[c], t⟩ := by
  simp [one, h]

namespace Number

/-- The digits of a radix are those of a list. -/
def HasDigits (radix : Nat) (ds : Text) : Prop :=
  ∀ c, isDigitIn radix c = decide (c ∈ ds)

/-- Digits of a radix are ASCII characters, so they can be compared one by one. -/
private theorem hasDigits_of_ascii {radix : Nat} {ds : Text}
    (hds : ds.all (fun c => c.toNat < 128) = true)
    (h : ∀ n < 128, isDigitIn radix (Char.ofNat n) = decide (Char.ofNat n ∈ ds)) :
    HasDigits radix ds := by
  intro c
  by_cases hc : c.toNat < 128
  · have hn := h c.toNat hc
    rwa [Char.ofNat_toNat] at hn
  · have habove {d : Char} (hd : d.toNat < 128) : ¬c ≤ d := by
      intro hle
      have hlt : c.toNat ≤ d.toNat := UInt32.le_iff_toNat_le.mp hle
      omega
    have hnone : digitValue? c = none := by
      rw [digitValue?, if_neg (fun h => habove (by decide) h.2),
        if_neg (fun h => habove (by decide) h.2), if_neg (fun h => habove (by decide) h.2)]
    have hmem : c ∉ ds := fun hmem => hc (by simpa using List.all_eq_true.mp hds c hmem)
    simp [isDigitIn, hnone, hmem]

/-- The digits of the radix ten are the decimal ones. -/
theorem hasDigits_ten : HasDigits 10 decimalDigits :=
  hasDigits_of_ascii (by decide) (by decide +kernel)

/-- The digits of the radix eight are the octal ones. -/
theorem hasDigits_eight : HasDigits 8 octalDigits :=
  hasDigits_of_ascii (by decide) (by decide +kernel)

/-- A radix mark stands for a radix with the digits that it is listed with. -/
theorem exists_radix {mark : Char} {ds : Text} (h : (mark, ds) ∈ marks) :
    ∃ radix, radixOfMark? mark = some radix ∧ HasDigits radix ds := by
  have hbinary : HasDigits 2 binaryDigits := hasDigits_of_ascii (by decide) (by decide +kernel)
  have hhexadecimal : HasDigits 16 hexadecimalDigits :=
    hasDigits_of_ascii (by decide) (by decide +kernel)
  simp only [marks, List.mem_cons, Prod.mk.injEq, List.not_mem_nil, or_false] at h
  rcases h with ⟨rfl, rfl⟩ | ⟨rfl, rfl⟩ | ⟨rfl, rfl⟩ | ⟨rfl, rfl⟩ | ⟨rfl, rfl⟩ | ⟨rfl, rfl⟩
  · exact ⟨2, rfl, hbinary⟩
  · exact ⟨2, rfl, hbinary⟩
  · exact ⟨8, rfl, hasDigits_eight⟩
  · exact ⟨8, rfl, hasDigits_eight⟩
  · exact ⟨16, rfl, hhexadecimal⟩
  · exact ⟨16, rfl, hhexadecimal⟩

/-- No character but the listed marks is a radix mark. -/
theorem radix_eq_none {t : Text} (h : ¬Marked ('0' :: t)) :
    t.head?.bind radixOfMark? = none := by
  cases t with
  | nil => rfl
  | cons c t =>
    have hc : ∀ row ∈ marks, c ≠ row.1 := by
      rintro row hrow rfl
      exact h ⟨row, hrow, t, rfl⟩
    simp only [marks, List.forall_mem_cons, List.not_mem_nil, false_imp_iff, implies_true,
      and_true] at hc
    obtain ⟨hb, hB, ho, hO, hx, hX⟩ := hc
    simp [radixOfMark?, hb, hB, ho, hO, hx, hX]

section Runs

variable {radix : Nat} {ds : Text} (hds : HasDigits radix ds) (r : Run ds)

include hds

/-- The scanner goes on with what a run consists of. -/
theorem isDigitOrMark_eq (c : Char) : isDigitOrMark radix c = decide (c ∈ runOf ds) := by
  simp [isDigitOrMark, hds c, runOf, Bool.or_comm]

/-- A run that does not go on is read whole. -/
theorem digits_run {rest : Text} (h : StartsOutside (runOf ds) rest) :
    digits radix (r.text ++ rest) = ⟨r.text, rest⟩ :=
  h.run_eq (isDigitOrMark_eq hds) r.subset

/-- The scanner finds a digit in a run if there is one. -/
theorem hasDigit_run : hasDigit radix r.text = decide r.HasDigit := by
  rw [hasDigit, funext hds, Bool.eq_iff_iff, decide_eq_true_eq, List.any_eq_true]
  simp [Run.HasDigit]

/-- A run of digits behind a radix mark is read whole. -/
theorem afterMark_run {rest : Text} (h : StartsOutside (runOf ds) rest) :
    afterMark radix (r.text ++ rest) =
      ⟨if r.HasDigit then .numeric .int else .illegal .malformedNumber, r.text, rest⟩ := by
  simp [afterMark, digits_run hds r h, hasDigit_run hds r]

end Runs

variable {e : Ending} {d : Decimal} {rest : Text}

/-- An imaginary mark is taken if it is there, where the text does not go on with one. -/
theorem suffix_imag (form : NumericForm) (h : e.imaginary = false → StartsOutside ['i'] rest) :
    suffix form (e.imag ++ rest) =
      ⟨.numeric (if e.imaginary then .imaginary else form), e.imag, rest⟩ := by
  rcases e.imag_eq with ⟨himaginary, heq⟩ | ⟨himaginary, heq⟩
  · rw [heq, List.nil_append, suffix, (h himaginary).one_eq (by simp), himaginary]
    rfl
  · rw [heq, List.singleton_append, suffix, Taken.one_cons rfl, himaginary]
    rfl

/-- The digits of an exponent are read with the rest of a greedy ending. -/
theorem exponentDigits_ending {x : Exponent} (hx : e.exponent = some x) (h : e.Greedy rest) :
    exponentDigits (x.digits.text ++ (e.imag ++ rest)) =
      ⟨e.cls .float, x.digits.text ++ e.imag, rest⟩ := by
  have hcomplete : (∀ y ∈ e.exponent, y.digits.HasDigit) ↔ x.digits.HasDigit := by
    simp [hx]
  unfold exponentDigits
  dsimp only
  rw [digits_run hasDigits_ten x.digits (h.digits x hx), hasDigit_run hasDigits_ten]
  by_cases hdigit : x.digits.HasDigit
  · have hsuffix := suffix_imag .float fun hnot => h.mark hnot (hcomplete.mpr hdigit)
    simp [hdigit, hsuffix, Ending.cls, hx, Scan.prepend]
  · -- no imaginary mark belongs to an exponent without a digit
    have hnone : e.imag = [] := by
      rcases e.imag_eq with ⟨-, heq⟩ | ⟨himaginary, -⟩
      · exact heq
      · exact absurd (e.hasDigit himaginary x hx) hdigit
    simp [hdigit, hnone, Ending.cls, hx]

/-- Behind its letter, an exponent is read with the rest of a greedy ending. -/
theorem afterLetter_ending {x : Exponent} (hx : e.exponent = some x) (h : e.Greedy rest) :
    afterLetter (x.sign.toList ++ (x.digits.text ++ (e.imag ++ rest))) =
      ⟨e.cls .float, x.sign.toList ++ (x.digits.text ++ e.imag), rest⟩ := by
  have hsigns (c : Char) : isSign c = decide (c ∈ signs) := by simp [isSign, signs]
  have hdigits := exponentDigits_ending hx h
  unfold afterLetter
  cases hsign : x.sign with
  | none =>
    simp only [Option.toList_none, List.nil_append, (h.sign x hx hsign).one_eq hsigns, hdigits]
    rfl
  | some s =>
    have htaken : isSign s = true := by simpa [hsigns] using Exponent.mem_signs hsign
    simp only [Option.toList_some, List.singleton_append, Taken.one_cons htaken, hdigits]
    rfl

/-- A greedy ending is read, whatever the form of what comes before. -/
theorem tail_ending (form : NumericForm) (h : e.Greedy rest) :
    tail form (e.text ++ rest) = ⟨e.cls form, e.text, rest⟩ := by
  have hletters (c : Char) : isExponentLetter c = decide (c ∈ exponentLetters) := by
    simp [isExponentLetter, exponentLetters]
  cases hx : e.exponent with
  | none =>
    have hnone : e.text = e.imag := by simp [Ending.text, Ending.power, hx]
    have hsuffix := suffix_imag form fun hnot => h.mark hnot (by simp [hx])
    rw [hnone, tail, (h.letter hx).one_eq hletters]
    simp [hsuffix, Ending.cls, hx]
  | some x =>
    have hsome : e.text = x.letter :: (x.sign.toList ++ (x.digits.text ++ e.imag)) := by
      simp [Ending.text, Ending.power, Exponent.text, hx]
    have hcls : e.cls form = e.cls .float := by simp [Ending.cls, hx]
    have htaken : isExponentLetter x.letter = true := by simpa [hletters] using x.letter_mem
    rw [hsome, hcls, tail]
    simp [Taken.one_cons htaken, afterLetter_ending hx h, Scan.prepend]

/-- The digits of a fraction are read with the rest of a greedy literal. -/
theorem afterPoint_fraction {digits : Run decimalDigits} (hdigits : d.fraction = some digits)
    (h : d.Greedy rest) :
    afterPoint (digits.text ++ (d.ending.text ++ rest)) =
      ⟨d.cls, digits.text ++ d.ending.text, rest⟩ := by
  have hrest := h.fraction (by rw [hdigits]; exact nofun)
  rw [afterPoint, digits_run hasDigits_ten digits hrest]
  simp [tail_ending .float h.ending, Decimal.cls, hdigits, Scan.prepend]

/-- Behind its first digits, a greedy decimal literal is read to its end. -/
theorem afterWhole_point (h : d.Greedy rest) :
    afterWhole (d.point ++ (d.ending.text ++ rest)) =
      ⟨d.cls, d.point ++ d.ending.text, rest⟩ := by
  unfold afterWhole Decimal.point
  cases hdigits : d.fraction with
  | none =>
    have hpoint := (h.point hdigits).one_eq (p := fun c => c = '.') (by simp)
    simp [hpoint, tail_ending .int h.ending, Decimal.cls, hdigits]
  | some digits =>
    simp [Taken.one_cons, afterPoint_fraction hdigits h, Scan.prepend]

/-- A greedy decimal literal is read. -/
theorem decimal_text (h : d.Greedy rest) : decimal (d.text ++ rest) = ⟨d.cls, d.text, rest⟩ := by
  rw [Decimal.text, List.append_assoc, List.append_assoc, decimal,
    digits_run hasDigits_ten d.whole h.whole]
  simp [afterWhole_point h, Scan.prepend]

/-- Digits in front of a decimal literal are part of it. -/
theorem decimal_append {w : Text} (hw : ∀ c ∈ w, isDigitOrMark 10 c = true) (t : Text) :
    decimal (w ++ t) = (decimal t).prepend w := by
  simp [decimal, digits, Taken.run, List.takeWhile_append_of_pos hw,
    List.dropWhile_append_of_pos hw, Scan.prepend]

/-- Where no decimal literal goes on, the empty one is greedy, and nothing is read. -/
theorem decimal_of_not_continues {t : Text} (h : t.head?.any continuesDecimal = false) :
    decimal t = ⟨.numeric .int, [], t⟩ := by
  have hout {cs : Text} (hcs : cs.all continuesDecimal = true) : StartsOutside cs t := by
    intro c hc hhead
    rw [hhead, Option.any_some, List.all_eq_true.mp hcs c hc] at h
    exact nomatch h
  let e : Ending := ⟨none, false, nofun⟩
  have hending : e.Greedy t :=
    ⟨fun _ => hout (by decide), nofun, nofun, fun _ _ => hout (by decide)⟩
  let d : Decimal := ⟨⟨[], List.nil_subset _⟩, none, e⟩
  have hgreedy : d.Greedy t :=
    ⟨hout (by decide), fun _ => hout (by decide), fun hne => absurd rfl hne, hending⟩
  exact decimal_text hgreedy

/-- A digit of a radix is one of every larger radix. -/
theorem isDigitIn_of_le {radix radix' : Nat} (h : radix ≤ radix') {c : Char}
    (hc : isDigitIn radix c = true) : isDigitIn radix' c = true := by
  unfold isDigitIn at hc ⊢
  split at hc
  · exact nomatch hc
  · simp only [decide_eq_true_eq] at hc ⊢
    omega

/-- **Looking at octal digits first changes nothing.** What starts with a zero and no radix mark is
read as a decimal literal. -/
theorem literal_zero {t : Text} (h : ¬Marked ('0' :: t)) :
    literal ('0' :: t) = decimal ('0' :: t) := by
  have hoctal : ∀ c ∈ '0' :: (Taken.run (isDigitIn 8) t).text, isDigitOrMark 10 c = true := by
    refine List.forall_mem_cons.mpr ⟨by decide, ?_⟩
    intro c hc
    have hdigit := List.all_eq_true.mp List.all_takeWhile c hc
    rw [isDigitOrMark, isDigitIn_of_le (by decide) hdigit]
    rfl
  have hdecimal := decimal_append hoctal (Taken.run (isDigitIn 8) t).rest
  rw [List.cons_append, Taken.text_append_rest_run] at hdecimal
  rw [literal_of_no_mark (radix_eq_none h), hdecimal, afterZero]
  split
  · rfl
  · rename_i hstops
    rw [decimal_of_not_continues (Bool.eq_false_iff.mpr hstops)]
    simp [Scan.prepend]

/-- The digits of the radix ten start numbers, and no words. -/
theorem isDigit_of_mem {c : Char} (h : c ∈ decimalDigits) :
    isWordStart c = false ∧ c.isDigit = true := by
  have hall : decimalDigits.all (fun c => !isWordStart c && c.isDigit) = true := by decide
  simpa using List.all_eq_true.mp hall c h

/-- **A greedy literal is read.** The leading token of a text is the greedy literal it starts with. -/
theorem leading_literal {l : Literal} {rest : Text} (h : l.Greedy rest) {c : Char} {t : Text}
    (heq : l.text ++ rest = c :: t) : Scan.leading c t = ⟨l.cls, l.text, rest⟩ := by
  cases l with
  | marked mark ds hmem run =>
    obtain ⟨rfl, rfl⟩ := List.cons.inj heq
    obtain ⟨radix, hradix, hds⟩ := exists_radix hmem
    have hafter := afterMark_run hds run h
    have hliteral : literal ('0' :: mark :: (run.text ++ rest)) = _ := literal_of_mark hradix _
    rw [hafter] at hliteral
    exact (Scan.leading_digit (by decide) (by decide) _).trans hliteral
  | decimal d starts =>
    obtain ⟨hgreedy, hmarked⟩ := h
    have hdecimal := decimal_text hgreedy
    rw [show d.text ++ rest = c :: t from heq] at hmarked hdecimal
    obtain ⟨x, hx, hdigit | ⟨u, hpoint⟩⟩ := starts
    · obtain ⟨rfl, -⟩ := List.cons_prefix_cons.mp (heq ▸ hdigit.trans (List.prefix_append _ rest))
      obtain ⟨hword, hisDigit⟩ := isDigit_of_mem hx
      rw [Scan.leading_digit hword hisDigit]
      by_cases hzero : x = '0'
      · subst hzero
        exact (literal_zero hmarked).trans hdecimal
      · exact (literal_of_ne hzero t).trans hdecimal
    · have htext : d.text = '.' :: x :: u := hpoint.symm
      obtain ⟨digits, hdigits, hsplit⟩ := d.exists_fraction htext
      have hsecond : (x :: u ++ rest).head?.any Char.isDigit = true := (isDigit_of_mem hx).2
      have hafter := afterPoint_fraction hdigits hgreedy
      rw [← List.append_assoc, ← hsplit] at hafter
      have hcons : d.text ++ rest = c :: t := heq
      rw [htext] at hcons
      obtain ⟨rfl, rfl⟩ := List.cons.inj hcons
      have hpointed : Scan.leading '.' (x :: u ++ rest) = ⟨d.cls, '.' :: x :: u, rest⟩ := by
        rw [Scan.leading_point hsecond, hafter]
        rfl
      exact hpointed.trans (by rw [← htext]; rfl)

end Number

/-- **A number is read as the longest literal of the grammar.** At a cursor in front of a digit, or
of a point and a digit, the text that is left starts with a greedy literal. Whichever that is, the
cursor yields it with its class, and every literal that the text starts with is a beginning of it.
The octal digits behind a leading zero are no form of their own: without a radix mark, the literal is
read as a decimal one. -/
theorem Cursor.yields_number {c : Cursor} (h : Number.Starts c.rest) :
    (∃ (l : Number.Literal) (rest : Text), c.rest = l.text ++ rest ∧ l.Greedy rest) ∧
    (∀ (l : Number.Literal) (rest : Text), c.rest = l.text ++ rest → l.Greedy rest →
      c.Yields l.cls l.text rest ∧
        ∀ l' : Number.Literal, l'.text <+: c.rest → l'.text <+: l.text) ∧
    ∀ t, c.rest = '0' :: t → ¬Number.Marked c.rest →
      Number.literal c.rest = Number.decimal c.rest := by
  refine ⟨Number.Literal.exists_greedy h, ?_, ?_⟩
  · intro l rest hsplit hgreedy
    obtain ⟨x, t, hrest⟩ : ∃ x t, c.rest = x :: t := by
      obtain ⟨x, -, ⟨u, hu⟩ | ⟨u, hu⟩⟩ := h
      · exact ⟨x, u, hu.symm⟩
      · exact ⟨'.', x :: u, hu.symm⟩
    have hscan := Number.leading_literal hgreedy (hsplit.symm.trans hrest)
    exact ⟨Cursor.yields_of_leading hrest hscan, fun l' hp => hgreedy.longest (hsplit ▸ hp)⟩
  · intro t hrest hmarked
    rw [hrest] at hmarked ⊢
    exact Number.literal_zero hmarked

/-- A leading zero with octal digits goes on as a decimal literal up to its imaginary mark. A radix
mark has no imaginary mark behind its digits, and is malformed without digits. -/
theorem Cursor.yields_number_zero :
    (ofText ['0', '7', '_', '.', '9', 'e', '-', '1', 'i', 'i']).Yields (.numeric .imaginary)
      ['0', '7', '_', '.', '9', 'e', '-', '1', 'i'] ['i'] ∧
    (ofText ['0', 'B', '_', '2', 'i']).Yields (.illegal .malformedNumber) ['0', 'B', '_']
      ['2', 'i'] := by
  constructor
  · let x : Number.Exponent := ⟨'e', some '-', ⟨['1'], by decide⟩, by decide, by decide⟩
    let e : Number.Ending := ⟨some x, true, by decide⟩
    let d : Number.Decimal := ⟨⟨['0', '7', '_'], by decide⟩, some ⟨['9'], by decide⟩, e⟩
    have hending : e.Greedy ['i'] := ⟨nofun, by decide, by decide, nofun⟩
    have hgreedy : d.Greedy ['i'] := ⟨by decide, nofun, by decide, hending⟩
    exact ((@yields_number (ofText (d.text ++ ['i'])) (by decide)).2.1 (.decimal d (by decide)) ['i']
      rfl ⟨hgreedy, by decide⟩).1
  · let l : Number.Literal := .marked 'B' Number.binaryDigits (by decide) ⟨['_'], by decide⟩
    have hgreedy : l.Greedy ['2', 'i'] := by
      show Text.StartsOutside (Number.runOf Number.binaryDigits) ['2', 'i']
      decide
    exact ((@yields_number (ofText (l.text ++ ['2', 'i'])) (by decide)).2.1 l _ rfl hgreedy).1

end Frontend
