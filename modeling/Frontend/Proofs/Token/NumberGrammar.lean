import Mathlib.Data.List.Infix
import Frontend.Token.Basic

/-!
# The grammar of numeric literals

A literal is a radix mark with digits, or a decimal literal: digits, a fraction, an exponent and an
imaginary mark, of which most may be missing. Members of the grammar are values of `Literal`, among
them the malformed ones, where digits are required and there is none.

A text has many beginnings that are literals. The greedy one is that of which no part can be made
longer by what follows: `Literal.Greedy` says so part by part. Every text that starts like a number
starts with a greedy literal, and every other literal it starts with is a beginning of that one.
-/

namespace Frontend

namespace Text

/-- None of the characters is the first of the text. -/
def StartsOutside (cs t : Text) : Prop :=
  ∀ c ∈ cs, t.head? ≠ some c

/-- Whether a text starts outside can be tested on its first character. -/
instance (cs t : Text) : Decidable (StartsOutside cs t) :=
  List.decidableBAll (fun c => t.head? ≠ some c) cs

/-- No character stands in both. -/
def Apart (a b : Text) : Prop :=
  ∀ c ∈ a, c ∉ b

/-- Whether texts are apart can be tested character by character. -/
instance (a b : Text) : Decidable (Apart a b) :=
  List.decidableBAll (fun c => c ∉ b) a

/-- The empty text starts with none of the characters. -/
theorem startsOutside_nil (cs : Text) : StartsOutside cs [] :=
  fun _ _ h => nomatch h

/-- A text starts outside if its first character is none of them. -/
theorem startsOutside_cons {cs : Text} {c : Char} (h : c ∉ cs) (t : Text) :
    StartsOutside cs (c :: t) := by
  rintro d hd heq
  obtain rfl : c = d := Option.some.inj heq
  exact h hd

/-- A text starts outside of a class, or with one of its characters. -/
theorem startsOutside_or (cs t : Text) :
    StartsOutside cs t ∨ ∃ c ∈ cs, ∃ u, t = c :: u := by
  cases t with
  | nil => exact .inl (startsOutside_nil cs)
  | cons c u =>
    by_cases hc : c ∈ cs
    · exact .inr ⟨c, hc, u, rfl⟩
    · exact .inl (startsOutside_cons hc u)

namespace StartsOutside

variable {cs t : Text} {c : Char}

/-- Nothing with a first character of the class is a beginning. -/
theorem not_prefix_cons (h : StartsOutside cs t) (hc : c ∈ cs) (w : Text) : ¬c :: w <+: t := by
  rintro ⟨u, rfl⟩
  exact h c hc rfl

/-- Only the empty beginning of a text that starts with a character of the class starts outside. -/
theorem eq_nil (h : StartsOutside cs t) (hc : c ∈ cs) {u : Text} (hp : t <+: c :: u) : t = [] := by
  cases t with
  | nil => rfl
  | cons d t =>
    obtain ⟨rfl, -⟩ := List.cons_prefix_cons.mp hp
    exact absurd rfl (h d hc)

/-- A part without characters of the class in front changes nothing. -/
theorem append {front : Text} (hfront : Apart front cs) (h : StartsOutside cs t) :
    StartsOutside cs (front ++ t) := by
  cases front with
  | nil => exact h
  | cons d front => exact startsOutside_cons (hfront d List.mem_cons_self) _

end StartsOutside

end Text

namespace Number

open Text

/-- The digits of the radix two. -/
def binaryDigits : Text := ['0', '1']

/-- The digits of the radix eight. -/
def octalDigits : Text := ['0', '1', '2', '3', '4', '5', '6', '7']

/-- The digits of the radix ten. -/
def decimalDigits : Text := ['0', '1', '2', '3', '4', '5', '6', '7', '8', '9']

/-- The digits of the radix sixteen, with letters in both cases. -/
def hexadecimalDigits : Text :=
  decimalDigits ++ ['a', 'b', 'c', 'd', 'e', 'f'] ++ ['A', 'B', 'C', 'D', 'E', 'F']

/-- The characters after a leading zero that are radix marks, with the digits of their radix. -/
def marks : List (Char × Text) :=
  [('b', binaryDigits), ('B', binaryDigits), ('o', octalDigits), ('O', octalDigits),
    ('x', hexadecimalDigits), ('X', hexadecimalDigits)]

/-- The letters that an exponent starts with. -/
def exponentLetters : Text := ['e', 'E']

/-- The signs of an exponent. -/
def signs : Text := ['+', '-']

/-- What a run of digits consists of. -/
def runOf (digits : Text) : Text :=
  '_' :: digits

/-- A run of digits and underscores, which may be empty. -/
structure Run (digits : Text) where
  text : Text
  subset : text ⊆ runOf digits

namespace Run

variable {digits : Text}

/-- The run has a digit, not just underscores. -/
def HasDigit (r : Run digits) : Prop :=
  ∃ c ∈ r.text, c ∈ digits

/-- Whether a run has a digit can be tested character by character. -/
instance (r : Run digits) : Decidable r.HasDigit :=
  List.decidableBEx (fun c => c ∈ digits) r.text

/-- Every text starts with a run that does not go on. -/
theorem exists_greedy (digits t : Text) :
    ∃ (r : Run digits) (rest : Text), t = r.text ++ rest ∧ StartsOutside (runOf digits) rest := by
  induction t with
  | nil => exact ⟨⟨[], List.nil_subset _⟩, [], rfl, startsOutside_nil _⟩
  | cons c t ih =>
    rcases startsOutside_or (runOf digits) (c :: t) with hout | ⟨d, hd, u, hcons⟩
    · exact ⟨⟨[], List.nil_subset _⟩, c :: t, rfl, hout⟩
    · obtain ⟨rfl, rfl⟩ := List.cons.inj hcons
      obtain ⟨r, rest, rfl, hout⟩ := ih
      exact ⟨⟨c :: r.text, List.cons_subset.mpr ⟨hd, r.subset⟩⟩, rest, rfl, hout⟩

/-- A run that does not go on takes the first character if it can. -/
theorem exists_greedy_cons {c : Char} (hc : c ∈ digits) (t : Text) :
    ∃ (r : Run digits) (rest : Text), c :: t = r.text ++ rest ∧ [c] <+: r.text ∧
      StartsOutside (runOf digits) rest := by
  obtain ⟨r, rest, heq, hout⟩ := exists_greedy digits (c :: t)
  refine ⟨r, rest, heq, ?_, hout⟩
  cases htext : r.text with
  | nil =>
    rw [htext, List.nil_append] at heq
    exact absurd (heq ▸ List.prefix_rfl) (hout.not_prefix_cons (List.mem_cons_of_mem _ hc) t)
  | cons d text =>
    rw [htext, List.cons_append] at heq
    obtain ⟨rfl, -⟩ := List.cons.inj heq
    exact List.cons_prefix_cons.mpr ⟨rfl, List.nil_prefix⟩

/-- What starts with a run and is a beginning of a text stays within the run that the text starts
with, or the runs are the same. -/
theorem prefix_cases {r r' : Run digits} {w' rest : Text} (h : r'.text ++ w' <+: r.text ++ rest)
    (hrest : StartsOutside (runOf digits) rest) (hw' : StartsOutside (runOf digits) w') :
    r'.text ++ w' <+: r.text ∨ (r'.text = r.text ∧ w' <+: rest) := by
  obtain ⟨a, ha⟩ := r
  obtain ⟨b, hb⟩ := r'
  dsimp only at h ⊢
  induction b generalizing a with
  | nil =>
    cases a with
    | nil => exact .inr ⟨rfl, h⟩
    | cons c a =>
      left
      rw [hw'.eq_nil (ha List.mem_cons_self) h]
      exact List.nil_prefix
  | cons c b ih =>
    cases a with
    | nil => exact absurd h (hrest.not_prefix_cons (hb List.mem_cons_self) _)
    | cons d a =>
      obtain ⟨rfl, htail⟩ := List.cons_prefix_cons.mp h
      have ha' := (List.cons_subset.mp ha).2
      have hb' := (List.cons_subset.mp hb).2
      rcases ih a ha' hb' htail with hwithin | ⟨rfl, hafter⟩
      · exact .inl (List.cons_prefix_cons.mpr ⟨rfl, hwithin⟩)
      · exact .inr ⟨rfl, hafter⟩

/-- A run has no character that is neither an underscore nor a digit. -/
theorem apart {cs : Text} (h : Apart (runOf digits) cs) (r : Run digits) : Apart r.text cs :=
  fun c hc => h c (r.subset hc)

end Run

/-- An exponent: its letter, its sign if it has one, and digits. -/
structure Exponent where
  letter : Char
  sign : Option Char
  digits : Run decimalDigits
  letter_mem : letter ∈ exponentLetters
  sign_subset : sign.toList ⊆ signs

/-- The text of an exponent. -/
def Exponent.text (x : Exponent) : Text :=
  x.letter :: (x.sign.toList ++ x.digits.text)

/-- The sign of an exponent is one of the two. -/
theorem Exponent.mem_signs {x : Exponent} {c : Char} (h : x.sign = some c) : c ∈ signs :=
  x.sign_subset (by rw [h]; exact List.mem_cons_self)

/-- The end of a decimal literal: an exponent and an imaginary mark, each of which may be missing.
An exponent without a digit is malformed, and no imaginary mark belongs to it. -/
structure Ending where
  exponent : Option Exponent
  imaginary : Bool
  hasDigit : imaginary = true → ∀ x ∈ exponent, x.digits.HasDigit

namespace Ending

/-- The text of the exponent, if there is one. -/
def power (e : Ending) : Text :=
  e.exponent.elim [] Exponent.text

/-- The text of the imaginary mark, if there is one. -/
def imag (e : Ending) : Text :=
  if e.imaginary then ['i'] else []

/-- The text of an ending. -/
def text (e : Ending) : Text :=
  e.power ++ e.imag

/-- The class of a decimal literal with the ending, given the form of what comes before. -/
def cls (e : Ending) (form : NumericForm) : TokenClass :=
  if ∀ x ∈ e.exponent, x.digits.HasDigit then
    .numeric (if e.imaginary then .imaginary else if e.exponent.isSome then .float else form)
  else .illegal .malformedNumber

/-- What follows the ending goes on with none of its parts. -/
structure Greedy (e : Ending) (rest : Text) : Prop where
  /-- Without an exponent, none starts here. -/
  letter : e.exponent = none → StartsOutside exponentLetters (e.imag ++ rest)
  /-- An exponent without a sign has none in front of its digits. -/
  sign : ∀ x ∈ e.exponent, x.sign = none → StartsOutside signs (x.digits.text ++ (e.imag ++ rest))
  /-- The digits of an exponent do not go on. -/
  digits : ∀ x ∈ e.exponent, StartsOutside (runOf decimalDigits) (e.imag ++ rest)
  /-- Without an imaginary mark, none follows that could be taken. -/
  mark : e.imaginary = false → (∀ x ∈ e.exponent, x.digits.HasDigit) → StartsOutside ['i'] rest

end Ending

/-- A decimal literal: digits, the digits of a fraction if there is a point, and an ending. -/
structure Decimal where
  whole : Run decimalDigits
  fraction : Option (Run decimalDigits)
  ending : Ending

namespace Decimal

/-- The point with the digits of the fraction, if there is one. -/
def point (d : Decimal) : Text :=
  d.fraction.elim [] fun digits => '.' :: digits.text

/-- The text of a decimal literal. -/
def text (d : Decimal) : Text :=
  d.whole.text ++ (d.point ++ d.ending.text)

/-- The class of a decimal literal: a point makes a float of an integer, and the ending decides. -/
def cls (d : Decimal) : TokenClass :=
  d.ending.cls (if d.fraction.isSome then .float else .int)

/-- What follows the literal goes on with none of its parts. -/
structure Greedy (d : Decimal) (rest : Text) : Prop where
  /-- The first digits do not go on. -/
  whole : StartsOutside (runOf decimalDigits) (d.point ++ (d.ending.text ++ rest))
  /-- Without a fraction, no point follows. -/
  point : d.fraction = none → StartsOutside ['.'] (d.ending.text ++ rest)
  /-- The digits of a fraction do not go on. -/
  fraction : d.fraction ≠ none → StartsOutside (runOf decimalDigits) (d.ending.text ++ rest)
  ending : d.ending.Greedy rest

end Decimal

/-- The text starts like a number: with a digit, or with a point and a digit. -/
def Starts (t : Text) : Prop :=
  ∃ c ∈ decimalDigits, [c] <+: t ∨ ['.', c] <+: t

/-- Whether a text starts like a number can be tested digit by digit. -/
instance (t : Text) : Decidable (Starts t) :=
  List.decidableBEx (fun c => [c] <+: t ∨ ['.', c] <+: t) decimalDigits

/-- The text starts with a zero and a radix mark. -/
def Marked (t : Text) : Prop :=
  ∃ row ∈ marks, ['0', row.1] <+: t

/-- Whether a text is marked can be tested mark by mark. -/
instance (t : Text) : Decidable (Marked t) :=
  List.decidableBEx (fun row : Char × Text => ['0', row.1] <+: t) marks

/-- A numeric literal, well formed or malformed: digits behind a radix mark, or a decimal literal
that starts like a number. -/
inductive Literal where
  | marked (mark : Char) (digits : Text) (mem : (mark, digits) ∈ marks) (run : Run digits)
  | decimal (d : Decimal) (starts : Starts d.text)

namespace Literal

/-- The text of a literal. -/
def text : Literal → Text
  | marked mark _ _ run => '0' :: mark :: run.text
  | decimal d _ => d.text

/-- The class of a literal. Behind a radix mark there has to be a digit. -/
def cls : Literal → TokenClass
  | marked _ _ _ run => if run.HasDigit then .numeric .int else .illegal .malformedNumber
  | decimal d _ => d.cls

/-- What follows the literal goes on with none of its parts, and makes no mark of the character
behind a leading zero. -/
def Greedy (rest : Text) : Literal → Prop
  | marked _ digits _ _ => StartsOutside (runOf digits) rest
  | decimal d _ => d.Greedy rest ∧ ¬Marked (d.text ++ rest)

end Literal

/-! Every text starts with greedy parts, from the end of a literal to the whole. -/

/-- An imaginary mark is taken if one stands there and it is allowed. -/
private theorem exists_mark (allowed : Prop) (t : Text) : ∃ (taken : Bool) (rest : Text),
    t = (if taken then ['i'] else []) ++ rest ∧ (taken = true → allowed) ∧
      (taken = false → allowed → StartsOutside ['i'] rest) := by
  rcases startsOutside_or ['i'] t with hout | ⟨c, hc, u, rfl⟩
  · exact ⟨false, t, rfl, nofun, fun _ _ => hout⟩
  · obtain rfl := List.mem_singleton.mp hc
    by_cases hallowed : allowed
    · exact ⟨true, u, rfl, fun _ => hallowed, nofun⟩
    · exact ⟨false, 'i' :: u, rfl, nofun, fun _ h => absurd h hallowed⟩

/-- A sign is taken if one stands there. -/
private theorem exists_sign (t : Text) : ∃ (sign : Option Char) (rest : Text),
    t = sign.toList ++ rest ∧ sign.toList ⊆ signs ∧ (sign = none → StartsOutside signs rest) := by
  rcases startsOutside_or signs t with hout | ⟨c, hc, u, rfl⟩
  · exact ⟨none, t, rfl, List.nil_subset _, fun _ => hout⟩
  · exact ⟨some c, u, rfl, List.cons_subset.mpr ⟨hc, List.nil_subset _⟩, nofun⟩

/-- Every text starts with an ending that does not go on, if only with an empty one. -/
theorem Ending.exists_greedy (t : Text) :
    ∃ (e : Ending) (rest : Text), t = e.text ++ rest ∧ e.Greedy rest := by
  rcases startsOutside_or exponentLetters t with hletter | ⟨letter, hmem, u, rfl⟩
  · obtain ⟨taken, rest, rfl, -, hmark⟩ := exists_mark True t
    exact ⟨⟨none, taken, nofun⟩, rest, rfl, fun _ => hletter, nofun, nofun,
      fun h _ => hmark h trivial⟩
  · obtain ⟨sign, v, rfl, hsign, hnone⟩ := exists_sign u
    obtain ⟨digits, w, rfl, hdigits⟩ := Run.exists_greedy decimalDigits v
    obtain ⟨taken, rest, rfl, hallowed, hmark⟩ := exists_mark digits.HasDigit w
    let x : Exponent := ⟨letter, sign, digits, hmem, hsign⟩
    refine ⟨⟨some x, taken, ?_⟩, rest, ?_, nofun, ?_, ?_, fun h hall => hmark h (hall x rfl)⟩
    · rintro htaken _ ⟨⟩
      exact hallowed htaken
    · simp [x, text, power, Exponent.text, imag]
    · rintro _ ⟨⟩
      exact hnone
    · rintro _ ⟨⟩
      exact hdigits

/-- What stands behind the digits that a decimal literal starts with: a point or none, and the end of
the literal. -/
theorem Decimal.exists_greedy {t : Text} (whole : Run decimalDigits)
    (h : StartsOutside (runOf decimalDigits) t) :
    ∃ (d : Decimal) (rest : Text), d.whole = whole ∧ t = d.point ++ (d.ending.text ++ rest) ∧
      d.Greedy rest := by
  rcases startsOutside_or ['.'] t with hpoint | ⟨c, hc, u, rfl⟩
  · obtain ⟨e, rest, rfl, hending⟩ := Ending.exists_greedy t
    exact ⟨⟨whole, none, e⟩, rest, rfl, rfl, h, fun _ => hpoint, fun hne => absurd rfl hne, hending⟩
  · obtain rfl := List.mem_singleton.mp hc
    obtain ⟨digits, v, rfl, hdigits⟩ := Run.exists_greedy decimalDigits u
    obtain ⟨e, rest, rfl, hending⟩ := Ending.exists_greedy v
    exact ⟨⟨whole, some digits, e⟩, rest, rfl, rfl, h, nofun, fun _ => hdigits, hending⟩

/-- **Every text that starts like a number starts with a greedy literal.** -/
theorem Literal.exists_greedy {t : Text} (h : Starts t) :
    ∃ (l : Literal) (rest : Text), t = l.text ++ rest ∧ l.Greedy rest := by
  by_cases hmarked : Marked t
  · obtain ⟨⟨mark, digits⟩, hmem, u, rfl⟩ := hmarked
    obtain ⟨run, rest, rfl, hrun⟩ := Run.exists_greedy digits u
    exact ⟨marked mark digits hmem run, rest, rfl, hrun⟩
  obtain ⟨c, hc, ⟨u, rfl⟩ | ⟨u, rfl⟩⟩ := h
  · obtain ⟨whole, v, hsplit, hfirst, hwhole⟩ := Run.exists_greedy_cons hc u
    obtain ⟨d, rest, rfl, rfl, hgreedy⟩ := Decimal.exists_greedy whole hwhole
    have hstarts : Starts d.text := ⟨c, hc, .inl (hfirst.trans (List.prefix_append _ _))⟩
    have htext : [c] ++ u = d.text ++ rest := by simpa [Decimal.text] using hsplit
    exact ⟨decimal d hstarts, rest, htext, hgreedy, htext ▸ hmarked⟩
  · obtain ⟨fraction, v, hsplit, hfirst, hdigits⟩ := Run.exists_greedy_cons hc u
    obtain ⟨e, rest, rfl, hending⟩ := Ending.exists_greedy v
    let d : Decimal := ⟨⟨[], List.nil_subset _⟩, some fraction, e⟩
    have htext : ['.', c] ++ u = d.text ++ rest := by
      simpa [d, Decimal.text, Decimal.point] using hsplit
    have hstarts : Starts d.text :=
      ⟨c, hc, .inr (List.cons_prefix_cons.mpr ⟨rfl, hfirst.trans (List.prefix_append _ _)⟩)⟩
    have hwhole : StartsOutside (runOf decimalDigits) (d.point ++ (d.ending.text ++ rest)) :=
      startsOutside_cons (by decide) _
    exact ⟨decimal d hstarts, rest, htext, ⟨hwhole, nofun, fun _ => hdigits, hending⟩,
      htext ▸ hmarked⟩

/-! A greedy part has in it every part of its kind that the text starts with. -/

namespace Ending

variable {e e' : Ending} {rest : Text}

/-- There is an imaginary mark in the text of an ending, or nothing in place of it. -/
theorem imag_eq (e : Ending) :
    (e.imaginary = false ∧ e.imag = []) ∨ (e.imaginary = true ∧ e.imag = ['i']) := by
  unfold imag
  cases e.imaginary with
  | false => exact .inl ⟨rfl, rfl⟩
  | true => exact .inr ⟨rfl, rfl⟩

/-- The text of an imaginary mark starts outside of what the mark is not in. -/
theorem startsOutside_imag {cs : Text} (h : 'i' ∉ cs) (e : Ending) : StartsOutside cs e.imag := by
  rcases e.imag_eq with ⟨-, heq⟩ | ⟨-, heq⟩
  · rw [heq]
    exact startsOutside_nil cs
  · rw [heq]
    exact startsOutside_cons h []

/-- An ending has a first character of its own, if any. -/
theorem startsOutside {cs : Text} (h : Apart ('i' :: exponentLetters) cs) (e : Ending) :
    StartsOutside cs e.text := by
  unfold text power
  cases e.exponent with
  | none => exact e.startsOutside_imag (h 'i' List.mem_cons_self)
  | some x => exact startsOutside_cons (h _ (List.mem_cons_of_mem _ x.letter_mem)) _

/-- An imaginary mark that stands behind a greedy ending and may be part of it is part of it. -/
private theorem Greedy.prefix_imag (h : e.Greedy rest)
    (hdigit : e'.imaginary = true → ∀ x ∈ e.exponent, x.digits.HasDigit)
    (hp : e'.imag <+: e.imag ++ rest) : e'.imag <+: e.imag := by
  rcases e'.imag_eq with ⟨-, heq'⟩ | ⟨himaginary, heq'⟩
  · rw [heq']
    exact List.nil_prefix
  · rw [heq'] at hp ⊢
    rcases e.imag_eq with ⟨hnot, heq⟩ | ⟨-, heq⟩
    · rw [heq, List.nil_append] at hp
      have hout := h.mark hnot (hdigit himaginary)
      exact absurd hp (hout.not_prefix_cons List.mem_cons_self [])
    · rw [heq]

/-- The digits of an exponent and the mark behind them stay within those of a greedy ending. -/
private theorem Greedy.prefix_digits {x x' : Exponent} (h : e.Greedy rest)
    (hx : e.exponent = some x) (hx' : e'.exponent = some x')
    (hp : x'.digits.text ++ e'.imag <+: x.digits.text ++ (e.imag ++ rest)) :
    x'.digits.text ++ e'.imag <+: x.digits.text ++ e.imag := by
  have hout' : StartsOutside (runOf decimalDigits) e'.imag := e'.startsOutside_imag (by decide)
  rcases Run.prefix_cases hp (h.digits x hx) hout' with hwithin | ⟨heq, hafter⟩
  · exact hwithin.trans (List.prefix_append _ _)
  · rw [heq, List.prefix_append_right_inj]
    refine h.prefix_imag ?_ hafter
    rintro himaginary y hy
    obtain rfl := Option.some.inj (hx.symm.trans hy)
    have hdigit := e'.hasDigit himaginary x' hx'
    rwa [Run.HasDigit, heq] at hdigit

/-- The same with the signs, which are taken first. -/
private theorem Greedy.prefix_sign {x x' : Exponent} (h : e.Greedy rest)
    (hx : e.exponent = some x) (hx' : e'.exponent = some x')
    (hp : x'.sign.toList ++ (x'.digits.text ++ e'.imag) <+:
      x.sign.toList ++ (x.digits.text ++ (e.imag ++ rest))) :
    x'.sign.toList ++ (x'.digits.text ++ e'.imag) <+: x.sign.toList ++ (x.digits.text ++ e.imag) := by
  cases hsign' : x'.sign with
  | none =>
    rw [hsign'] at hp
    cases hsign : x.sign with
    | none =>
      rw [hsign] at hp
      exact h.prefix_digits hx hx' hp
    | some s =>
      rw [hsign] at hp
      -- it does not start with a sign, so it is empty
      have hout : StartsOutside signs (x'.digits.text ++ e'.imag) :=
        (e'.startsOutside_imag (by decide)).append (x'.digits.apart (by decide))
      have hnil : x'.digits.text ++ e'.imag = [] := hout.eq_nil (Exponent.mem_signs hsign) hp
      rw [hnil]
      exact List.nil_prefix
  | some s' =>
    rw [hsign'] at hp
    cases hsign : x.sign with
    | none =>
      rw [hsign] at hp
      -- a greedy exponent leaves no sign behind
      exact absurd hp ((h.sign x hx hsign).not_prefix_cons (Exponent.mem_signs hsign') _)
    | some s =>
      rw [hsign] at hp
      obtain ⟨rfl, hdigits⟩ := List.cons_prefix_cons.mp hp
      exact List.cons_prefix_cons.mpr ⟨rfl, h.prefix_digits hx hx' hdigits⟩

/-- **A greedy ending has in it every ending that the text starts with.** -/
theorem Greedy.longest (h : e.Greedy rest) (hp : e'.text <+: e.text ++ rest) :
    e'.text <+: e.text := by
  unfold text at hp ⊢
  rw [List.append_assoc] at hp
  unfold power at hp ⊢
  cases hx' : e'.exponent with
  | none =>
    rw [hx'] at hp
    cases hx : e.exponent with
    | none =>
      rw [hx] at hp
      refine h.prefix_imag ?_ hp
      rintro - y hy
      exact nomatch hx.symm.trans hy
    | some x =>
      rw [hx] at hp
      have hout : StartsOutside exponentLetters e'.imag := e'.startsOutside_imag (by decide)
      have hnil : e'.imag = [] := hout.eq_nil x.letter_mem hp
      rw [hnil]
      exact List.nil_prefix
  | some x' =>
    rw [hx'] at hp
    cases hx : e.exponent with
    | none =>
      rw [hx] at hp
      -- a greedy ending leaves no exponent letter behind
      exact absurd hp ((h.letter hx).not_prefix_cons x'.letter_mem _)
    | some x =>
      rw [hx] at hp
      simp only [Option.elim_some, Exponent.text, List.cons_append, List.append_assoc] at hp ⊢
      obtain ⟨hletter, htail⟩ := List.cons_prefix_cons.mp hp
      exact List.cons_prefix_cons.mpr ⟨hletter, h.prefix_sign hx hx' htail⟩

end Ending

namespace Decimal

variable {d d' : Decimal} {rest : Text}

/-- What stands behind the first digits of a literal has a first character of its own, if any. -/
theorem startsOutside {cs : Text} (h : Apart ('.' :: 'i' :: exponentLetters) cs) (d : Decimal) :
    StartsOutside cs (d.point ++ d.ending.text) := by
  unfold point
  cases d.fraction with
  | none => exact d.ending.startsOutside fun c hc => h c (List.mem_cons_of_mem _ hc)
  | some digits => exact startsOutside_cons (h '.' List.mem_cons_self) _

/-- A literal that starts with a point has no digits before its fraction. -/
theorem exists_fraction {u : Text} (h : d.text = '.' :: u) :
    ∃ digits, d.fraction = some digits ∧ u = digits.text ++ d.ending.text := by
  unfold text at h
  have hwhole : d.whole.text = [] := by
    cases hw : d.whole.text with
    | nil => rfl
    | cons c w =>
      rw [hw] at h
      obtain ⟨rfl, -⟩ := List.cons.inj h
      exact absurd (d.whole.subset (hw ▸ List.mem_cons_self)) (by decide)
  rw [hwhole, List.nil_append, point] at h
  cases hdigits : d.fraction with
  | none =>
    rw [hdigits] at h
    have hout : StartsOutside ['.'] d.ending.text := d.ending.startsOutside (by decide)
    exact absurd (congrArg List.head? h) (hout '.' List.mem_cons_self)
  | some digits =>
    rw [hdigits] at h
    exact ⟨digits, rfl, (List.cons.inj h).2.symm⟩

/-- Behind the first digits, a greedy literal has in it everything that the text goes on with. -/
private theorem Greedy.prefix_point (h : d.Greedy rest)
    (hp : d'.point ++ d'.ending.text <+: d.point ++ (d.ending.text ++ rest)) :
    d'.point ++ d'.ending.text <+: d.point ++ d.ending.text := by
  unfold Decimal.point at hp ⊢
  cases hdigits' : d'.fraction with
  | none =>
    rw [hdigits'] at hp
    cases hdigits : d.fraction with
    | none =>
      rw [hdigits] at hp
      exact h.ending.longest hp
    | some digits =>
      rw [hdigits] at hp
      have hout : StartsOutside ['.'] d'.ending.text := d'.ending.startsOutside (by decide)
      have hnil : d'.ending.text = [] := hout.eq_nil List.mem_cons_self hp
      rw [hnil]
      exact List.nil_prefix
  | some digits' =>
    rw [hdigits'] at hp
    cases hdigits : d.fraction with
    | none =>
      rw [hdigits] at hp
      -- a greedy literal leaves no point behind
      exact absurd hp ((h.point hdigits).not_prefix_cons List.mem_cons_self _)
    | some digits =>
      rw [hdigits] at hp
      simp only [Option.elim_some, List.cons_append] at hp ⊢
      obtain ⟨-, htail⟩ := List.cons_prefix_cons.mp hp
      refine List.cons_prefix_cons.mpr ⟨rfl, ?_⟩
      have hrest := h.fraction (by rw [hdigits]; exact nofun)
      have hout : StartsOutside (runOf decimalDigits) d'.ending.text :=
        d'.ending.startsOutside (by decide)
      -- the other literal ends within these digits, or it has all of them
      rcases Run.prefix_cases htail hrest hout with hwithin | ⟨heq, hafter⟩
      · exact hwithin.trans (List.prefix_append _ _)
      · rw [heq, List.prefix_append_right_inj]
        exact h.ending.longest hafter

/-- **A greedy decimal literal has in it every one that the text starts with.** -/
theorem Greedy.longest (h : d.Greedy rest) (hp : d'.text <+: d.text ++ rest) :
    d'.text <+: d.text := by
  unfold text at hp ⊢
  rw [List.append_assoc, List.append_assoc] at hp
  have hout : StartsOutside (runOf decimalDigits) (d'.point ++ d'.ending.text) :=
    d'.startsOutside (by decide)
  rcases Run.prefix_cases hp h.whole hout with hwithin | ⟨heq, hafter⟩
  · exact hwithin.trans (List.prefix_append _ _)
  · rw [heq, List.prefix_append_right_inj]
    exact h.prefix_point hafter

end Decimal

/-- No radix mark is part of a decimal literal, so one in front of a mark is at most the zero. -/
private theorem Decimal.text_prefix_zero {d : Decimal} {mark : Char} {digits : Text}
    (hmark : (mark, digits) ∈ marks) {t : Text} (h : d.text <+: '0' :: mark :: t) :
    d.text <+: ['0'] := by
  have hnot : mark ∉ runOf decimalDigits := by
    have hall : ∀ row ∈ marks, row.1 ∉ runOf decimalDigits := by decide
    exact hall _ hmark
  let zero : Run decimalDigits := ⟨['0'], by decide⟩
  have hp : d.whole.text ++ (d.point ++ d.ending.text) <+: zero.text ++ mark :: t := h
  have hrest := startsOutside_cons hnot t
  rcases Run.prefix_cases hp hrest (d.startsOutside (by decide)) with hwithin | ⟨heq, hafter⟩
  · exact hwithin
  · have hmem : mark ∈ marks.map Prod.fst := List.mem_map_of_mem hmark
    have hout : StartsOutside (marks.map Prod.fst) (d.point ++ d.ending.text) :=
      d.startsOutside (by decide)
    rw [text, heq, hout.eq_nil hmem hafter]
    exact List.prefix_rfl

/-- A character marks one radix. -/
private theorem digits_eq {mark : Char} {digits digits' : Text} (h : (mark, digits) ∈ marks)
    (h' : (mark, digits') ∈ marks) : digits' = digits := by
  have hall : ∀ row ∈ marks, ∀ row' ∈ marks, row'.1 = row.1 → row'.2 = row.2 := by decide
  exact hall _ h _ h' rfl

/-- **A greedy literal is the longest.** Every literal that the text starts with is a beginning of
the greedy one. -/
theorem Literal.Greedy.longest {l l' : Literal} {rest : Text} (h : l.Greedy rest)
    (hp : l'.text <+: l.text ++ rest) : l'.text <+: l.text := by
  cases l with
  | marked mark digits hmem run =>
    cases l' with
    | marked mark' digits' hmem' run' =>
      obtain ⟨-, hbehind⟩ := List.cons_prefix_cons.mp hp
      obtain ⟨rfl, hrun⟩ := List.cons_prefix_cons.mp hbehind
      obtain rfl := digits_eq hmem hmem'
      refine List.cons_prefix_cons.mpr ⟨rfl, List.cons_prefix_cons.mpr ⟨rfl, ?_⟩⟩
      rw [← List.append_nil run'.text] at hrun ⊢
      rcases Run.prefix_cases hrun h (startsOutside_nil _) with hwithin | ⟨heq, -⟩
      · exact hwithin
      · rw [heq, List.append_nil]
    | decimal d' starts' =>
      exact (Decimal.text_prefix_zero hmem hp).trans ⟨mark :: run.text, rfl⟩
  | decimal d starts =>
    cases l' with
    | marked mark' digits' hmem' run' =>
      have hfirst : ['0', mark'] <+: '0' :: mark' :: run'.text := ⟨run'.text, rfl⟩
      exact absurd ⟨_, hmem', hfirst.trans hp⟩ h.2
    | decimal d' starts' => exact h.1.longest hp

end Number

end Frontend
