import Frontend.Token.Scan

/-!
# Numeric literals

A numeric literal is an integer with a radix mark, or a decimal literal with an optional fraction,
exponent and imaginary mark. Underscores may stand between, before and after digits everywhere,
but where digits are required one of them has to be a digit.
-/

namespace Frontend.Number

/-- The value of a digit of a radix up to sixteen. -/
def digitValue? (c : Char) : Option Nat :=
  if '0' ≤ c ∧ c ≤ '9' then some (c.toNat - '0'.toNat)
  else if 'a' ≤ c ∧ c ≤ 'f' then some (c.toNat - 'a'.toNat + 10)
  else if 'A' ≤ c ∧ c ≤ 'F' then some (c.toNat - 'A'.toNat + 10)
  else none

/-- Whether a character is a digit of a radix. -/
def isDigitIn (radix : Nat) (c : Char) : Bool :=
  match digitValue? c with
  | none => false
  | some value => value < radix

/-- A digit of a radix or an underscore. -/
def isDigitOrMark (radix : Nat) (c : Char) : Bool :=
  isDigitIn radix c || c = '_'

/-- The longest beginning of digits of a radix and underscores. -/
def digits (radix : Nat) (t : Text) : Taken :=
  Taken.run (isDigitOrMark radix) t

/-- Whether a run of digits and underscores holds a digit. -/
def hasDigit (radix : Nat) (run : Text) : Bool :=
  run.any (isDigitIn radix)

/-- The radix that a character after a leading zero stands for. -/
def radixOfMark? (c : Char) : Option Nat :=
  if c = 'b' ∨ c = 'B' then some 2
  else if c = 'o' ∨ c = 'O' then some 8
  else if c = 'x' ∨ c = 'X' then some 16
  else none

/-- What follows a radix mark: digits of the radix, of which there has to be one. -/
def afterMark (radix : Nat) (t : Text) : Scan :=
  let run := digits radix t
  ⟨if hasDigit radix run.text then .numeric .int else .illegal .malformedNumber,
    run.text, run.rest⟩

/-- The end of a literal that is complete: an imaginary mark or nothing. -/
def suffix (form : NumericForm) (t : Text) : Scan :=
  let mark := Taken.one (· = 'i') t
  ⟨.numeric (if mark.text.isEmpty then form else .imaginary), mark.text, mark.rest⟩

/-- The sign of an exponent. -/
def isSign (c : Char) : Bool :=
  c = '+' || c = '-'

/-- The letter before an exponent. -/
def isExponentLetter (c : Char) : Bool :=
  c = 'e' || c = 'E'

/-- The digits of an exponent and the end of the literal. There has to be a digit. -/
def exponentDigits (t : Text) : Scan :=
  let run := digits 10 t
  if hasDigit 10 run.text then (suffix .float run.rest).prepend run.text
  else ⟨.illegal .malformedNumber, run.text, run.rest⟩

/-- What follows the exponent letter: a sign or nothing, and the digits. -/
def afterLetter (t : Text) : Scan :=
  let sign := Taken.one isSign t
  (exponentDigits sign.rest).prepend sign.text

/-- What follows the digits before an exponent. -/
def tail (form : NumericForm) (t : Text) : Scan :=
  let letter := Taken.one isExponentLetter t
  if letter.text.isEmpty then suffix form t
  else (afterLetter letter.rest).prepend letter.text

/-- What follows the decimal point: digits, then an exponent or the end of the literal. -/
def afterPoint (t : Text) : Scan :=
  let run := digits 10 t
  (tail .float run.rest).prepend run.text

/-- What follows the first digits of a decimal literal: a point or none. -/
def afterWhole (t : Text) : Scan :=
  let point := Taken.one (· = '.') t
  if point.text.isEmpty then tail .int t
  else (afterPoint point.rest).prepend point.text

/-- A decimal literal from its first digits on. -/
def decimal (t : Text) : Scan :=
  let run := digits 10 t
  (afterWhole run.rest).prepend run.text

/-- Whether a character goes on with a decimal literal after octal digits. -/
def continuesDecimal (c : Char) : Bool :=
  isDigitIn 10 c || c = '_' || c = '.' || c = 'e' || c = 'E' || c = 'i'

/-- What follows a leading zero without a radix mark. Octal digits alone are an integer; anything
else that goes on with them makes a decimal literal. -/
def afterZero (t : Text) : Scan :=
  let run := Taken.run (isDigitIn 8) t
  if run.rest.head?.any continuesDecimal then (decimal run.rest).prepend run.text
  else ⟨.numeric .int, run.text, run.rest⟩

/-- A numeric literal that starts with a digit. -/
def literal (t : Text) : Scan :=
  match t with
  | '0' :: c :: rest =>
    match radixOfMark? c with
    | some radix => (afterMark radix rest).prepend ['0', c]
    | none => (afterZero (c :: rest)).prepend ['0']
  | ['0'] => (afterZero []).prepend ['0']
  | _ => decimal t

/-- The radix that the digits of a literal are written in. -/
def radix (form : NumericForm) (text : Text) : Nat :=
  match text with
  | '0' :: rest =>
    match rest.head?.bind radixOfMark? with
    | some radix => radix
    | none =>
      if form = .int ∧ hasDigit 10 rest ∧ rest.all (isDigitOrMark 8) then 8 else 10
  | _ => 10

/-- Scanning the end of a literal loses nothing of the text. -/
private theorem suffix_of (form : NumericForm) (t : Text) : (suffix form t).Of t := by
  simp [Scan.Of, suffix]

/-- Scanning the digits behind a radix mark loses nothing of the text. -/
private theorem afterMark_of (radix : Nat) (t : Text) : (afterMark radix t).Of t :=
  Taken.text_append_rest_run _ t

/-- Scanning the digits of an exponent loses nothing of the text. -/
private theorem exponentDigits_of (t : Text) : (exponentDigits t).Of t := by
  unfold exponentDigits
  dsimp only
  split
  · exact (suffix_of .float _).prepend_taken (Taken.text_append_rest_run _ t)
  · exact Taken.text_append_rest_run _ t

/-- Scanning what follows an exponent letter loses nothing of the text. -/
private theorem afterLetter_of (t : Text) : (afterLetter t).Of t :=
  (exponentDigits_of _).prepend_taken (Taken.text_append_rest_one _ t)

/-- Scanning what follows the digits before an exponent loses nothing of the text. -/
private theorem tail_of (form : NumericForm) (t : Text) : (tail form t).Of t := by
  unfold tail
  dsimp only
  split
  · exact suffix_of form t
  · exact (afterLetter_of _).prepend_taken (Taken.text_append_rest_one _ t)

/-- Scanning what follows the decimal point loses nothing of the text. -/
private theorem afterPoint_of (t : Text) : (afterPoint t).Of t :=
  (tail_of .float _).prepend_taken (Taken.text_append_rest_run _ t)

/-- Scanning what follows the first digits loses nothing of the text. -/
private theorem afterWhole_of (t : Text) : (afterWhole t).Of t := by
  unfold afterWhole
  dsimp only
  split
  · exact tail_of .int t
  · exact (afterPoint_of _).prepend_taken (Taken.text_append_rest_one _ t)

/-- Scanning a decimal literal loses nothing of the text. -/
private theorem decimal_of (t : Text) : (decimal t).Of t :=
  (afterWhole_of _).prepend_taken (Taken.text_append_rest_run _ t)

/-- Scanning what follows a leading zero loses nothing of the text. -/
private theorem afterZero_of (t : Text) : (afterZero t).Of t := by
  unfold afterZero
  dsimp only
  split
  · exact (decimal_of _).prepend_taken (Taken.text_append_rest_run _ t)
  · exact Taken.text_append_rest_run _ t

/-- Scanning a numeric literal loses nothing of the text. -/
theorem literal_of (t : Text) : (literal t).Of t := by
  unfold literal
  split
  · split
    · exact (afterMark_of _ _).prepend _
    · exact (afterZero_of _).prepend _
  · exact (afterZero_of _).prepend _
  · exact decimal_of t

/-- Scanning a literal that starts with a point loses nothing of the text after it. -/
theorem fraction_of (t : Text) : (afterPoint t).Of t :=
  afterPoint_of t

/-- The ASCII digits are digits of the radix ten. -/
theorem isDigitOrMark_of_isDigit {c : Char} (h : c.isDigit = true) : isDigitOrMark 10 c = true := by
  have hrange : '0' ≤ c ∧ c ≤ '9' := by
    simp only [Char.isDigit, Bool.and_eq_true, decide_eq_true_eq] at h
    exact h
  have hvalue : c.toNat ≤ '9'.toNat := UInt32.le_iff_toNat_le.mp hrange.2
  simp only [isDigitOrMark, isDigitIn, digitValue?, if_pos hrange, Bool.or_eq_true,
    decide_eq_true_eq]
  left
  simp only [show '9'.toNat = 57 from rfl] at hvalue
  simp only [show '0'.toNat = 48 from rfl]
  omega

/-- A literal has at least the digit it starts with. -/
theorem literal_text_ne_nil {c : Char} (h : c.isDigit) (t : Text) :
    (literal (c :: t)).text ≠ [] := by
  have hdigit := isDigitOrMark_of_isDigit h
  unfold literal
  split
  · split <;> simp [Scan.prepend]
  · simp [Scan.prepend]
  · simp [decimal, digits, Taken.run, Scan.prepend, hdigit]

end Frontend.Number
