import Frontend.Token.Scan

/-!
# Character and string literals

A character literal holds one character, or a backslash and one character. A string literal ends
at the first quote of its kind that no backslash escapes; one in double quotes ends with its line
at the latest. The functions here read what follows the opening quote.
-/

namespace Frontend.Quote

/-- The closing quote of a character literal after its payload. -/
def closeChar (payload : Text) (t : Text) : Scan :=
  match t with
  | '\x27' :: rest => ⟨.charLiteral, payload ++ ['\x27'], rest⟩
  | _ => ⟨.illegal (.unterminated .char), payload, t⟩

/-- A character literal after its opening quote. -/
def charBody (t : Text) : Scan :=
  match t with
  | '\\' :: c :: rest =>
    if c = '\n' then closeChar ['\\'] (c :: rest) else closeChar ['\\', c] rest
  | ['\\'] => closeChar ['\\'] []
  | '\x27' :: rest => ⟨.illegal (.unterminated .char), ['\x27'], rest⟩
  | c :: rest => if c = '\n' then closeChar [] (c :: rest) else closeChar [c] rest
  | [] => closeChar [] []

/-- The quote around a string literal. -/
def mark : StringForm → Char
  | .interpreted => '\x22'
  | .raw => '\x60'

/-- What a string literal is called when it is left open. -/
def unclosed : StringForm → Unclosed
  | .interpreted => .string
  | .raw => .rawString

/-- A string literal after its opening quote, or after any part of it; `escaped` says that a
backslash stands before. -/
def stringBody (form : StringForm) (escaped : Bool) : Text → Scan
  | [] => ⟨.illegal (.unterminated (unclosed form)), [], []⟩
  | c :: t =>
    if c = '\n' ∧ form = .interpreted then
      ⟨.illegal (.unterminated (unclosed form)), [], c :: t⟩
    else if c = mark form ∧ !escaped then ⟨.stringLiteral form, [c], t⟩
    else (stringBody form (c = '\\' && !escaped) t).prepend [c]

/-- Closing a payload loses nothing of it and of the text behind it. -/
private theorem closeChar_of (payload t : Text) : (closeChar payload t).Of (payload ++ t) := by
  unfold closeChar
  split <;> simp [Scan.Of]

/-- Scanning a character literal loses nothing of the text. -/
theorem charBody_of (t : Text) : (charBody t).Of t := by
  unfold charBody
  split
  · split
    · exact closeChar_of ['\\'] _
    · exact closeChar_of ['\\', _] _
  · exact closeChar_of ['\\'] []
  · rfl
  · split
    · exact closeChar_of [] _
    · exact closeChar_of [_] _
  · exact closeChar_of [] []

/-- Scanning a string literal loses nothing of the text. -/
theorem stringBody_of (form : StringForm) (escaped : Bool) (t : Text) :
    (stringBody form escaped t).Of t := by
  induction t generalizing escaped with
  | nil => rfl
  | cons c t ih =>
    unfold stringBody
    split
    · rfl
    · split
      · rfl
      · exact (ih _).prepend [c]

end Frontend.Quote
