import Frontend.Token.Basic

/-!
# Scans

A scan is the result of reading one token off the beginning of a text: the class of the token,
its text, and what is left. `Scan.Of t` says that nothing of `t` is lost or made up.
-/

namespace Frontend

/-- A token read off the beginning of a text. -/
structure Scan where
  cls : TokenClass
  text : Text
  rest : Text
  deriving DecidableEq, Repr

namespace Scan

/-- The scan with more text in front. -/
def prepend (front : Text) (s : Scan) : Scan :=
  { s with text := front ++ s.text }

/-- The text of the token and what is left make up the text that was scanned. -/
def Of (t : Text) (s : Scan) : Prop :=
  s.text ++ s.rest = t

/-- A text in front of a scan is in front of what was scanned. -/
theorem Of.prepend {t : Text} {s : Scan} (h : s.Of t) (front : Text) :
    (s.prepend front).Of (front ++ t) := by
  simp only [Of, Scan.prepend, List.append_assoc] at h ⊢
  rw [h]

/-- A scan of what is left of a text, with the part taken off put in front. -/
theorem Of.prepend_taken {t front rest : Text} {s : Scan} (h : s.Of rest) (ht : front ++ rest = t) :
    (s.prepend front).Of t :=
  ht ▸ h.prepend front

end Scan

/-- The beginning of a text that was taken off, and what is left. -/
structure Taken where
  text : Text
  rest : Text
  deriving DecidableEq, Repr

namespace Taken

/-- Takes the longest beginning whose characters are all of a class. -/
def run (p : Char → Bool) (t : Text) : Taken :=
  ⟨t.takeWhile p, t.dropWhile p⟩

/-- Takes the first character if it is of a class. -/
def one (p : Char → Bool) (t : Text) : Taken :=
  match t with
  | [] => ⟨[], []⟩
  | c :: rest => if p c then ⟨[c], rest⟩ else ⟨[], c :: rest⟩

/-- Taking a run loses nothing of the text. -/
@[simp] theorem text_append_rest_run (p : Char → Bool) (t : Text) :
    (run p t).text ++ (run p t).rest = t :=
  List.takeWhile_append_dropWhile

/-- Taking a character loses nothing of the text. -/
@[simp] theorem text_append_rest_one (p : Char → Bool) (t : Text) :
    (one p t).text ++ (one p t).rest = t := by
  unfold one
  split
  · rfl
  · split <;> rfl

end Taken

end Frontend
