/-!
# Byte offsets in a text

A text is a list of characters. Places in it are counted in bytes of its UTF-8 form, so an offset
is the size of what stands before it. An offset inside a character or past the end names no
place: `splitAt?` finds nothing there.
-/

namespace Frontend

/-- A text, character by character. -/
abbrev Text := List Char

namespace Text

/-- Number of bytes of the UTF-8 form. -/
def size : Text → Nat
  | [] => 0
  | c :: t => c.utf8Size + size t

/-- The empty text takes no bytes. -/
@[simp] theorem size_nil : size [] = 0 := rfl

/-- A text takes the bytes of its first character and those of the rest. -/
@[simp] theorem size_cons (c : Char) (t : Text) : size (c :: t) = c.utf8Size + size t := rfl

/-- Two texts in a row take the bytes of both. -/
@[simp] theorem size_append (a b : Text) : size (a ++ b) = size a + size b := by
  induction a with
  | nil => simp
  | cons c a ih => simp [ih, Nat.add_assoc]

/-- The text before and after a byte offset, if a character starts or the text ends there. -/
def splitAt? : Nat → Text → Option (Text × Text)
  | 0, t => some ([], t)
  | _ + 1, [] => none
  | n + 1, c :: t =>
    if c.utf8Size ≤ n + 1 then
      (splitAt? (n + 1 - c.utf8Size) t).map fun parts => (c :: parts.1, parts.2)
    else none

/-- Whether a character starts or the text ends at the offset. -/
def isBoundary (n : Nat) (t : Text) : Bool :=
  (splitAt? n t).isSome

/-- The text between two offsets, and nothing if they bound no part of the text. -/
def slice (t : Text) (start stop : Nat) : Text :=
  match splitAt? start t with
  | none => []
  | some (_, rest) =>
    match splitAt? (stop - start) rest with
    | none => []
    | some (inside, _) => inside

/-- Both parts of a split make up the text, and the first has the size asked for. -/
theorem splitAt?_eq_some {n : Nat} {t a b : Text} (h : splitAt? n t = some (a, b)) :
    t = a ++ b ∧ size a = n := by
  fun_induction splitAt? n t generalizing a b with
  | case1 t =>
    obtain ⟨rfl, rfl⟩ : [] = a ∧ t = b := by simpa using h
    simp
  | case2 => simp at h
  | case3 n c t hle ih =>
    obtain ⟨parts, hparts, heq⟩ := Option.map_eq_some_iff.mp h
    obtain ⟨rfl, rfl⟩ : c :: parts.1 = a ∧ parts.2 = b := by simpa using heq
    obtain ⟨ht, hsize⟩ := ih hparts
    refine ⟨by rw [ht]; rfl, ?_⟩
    rw [size_cons, hsize]
    omega
  | case4 => simp at h

/-- A text splits at the size of each of its beginnings. -/
theorem splitAt?_append (a b : Text) : splitAt? (size a) (a ++ b) = some (a, b) := by
  induction a with
  | nil => simp [splitAt?]
  | cons c a ih =>
    have hpos := c.utf8Size_pos
    obtain ⟨n, hn⟩ : ∃ n, size (c :: a) = n + 1 :=
      ⟨size (c :: a) - 1, by simp only [size_cons]; omega⟩
    have hle : c.utf8Size ≤ n + 1 := by rw [← hn, size_cons]; omega
    have hrest : n + 1 - c.utf8Size = size a := by rw [← hn, size_cons]; omega
    rw [hn, List.cons_append, splitAt?, if_pos hle, hrest, ih]
    rfl

end Text

end Frontend
