import Frontend.Text.EditDistance

/-!
# The least number of edits

An edit inserts, deletes or replaces one character. One edit changes the distance from a text by one
at most, so no sequence of edits is shorter than the distance. The table of distances is filled
along edits, so there is a sequence of that length.
-/

namespace Frontend

namespace Text

/-- One character is inserted, deleted or replaced. -/
inductive Edit : Text → Text → Prop
  | insert (front : Text) (c : Char) (back : Text) : Edit (front ++ back) (front ++ c :: back)
  | delete (front : Text) (c : Char) (back : Text) : Edit (front ++ c :: back) (front ++ back)
  | replace (front : Text) (c d : Char) (back : Text) :
      Edit (front ++ c :: back) (front ++ d :: back)

/-- So many edits, one after the other, turn the first text into the second. -/
inductive Edits : Nat → Text → Text → Prop
  | none (a : Text) : Edits 0 a a
  | more {n : Nat} {a b c : Text} (first : Edit a b) (others : Edits n b c) : Edits (n + 1) a c

/-- The least number of edits that turn the first text into the second. -/
structure LeastEdits (n : Nat) (a b : Text) : Prop where
  edits : Edits n a b
  least : ∀ m, Edits m a b → n ≤ m

variable {n m : Nat} {a b c : Text}

/-- A character in front of both texts leaves them one edit apart. -/
theorem Edit.cons (h : Edit a b) (x : Char) : Edit (x :: a) (x :: b) := by
  cases h with
  | insert front c back => exact .insert (x :: front) c back
  | delete front c back => exact .delete (x :: front) c back
  | replace front c d back => exact .replace (x :: front) c d back

/-- A character in front of both texts leaves them as many edits apart. -/
theorem Edits.cons (h : Edits n a b) (x : Char) : Edits n (x :: a) (x :: b) := by
  induction h with
  | none a => exact .none (x :: a)
  | more first others ih => exact .more (first.cons x) ih

/-- Edits from one text to another, and from there to a third, add up. -/
theorem Edits.trans (h : Edits n a b) (h' : Edits m b c) : Edits (n + m) a c := by
  induction h with
  | none a => rwa [Nat.zero_add]
  | @more n a _ _ first others ih =>
    rw [Nat.add_right_comm]
    exact .more first (ih h')

/-- One edit behind others. -/
theorem Edits.concat (h : Edits n a b) (last : Edit b c) : Edits (n + 1) a c :=
  h.trans (.more last (.none c))

/-- Without an edit a text stays what it is. -/
theorem Edits.eq_of_zero (h : Edits 0 a b) : a = b := by
  cases h
  rfl

/-- There is only one least number. -/
theorem LeastEdits.unique (h : LeastEdits n a b) (h' : LeastEdits m a b) : n = m :=
  Nat.le_antisymm (h.least m h'.edits) (h'.least n h.edits)

/-- Texts that differ are an edit apart at least. -/
theorem LeastEdits.pos (h : LeastEdits n a b) (hne : a ≠ b) : 1 ≤ n := by
  rcases Nat.eq_zero_or_pos n with rfl | hpos
  · exact absurd h.edits.eq_of_zero hne
  · exact hpos

end Text

namespace EditDistance

/-- The row of the empty text starts with the distance to all of the other text: its length. -/
theorem headD_emptyRow (b : Text) : (emptyRow b).headD 0 = b.length := by
  cases b <;> rfl

/-- The row of a shorter text is the end of the row of a longer one. -/
theorem tail_row (a : Text) (y : Char) (b : Text) : (row a (y :: b)).tail = row a b := by
  induction a with
  | nil => rfl
  | cons x a ih =>
    have hrow (t : Text) : row (x :: a) t = nextRow x t (row a t) := rfl
    rw [hrow, hrow, nextRow, List.tail_cons, ih]

end EditDistance

open Text EditDistance

/-! ## What the table holds -/

/-- All that makes a text of the empty one is to insert its characters. -/
@[simp] theorem editDistance_nil_left (b : Text) : editDistance [] b = b.length :=
  headD_emptyRow b

/-- All that makes the empty text of another one is to delete its characters. -/
@[simp] theorem editDistance_nil_right (a : Text) : editDistance a [] = a.length := by
  induction a with
  | nil => rfl
  | cons x a ih =>
    have hcons : editDistance (x :: a) [] = editDistance a [] + 1 := rfl
    rw [hcons, ih, List.length_cons]

/-- How the table is filled: the first characters are matched or replaced, or the one on the left is
deleted, or the one on the right is inserted, whatever is the least. -/
theorem editDistance_cons_cons (x y : Char) (a b : Text) :
    editDistance (x :: a) (y :: b) =
      min (editDistance a b + if x = y then 0 else 1)
        (min (editDistance a (y :: b) + 1) (editDistance (x :: a) b + 1)) := by
  have hrow (t : Text) : row (x :: a) t = nextRow x t (row a t) := rfl
  simp only [editDistance, hrow, nextRow, List.headD_cons, tail_row]

/-! ## One edit, and no shorter way -/

/-- A character in front of the left text costs one edit at most: it can be deleted. -/
theorem editDistance_cons_left_le (x : Char) (a b : Text) :
    editDistance (x :: a) b ≤ editDistance a b + 1 := by
  cases b with
  | nil => simp
  | cons y b =>
    rw [editDistance_cons_cons]
    omega

/-- A character in front of the right text costs one edit at most: it can be inserted. -/
theorem editDistance_cons_right_le (a : Text) (y : Char) (b : Text) :
    editDistance a (y :: b) ≤ editDistance a b + 1 := by
  cases a with
  | nil => simp
  | cons x a =>
    rw [editDistance_cons_cons]
    omega

/-- Characters in front of both texts cost one edit at most: one can replace the other. -/
theorem editDistance_cons_cons_le (x y : Char) (a b : Text) :
    editDistance (x :: a) (y :: b) ≤ editDistance a b + 1 := by
  rw [editDistance_cons_cons]
  split <;> omega

/-- Without its first character, a text is at most one edit further away. -/
theorem editDistance_le_cons (x : Char) (a c : Text) :
    editDistance a c ≤ editDistance (x :: a) c + 1 := by
  induction c with
  | nil =>
    simp only [editDistance_nil_right, List.length_cons]
    omega
  | cons y c ih =>
    have hright := editDistance_cons_right_le a y c
    rw [editDistance_cons_cons]
    omega

/-- With another first character, a text is at most one edit further away. -/
theorem editDistance_cons_le_cons (x y : Char) (a c : Text) :
    editDistance (x :: a) c ≤ editDistance (y :: a) c + 1 := by
  induction c with
  | nil => simp
  | cons z c ih =>
    have hboth := editDistance_cons_cons_le x z a c
    have hleft := editDistance_cons_left_le x a (z :: c)
    have hright := editDistance_cons_right_le (x :: a) z c
    rw [editDistance_cons_cons y z]
    omega

/-- Texts that are near each other stay so behind a character. -/
theorem editDistance_cons_le {a b : Text}
    (h : ∀ c, editDistance a c ≤ editDistance b c + 1) (x : Char) (c : Text) :
    editDistance (x :: a) c ≤ editDistance (x :: b) c + 1 := by
  induction c with
  | nil =>
    have hnil := h []
    simp only [editDistance_nil_right, List.length_cons] at hnil ⊢
    omega
  | cons y c ih =>
    have hboth := h c
    have hleft := h (y :: c)
    rw [editDistance_cons_cons x y a, editDistance_cons_cons x y b]
    omega

/-- One edit changes the distance by one at most. -/
theorem editDistance_le_of_edit {a b : Text} (h : Edit a b) (c : Text) :
    editDistance a c ≤ editDistance b c + 1 := by
  cases h with
  | insert front x back =>
    induction front generalizing c with
    | nil => exact editDistance_le_cons x back c
    | cons y front ih => exact editDistance_cons_le ih y c
  | delete front x back =>
    induction front generalizing c with
    | nil => exact editDistance_cons_left_le x back c
    | cons y front ih => exact editDistance_cons_le ih y c
  | replace front x z back =>
    induction front generalizing c with
    | nil => exact editDistance_cons_le_cons x z back c
    | cons y front ih => exact editDistance_cons_le ih y c

/-- No edit is between a text and itself. -/
@[simp] theorem editDistance_self (a : Text) : editDistance a a = 0 := by
  induction a with
  | nil => rfl
  | cons x a ih => simp [editDistance_cons_cons, ih]

/-- No sequence of edits is shorter than the distance. -/
theorem editDistance_le_of_edits {n : Nat} {a b : Text} (h : Edits n a b) :
    editDistance a b ≤ n := by
  induction h with
  | none a => exact Nat.le_of_eq (editDistance_self a)
  | @more n a b c first others ih =>
    have hstep := editDistance_le_of_edit first c
    omega

/-! ## A way of that length -/

/-- Of two sequences of edits between the same texts, one can take the shorter. -/
theorem Text.Edits.min {n m : Nat} {a b : Text} (h : Edits n a b) (h' : Edits m a b) :
    Edits (min n m) a b := by
  rcases Nat.le_total n m with hle | hle
  · rwa [Nat.min_eq_left hle]
  · rwa [Nat.min_eq_right hle]

/-- A text is made of the empty one by inserting its characters. -/
theorem edits_nil (b : Text) : Edits b.length [] b := by
  induction b with
  | nil => exact .none []
  | cons y b ih => exact ih.concat (.insert [] y b)

/-- The table is filled along edits. -/
theorem edits_editDistance (a b : Text) : Edits (editDistance a b) a b := by
  induction a generalizing b with
  | nil =>
    rw [editDistance_nil_left]
    exact edits_nil b
  | cons x a iha =>
    induction b with
    | nil =>
      have hdelete : Edits (editDistance a [] + 1) (x :: a) [] := .more (.delete [] x a) (iha [])
      rwa [editDistance_nil_right] at hdelete ⊢
    | cons y b ihb =>
      -- each of the three ways is a sequence of edits, so the least of them is one too
      have hboth : Edits (editDistance a b + if x = y then 0 else 1) (x :: a) (y :: b) := by
        split
        · rename_i heq
          exact heq ▸ (iha b).cons x
        · exact .more (.replace [] x y a) ((iha b).cons y)
      have hdelete : Edits (editDistance a (y :: b) + 1) (x :: a) (y :: b) :=
        .more (.delete [] x a) (iha (y :: b))
      have hinsert : Edits (editDistance (x :: a) b + 1) (x :: a) (y :: b) :=
        ihb.concat (.insert [] y b)
      rw [editDistance_cons_cons]
      exact hboth.min (hdelete.min hinsert)

/-- **The distance is the least number of edits.** -/
theorem leastEdits_iff {n : Nat} {a b : Text} : LeastEdits n a b ↔ n = editDistance a b := by
  have hleast : LeastEdits (editDistance a b) a b :=
    ⟨edits_editDistance a b, fun _ h => editDistance_le_of_edits h⟩
  constructor
  · exact fun h => h.unique hleast
  · rintro rfl
    exact hleast

end Frontend
