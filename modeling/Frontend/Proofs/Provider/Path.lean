import Mathlib.Data.List.Infix
import Frontend.Provider.Path

/-!
# Paths that lead out of the root

A path is followed with the components behind it at hand, so that two points can take one of them
back. Only their number tells whether there is one left to take. A path leads out of the root when
some beginning of it takes back more components than it goes through, whatever comes after that.
-/

namespace Frontend.Path

/-- From a place so many components below the root, some beginning of a list of components takes
back more of them than there are. -/
def EscapesFrom (depth : Nat) (components : List Text) : Prop :=
  ∃ front, front <+: components ∧ depth + front.countP isOrdinary < front.count back

/-- A path leads out of the root. -/
def Escapes (path : Text) : Prop :=
  EscapesFrom 0 (components path)

variable {component : Text}

/-- A component stays, goes back, or goes on. -/
theorem component_cases (component : Text) :
    (component = [] ∨ component = here) ∨ component = back ∨ isOrdinary component = true := by
  by_cases hempty : component = []
  · exact .inl (.inl hempty)
  by_cases hhere : component = here
  · exact .inl (.inr hhere)
  by_cases hback : component = back
  · exact .inr (.inl hback)
  · exact .inr (.inr (by simp [isOrdinary, hempty, hhere, hback]))

/-- An empty component and a single point name nothing. -/
theorem isOrdinary_eq_false (h : component = [] ∨ component = here) :
    isOrdinary component = false := by
  rcases h with rfl | rfl <;> decide

/-- An empty component and a single point do not go back. -/
theorem ne_back (h : component = [] ∨ component = here) : component ≠ back := by
  rcases h with rfl | rfl <;> decide

/-- A component that names something does not go back. -/
theorem ne_back_of_isOrdinary (h : isOrdinary component = true) : component ≠ back := by
  rintro rfl
  exact absurd h (by decide)

/-! ## One component -/

/-- An empty component and a single point are followed to the place one is at. -/
theorem follow_stays (h : component = [] ∨ component = here) (place : Option (List Text)) :
    follow place component = place := by
  unfold follow
  rw [if_pos h]

/-- There is no way back from the root. -/
@[simp] theorem follow_back_root : follow (some []) back = none := by
  decide

/-- Two points take back the component that was followed last. -/
@[simp] theorem follow_back (name : Text) (before : List Text) :
    follow (some (name :: before)) back = some before := by
  unfold follow
  rw [if_neg (by decide), if_pos rfl]

/-- A component that names something is followed by putting it behind the others. -/
theorem follow_ordinary (h : isOrdinary component = true) (place : List Text) :
    follow (some place) component = some (component :: place) := by
  have hname : component ≠ [] ∧ component ≠ here ∧ component ≠ back := by
    simpa [isOrdinary] using h
  unfold follow
  rw [if_neg (by simp [hname.1, hname.2.1]), if_neg hname.2.2, Option.map_some]

/-- Outside of the root there is nothing to follow. -/
@[simp] theorem follow_none (component : Text) : follow none component = none := by
  simp [follow]

/-- Once the root has been left, no components lead back to it. -/
@[simp] theorem foldl_follow_none (components : List Text) :
    components.foldl follow none = none := by
  induction components with
  | nil => rfl
  | cons component components ih => rw [List.foldl_cons, follow_none, ih]

/-! ## Counting -/

/-- Where no component is left to take, nothing has been taken. -/
theorem not_escapesFrom_nil (depth : Nat) : ¬EscapesFrom depth [] := by
  rintro ⟨front, hfront, hlt⟩
  obtain rfl := List.prefix_nil.mp hfront
  exact absurd hlt (Nat.not_lt_zero _)

/-- The first component is part of every beginning that takes something back. -/
theorem escapesFrom_cons {depth : Nat} {components : List Text} :
    EscapesFrom depth (component :: components) ↔ ∃ front, front <+: components ∧
      depth + (component :: front).countP isOrdinary < (component :: front).count back := by
  constructor
  · rintro ⟨front, hfront, hlt⟩
    rcases List.prefix_cons_iff.mp hfront with rfl | ⟨later, rfl, hlater⟩
    · exact absurd hlt (Nat.not_lt_zero _)
    · exact ⟨later, hlater, hlt⟩
  · rintro ⟨front, hfront, hlt⟩
    exact ⟨component :: front, List.cons_prefix_cons.mpr ⟨rfl, hfront⟩, hlt⟩

variable {components : List Text} {depth : Nat}

/-- A component that stays where it is does not help to leave the root. -/
theorem escapesFrom_stays (h : component = [] ∨ component = here) :
    EscapesFrom depth (component :: components) ↔ EscapesFrom depth components := by
  have hname : ¬isOrdinary component = true := by simp [isOrdinary_eq_false h]
  rw [escapesFrom_cons]
  simp only [EscapesFrom, List.countP_cons_of_neg hname, List.count_cons_of_ne (ne_back h)]

/-- From the root itself no component can be taken back. -/
theorem escapesFrom_back_root : EscapesFrom 0 (back :: components) :=
  ⟨[back], List.prefix_append [back] components, by decide⟩

/-- Below the root, two points leave one component less to be taken back. -/
theorem escapesFrom_back :
    EscapesFrom (depth + 1) (back :: components) ↔ EscapesFrom depth components := by
  have hname : ¬isOrdinary back = true := by decide
  rw [escapesFrom_cons]
  simp only [EscapesFrom, List.countP_cons_of_neg hname, List.count_cons_self,
    Nat.add_right_comm depth 1, Nat.add_lt_add_iff_right]

/-- A component that names something is one more that can be taken back. -/
theorem escapesFrom_ordinary (h : isOrdinary component = true) :
    EscapesFrom depth (component :: components) ↔ EscapesFrom (depth + 1) components := by
  rw [escapesFrom_cons]
  simp only [EscapesFrom, List.countP_cons_of_pos h,
    List.count_cons_of_ne (ne_back_of_isOrdinary h), Nat.add_right_comm depth 1, Nat.add_assoc]

/-- Components are followed to the end unless they take back more of them than there are. -/
theorem foldl_follow_eq_none_iff (place components : List Text) :
    components.foldl follow (some place) = none ↔ EscapesFrom place.length components := by
  induction components generalizing place with
  | nil => simp [not_escapesFrom_nil]
  | cons component components ih =>
    rw [List.foldl_cons]
    rcases component_cases component with hstays | rfl | hname
    · rw [follow_stays hstays, ih, escapesFrom_stays hstays]
    · cases place with
      | nil => simp [escapesFrom_back_root]
      | cons name before => rw [follow_back, ih, List.length_cons, escapesFrom_back]
    · rw [follow_ordinary hname, ih, List.length_cons, escapesFrom_ordinary hname]

/-- The paths without a normal form are those that lead out of the root. -/
theorem normalize?_eq_none_iff {path : Text} : normalize? path = none ↔ Escapes path := by
  rw [normalize?, resolve?, Option.map_eq_none_iff, Option.map_eq_none_iff,
    foldl_follow_eq_none_iff, List.length_nil, Escapes]

end Frontend.Path
