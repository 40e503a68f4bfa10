import Frontend.Text.Offset

/-!
# Paths

A path is a list of components between slashes. Normalising it drops empty components and single
points, and lets two points take back the component before them; a path that would take back more
than there is leads out of the root and has no normal form.

Paths are texts. A file system may have names whose bytes are no text, and they would have no normal
form either; the type leaves them out.
-/

namespace Frontend.Path

/-- The components of a path, empty ones included. -/
def components (path : Text) : List Text :=
  path.splitOn '/'

/-- The component that stays where it is. -/
def here : Text := ['.']

/-- The component that goes back. -/
def back : Text := ['.', '.']

/-- Components that name something. -/
def isOrdinary (component : Text) : Bool :=
  component ≠ [] ∧ component ≠ here ∧ component ≠ back

/-- Follows a component from the place that the components of a list lead to, last one first;
there is nothing to follow once the root has been left. -/
def follow (place : Option (List Text)) (component : Text) : Option (List Text) :=
  if component = [] ∨ component = here then place
  else if component = back then
    match place with
    | some (_ :: before) => some before
    | _ => none
  else place.map (component :: ·)

/-- The ordinary components that a path comes down to. -/
def resolve? (path : Text) : Option (List Text) :=
  ((components path).foldl follow (some [])).map List.reverse

/-- Components with single slashes between them. -/
def join (components : List Text) : Text :=
  ['/'].intercalate components

/-- The normal form of a path, unless it leads out of the root. That is the only reason to have
none: a name whose bytes are no text, which would be another, is no `Text`. -/
def normalize? (path : Text) : Option Text :=
  (resolve? path).map join

end Frontend.Path
