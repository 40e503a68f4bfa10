import Frontend.Text.Offset

/-!
# Edit distance

The least number of insertions, deletions and substitutions of one character that turn one text
into another. The table of distances is filled row by row: row `a` lists the distances from `a`
to every end of the second text, from the whole of it to the empty one.
-/

namespace Frontend.EditDistance

/-- The row of the empty text: every character of the other text has to be inserted. -/
def emptyRow : Text → List Nat
  | [] => [0]
  | _ :: ys => (ys.length + 1) :: emptyRow ys

/-- The row of `x :: a`, given the row of `a`. -/
def nextRow (x : Char) : Text → List Nat → List Nat
  | [], below => [below.headD 0 + 1]
  | y :: ys, below =>
    let right := nextRow x ys below.tail
    let substitute := below.tail.headD 0 + if x = y then 0 else 1
    min substitute (min (below.headD 0 + 1) (right.headD 0 + 1)) :: right

/-- The row of a text. -/
def row (a b : Text) : List Nat :=
  a.foldr (fun x below => nextRow x b below) (emptyRow b)

end Frontend.EditDistance

namespace Frontend

/-- The least number of edits of one character that turn the first text into the second. -/
def editDistance (a b : Text) : Nat :=
  (EditDistance.row a b).headD 0

end Frontend
