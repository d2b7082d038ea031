import ManifestMigration.Patch.Script

/-! # The middle of a shortest edit path

Picture two lists of lines as the sides of a grid: a step to the right deletes a line, a step down
inserts one, and where the lines agree a diagonal step keeps one. A shortest path from corner to
corner is looked for from both ends at once. With every further edit each search notes how far it
gets on each diagonal, and the searches stop when they meet. Diagonals are numbered by how many
more lines were deleted than inserted.
-/

namespace ManifestMigration.Patch

/-- How many lines agree from two places on. -/
def agreement (before after : Array Line) (i j : Nat) : Nat :=
  if h : i < before.size ∧ j < after.size then
    if before[i] = after[j] then agreement before after (i + 1) (j + 1) + 1 else 0
  else 0
termination_by before.size - i

/-- How far a search gets with so many edits: the number of lines of the first list that lie behind
    it, on each diagonal that it can be on, from the highest diagonal to the lowest. -/
abbrev Front := Array Nat

namespace Front

/-- The number of the diagonal at an index of a front that was reached with so many edits. -/
def diagonal (edits index : Nat) : Int := (edits : Int) - 2 * index

/-- How far the search is on a diagonal, if it can be there. -/
def on? (front : Front) (diagonal : Int) : Option Nat :=
  let steps := (front.size : Int) - 1 - diagonal
  if 0 ≤ steps ∧ steps % 2 = 0 then front[steps.toNat / 2]? else none

/-- Where one more edit leads on the diagonal at an index: a deletion on the diagonal below, or an
    insertion on the diagonal above, whichever is further. -/
def start (front : Front) (index : Nat) : Nat :=
  let above := if index = 0 then none else front[index - 1]?
  match front[index]?, above with
  | some x, some y => if x < y then y else x + 1
  | some x, none => x + 1
  | none, some y => y
  | none, none => 0

/-- Keep lines on a diagonal as long as they agree. -/
def slide (before after : Array Line) (diagonal : Int) (x : Nat) : Nat :=
  match (x : Int) - diagonal with
  | .ofNat y => x + agreement before after x y
  | .negSucc _ => x

/-- How far a search gets with one more edit. -/
def advance (before after : Array Line) (front : Front) : Front :=
  (Array.range (front.size + 1)).map fun index =>
    slide before after (diagonal front.size index) (front.start index)

/-- The first index at which a search has met the one that comes from the other end of lists of
    these lengths. -/
def meeting? (front other : Front) (before after : Nat) : Option Nat :=
  (List.range front.size).find? fun index =>
    match front[index]?, other.on? ((before : Int) - after - diagonal (front.size - 1) index) with
    | some x, some y => before ≤ x + y
    | _, _ => false

end Front

/-- Where a shortest path can be cut in two: the numbers of lines of both lists that lie before the
    cut. The searches so far are given, and how many more edits may be tried. -/
def searchMiddle (before after : Array Line) (forward backward : Front) :
    Nat → Option (Nat × Nat)
  | 0 => none
  | tries + 1 =>
    let forward' := forward.advance before after
    match forward'.meeting? backward before.size after.size with
    | some index =>
      let x := forward.start index
      some (x, ((x : Int) - Front.diagonal forward.size index).toNat)
    | none =>
      let backward' := backward.advance before.reverse after.reverse
      match backward'.meeting? forward' before.size after.size with
      | some index =>
        let x := backward'[index]?.getD 0
        let y := ((x : Int) - Front.diagonal backward.size index).toNat
        some (before.size - x, after.size - y)
      | none => searchMiddle before after forward' backward' tries

/-- A place at which two lists can be cut so that the parts can be compared separately. -/
def middle? (before after : List Line) : Option (Nat × Nat) :=
  searchMiddle before.toArray after.toArray #[] #[]
    ((before.length + after.length + 1) / 2 + 1)

end ManifestMigration.Patch
