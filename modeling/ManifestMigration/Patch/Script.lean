import ManifestMigration.Text.Lines

/-! # Edit scripts

An edit script tells how one list of lines becomes another: a row of blocks of lines, which are
common to both lists, deleted from the first, or inserted into the second. Both lists can be read
off a script (`before`, `after`).
-/

namespace ManifestMigration.Patch

/-- A line with its line break. Only the last line of a text can be without one. -/
abbrev Line := List Char

/-- What an edit does with its lines. -/
inductive EditKind where
  | deletion
  | insertion
  deriving DecidableEq, Repr

/-- Some lines in a row and what becomes of them. -/
inductive Block where
  /-- The lines stay. -/
  | common (lines : List Line)
  /-- The lines are deleted or inserted. -/
  | edit (kind : EditKind) (lines : List Line)
  deriving DecidableEq, Repr

def Block.before : Block → List Line
  | .common lines => lines
  | .edit .deletion lines => lines
  | .edit .insertion _ => []

def Block.after : Block → List Line
  | .common lines => lines
  | .edit .deletion _ => []
  | .edit .insertion lines => lines

def Block.lines : Block → List Line
  | .common lines | .edit _ lines => lines

/-- Blocks in the order of the lines. -/
abbrev Script := List Block

namespace Script

/-- A script that keeps lines, if there are any. -/
def keep (lines : List Line) : Script := if lines.isEmpty then [] else [.common lines]

end Script

/-- The lines with which two lists start alike. -/
def commonPrefix : List Line → List Line → List Line
  | x :: xs, y :: ys => if x = y then x :: commonPrefix xs ys else []
  | _, _ => []

/-- The lines with which two lists end alike. -/
def commonSuffix (xs ys : List Line) : List Line :=
  (commonPrefix xs.reverse ys.reverse).reverse

theorem commonPrefix_append_drop_left (xs ys : List Line) :
    commonPrefix xs ys ++ xs.drop (commonPrefix xs ys).length = xs := by
  fun_induction commonPrefix xs ys with
  | case1 _ _ _ alike => rw [List.length_cons, List.drop_succ_cons, List.cons_append, alike]
  | case2 => rfl
  | case3 => rfl

theorem commonPrefix_append_drop_right (xs ys : List Line) :
    commonPrefix xs ys ++ ys.drop (commonPrefix xs ys).length = ys := by
  fun_induction commonPrefix xs ys with
  | case1 _ _ _ alike => rw [List.length_cons, List.drop_succ_cons, List.cons_append, alike]
  | case2 => rfl
  | case3 => rfl

theorem take_append_commonSuffix_left (xs ys : List Line) :
    xs.take (xs.length - (commonSuffix xs ys).length) ++ commonSuffix xs ys = xs := by
  have h := congrArg List.reverse (commonPrefix_append_drop_left xs.reverse ys.reverse)
  simpa [commonSuffix, List.drop_reverse] using h

theorem take_append_commonSuffix_right (xs ys : List Line) :
    ys.take (ys.length - (commonSuffix xs ys).length) ++ commonSuffix xs ys = ys := by
  have h := congrArg List.reverse (commonPrefix_append_drop_right xs.reverse ys.reverse)
  simpa [commonSuffix, List.drop_reverse] using h

end ManifestMigration.Patch
