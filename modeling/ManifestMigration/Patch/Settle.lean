import ManifestMigration.Patch.Script

/-! # Settling edits

An edit between common lines can often be moved: deleting the first of two equal lines is as good
as deleting the second. Every edit is moved up as far as it goes, so that it runs into edits of its
kind above it and joins them, and then down as far as it goes. Deletions settle first, insertions
after them. A moving edit is held between the blocks above it, nearest first, and those below it.
-/

namespace ManifestMigration.Patch

/-- Blocks in a row and an edit among them that is being moved. -/
structure Moving where
  above : List Block
  lines : List Line
  below : List Block

/-- A bound for the moves past some blocks. -/
def moves : List Block → Nat
  | [] => 0
  | block :: rest => 1 + block.lines.length + moves rest

/-- Put common lines before some blocks. They join a common block that is there. -/
def keepBefore (lines : List Line) : List Block → List Block
  | .common others :: rest => .common (lines ++ others) :: rest
  | blocks => .common lines :: blocks

/-- Put common lines behind some blocks, which are given in reverse order. -/
def keepBehind (lines : List Line) : List Block → List Block
  | .common others :: rest => .common (others ++ lines) :: rest
  | blocks => .common lines :: blocks

/-- Common blocks of these lines, if there are any, and then others. -/
def consCommon (lines : List Line) (rest : List Block) : List Block :=
  if lines.isEmpty then rest else .common lines :: rest

theorem moves_consCommon_le (lines : List Line) (rest : List Block) :
    moves (consCommon lines rest) ≤ 1 + lines.length + moves rest := by
  unfold consCommon
  split
  · omega
  · simp only [moves, Block.lines]; omega

/-- Move an edit up as far as it goes. Past common lines it moves when it ends like them; the lines
    that it passes follow it. Past an edit of the other kind it always moves, and an edit of its own
    kind it takes in. -/
def moveUp (kind : EditKind) (above : List Block) (lines : List Line) (below : List Block) :
    Moving :=
  match above with
  | [] => ⟨[], lines, below⟩
  | .edit other others :: rest =>
    if other = kind then moveUp kind rest (others ++ lines) below
    else moveUp kind rest lines (.edit other others :: below)
  | .common [] :: rest => moveUp kind rest lines below
  | .common (line :: more) :: rest =>
    let passed := commonSuffix lines (line :: more)
    if _h : passed = [] then ⟨above, lines, below⟩
    else
      moveUp kind (consCommon ((line :: more).take (more.length + 1 - passed.length)) rest)
        (passed ++ lines.take (lines.length - passed.length)) (keepBefore passed below)
termination_by moves above
decreasing_by
  · simp only [moves]; omega
  · simp only [moves]; omega
  · simp only [moves]; omega
  · have := List.length_pos_iff.2 _h
    simp only [passed] at this
    refine Nat.lt_of_le_of_lt (moves_consCommon_le _ _) ?_
    simp only [moves, Block.lines, List.length_take, List.length_cons]
    omega

/-- Move an edit down as far as it goes. Past common lines it moves when it starts like them; the
    lines that it passes come before it. -/
def moveDown (kind : EditKind) (above : List Block) (lines : List Line) (below : List Block) :
    Moving :=
  match below with
  | [] => ⟨above, lines, []⟩
  | .edit other others :: rest =>
    if other = kind then moveDown kind above (lines ++ others) rest
    else moveDown kind (.edit other others :: above) lines rest
  | .common [] :: rest => moveDown kind above lines rest
  | .common (line :: more) :: rest =>
    let passed := commonPrefix lines (line :: more)
    if _h : passed = [] then ⟨above, lines, below⟩
    else
      moveDown kind (keepBehind passed above) (lines.drop passed.length ++ passed)
        (consCommon ((line :: more).drop passed.length) rest)
termination_by moves below
decreasing_by
  · simp only [moves]; omega
  · simp only [moves]; omega
  · simp only [moves]; omega
  · have := List.length_pos_iff.2 _h
    simp only [passed] at this
    refine Nat.lt_of_le_of_lt (moves_consCommon_le _ _) ?_
    simp only [moves, Block.lines, List.length_drop, List.length_cons]
    omega

def countKind (kind : EditKind) : List Block → Nat
  | [] => 0
  | .edit other _ :: rest => (if other = kind then 1 else 0) + countKind kind rest
  | .common _ :: rest => countKind kind rest

@[simp] theorem countKind_consCommon (kind : EditKind) (lines : List Line) (rest : List Block) :
    countKind kind (consCommon lines rest) = countKind kind rest := by
  unfold consCommon; split <;> rfl

@[simp] theorem countKind_keepBefore (kind : EditKind) (lines : List Line) (blocks : List Block) :
    countKind kind (keepBefore lines blocks) = countKind kind blocks := by
  unfold keepBefore; split <;> rfl

/-- Moving up leaves no more edits of the kind below than there were. -/
theorem countKind_moveUp_below (kind : EditKind) (above : List Block) (lines : List Line)
    (below : List Block) :
    countKind kind (moveUp kind above lines below).below = countKind kind below := by
  fun_induction moveUp kind above lines below with
  | case1 => rfl
  | case2 _ _ _ _ takenIn => exact takenIn
  | case3 _ _ _ _ _ differs passed => rw [passed, countKind, if_neg differs, Nat.zero_add]
  | case4 _ _ _ passed => exact passed
  | case5 => rfl
  | case6 _ _ _ _ _ _ _ passed => rw [passed, countKind_keepBefore]

/-- Moving down leaves no more edits of the kind below than there were. -/
theorem countKind_moveDown_below_le (kind : EditKind) (above : List Block) (lines : List Line)
    (below : List Block) :
    countKind kind (moveDown kind above lines below).below ≤ countKind kind below := by
  fun_induction moveDown kind above lines below with
  | case1 => exact Nat.le_refl _
  | case2 _ _ _ _ takenIn => exact Nat.le_trans takenIn (Nat.le_add_left _ _)
  | case3 _ _ _ _ _ differs passed => rwa [countKind, if_neg differs, Nat.zero_add]
  | case4 _ _ _ passed => exact passed
  | case5 => exact Nat.le_refl _
  | case6 _ _ _ _ _ _ _ passed => rwa [countKind_consCommon] at passed

/-- Settle the edits of a kind, those of some blocks whose predecessors are settled already. -/
def settleBelow (kind : EditKind) (above : List Block) (below : List Block) : Script :=
  match below with
  | [] => above.reverse
  | .common lines :: rest => settleBelow kind (.common lines :: above) rest
  | .edit other lines :: rest =>
    if _h : other = kind then
      let up := moveUp kind above lines rest
      let down := moveDown kind up.above up.lines up.below
      settleBelow kind (.edit kind down.lines :: down.above) down.below
    else settleBelow kind (.edit other lines :: above) rest
termination_by (countKind kind below, below.length)
decreasing_by
  · exact Prod.Lex.right _ (by simp)
  · have h₁ := countKind_moveUp_below kind above lines rest
    have h₂ := countKind_moveDown_below_le kind up.above up.lines up.below
    refine Prod.Lex.left _ _ ?_
    simp only [up] at h₁ h₂ ⊢
    simp only [countKind, if_pos _h]
    omega
  · simp only [countKind, if_neg _h, Nat.zero_add]
    exact Prod.Lex.right _ (by simp)

def Script.settle (script : Script) : Script :=
  settleBelow .insertion [] (settleBelow .deletion [] script)

end ManifestMigration.Patch
