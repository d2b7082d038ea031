import ManifestMigration.Patch

/-! # What an edit script leads from and to

A script shows the common lines on both sides of the change, those of a deletion only before it and
those of an insertion only after it. The script between two lists of lines shows the first before
the change and the second after it, wherever the lists are cut (`on_between`). Settling moves edits
past lines and past other edits, but on both sides the lines stay what they are (`on_settle`).
-/

namespace ManifestMigration.Patch

inductive Side where
  | before
  | after
  deriving DecidableEq, Repr

def Side.other : Side → Side
  | .before => .after
  | .after => .before

/-- Of two things, the one on a side. -/
def Side.pick {α : Type} (before after : α) : Side → α
  | .before => before
  | .after => after

/-- The side on which the lines of an edit are seen. -/
def EditKind.side : EditKind → Side
  | .deletion => .before
  | .insertion => .after

variable {side : Side} {kind : EditKind} {lines : List Line}

/-! ## Reading a script -/

def Block.on (side : Side) (block : Block) : List Line := side.pick block.before block.after

@[simp] theorem Block.on_common : (Block.common lines).on side = lines := by
  cases side <;> rfl

@[simp] theorem Block.on_edit :
    (Block.edit kind lines).on side = if kind.side = side then lines else [] := by
  cases side <;> cases kind <;> rfl

namespace Script

def on (side : Side) (script : Script) : List Line := script.flatMap (Block.on side)

@[simp] theorem on_nil : on side [] = [] := rfl

@[simp] theorem on_cons (block : Block) (rest : Script) :
    on side (block :: rest) = block.on side ++ on side rest :=
  List.flatMap_cons

@[simp] theorem on_append (s t : Script) : on side (s ++ t) = on side s ++ on side t :=
  List.flatMap_append

@[simp] theorem on_keep (lines : List Line) : on side (keep lines) = lines := by
  cases lines <;> simp [keep]

@[simp] theorem on_replace (deleted inserted : List Line) :
    on side (replace deleted inserted) = side.pick deleted inserted := by
  cases side <;> cases deleted <;> cases inserted <;> simp [replace, EditKind.side, Side.pick]

/-! ## Comparing -/

theorem pick_trim (first second : List Line) :
    (trim first second).start ++ side.pick (trim first second).before (trim first second).after ++
      (trim first second).stop = side.pick first second := by
  cases side with
  | before => exact trim_before first second
  | after => exact trim_after first second

/-- The script between two lists shows the one before the change and the other after it. -/
theorem on_between (first second : List Line) :
    on side (between first second) = side.pick first second := by
  fun_induction between first second with
  | case1 first second trimmed cut? ihStop ihStart =>
      have whole : trimmed.start ++ side.pick trimmed.before trimmed.after ++ trimmed.stop =
          side.pick first second := pick_trim first second
      clear_value cut?
      rw [on_append, on_append, on_keep, on_keep, ← whole]
      cases cut? with
      | none => rw [on_replace]
      | some cut =>
          dsimp only
          split
          · next proper =>
            rw [on_append, ihStart cut proper, ihStop cut proper]
            cases side <;> exact congrArg (_ ++ · ++ _) (List.take_append_drop _ _)
          · rw [on_replace]

end Script

/-! ## Settling -/

open Script

@[simp] theorem on_consCommon (lines : List Line) (rest : List Block) :
    on side (consCommon lines rest) = lines ++ on side rest := by
  cases lines <;> simp [consCommon]

@[simp] theorem on_reverse_consCommon (lines : List Line) (rest : List Block) :
    on side (consCommon lines rest).reverse = on side rest.reverse ++ lines := by
  cases lines <;> simp [consCommon]

@[simp] theorem on_keepBefore (lines : List Line) (blocks : List Block) :
    on side (keepBefore lines blocks) = lines ++ on side blocks := by
  unfold keepBefore
  split <;> simp

@[simp] theorem on_reverse_keepBehind (lines : List Line) (blocks : List Block) :
    on side (keepBehind lines blocks).reverse = on side blocks.reverse ++ lines := by
  unfold keepBehind
  split <;> simp

def Moving.script (kind : EditKind) (m : Moving) : Script :=
  m.above.reverse ++ .edit kind m.lines :: m.below

@[simp] theorem on_script (kind : EditKind) (m : Moving) :
    on side (m.script kind) =
      on side m.above.reverse ++ ((if kind.side = side then m.lines else []) ++ on side m.below) := by
  simp [Moving.script]

/-- Moving an edit up leaves the lines on both sides as they are. -/
theorem on_moveUp (kind : EditKind) (above : List Block) (lines : List Line) (below : List Block) :
    on side ((moveUp kind above lines below).script kind) =
      on side (Moving.script kind ⟨above, lines, below⟩) := by
  fun_induction moveUp kind above lines below with
  | case1 | case5 => rfl
  | case2 lines below others rest ih =>
      rw [ih]
      by_cases seen : kind.side = side <;> simp [seen]
  | case3 lines below other others rest differs ih =>
      rw [ih]
      cases side <;> cases kind <;> cases other <;> simp [EditKind.side] at differs ⊢
  | case4 lines below rest ih =>
      rw [ih]
      simp
  | case6 lines below line more rest passed some ih =>
      -- The edit and the lines that it passes change places, and on either side they read the same.
      have passes : lines.take (lines.length - passed.length) ++ passed = lines :=
        take_append_commonSuffix_left lines (line :: more)
      have follows : (line :: more).take (more.length + 1 - passed.length) ++ passed = line :: more :=
        take_append_commonSuffix_right lines (line :: more)
      clear_value passed
      rw [ih]
      have above : on side (Block.common (line :: more) :: rest).reverse =
          on side (consCommon ((line :: more).take (more.length + 1 - passed.length)) rest).reverse ++
            passed := by
        rw [on_reverse_consCommon, List.append_assoc, follows]
        simp
      rw [on_script, on_script, above, on_keepBefore]
      by_cases seen : kind.side = side
      · simp only [if_pos seen, List.append_assoc]
        rw [← List.append_assoc (lines.take _) passed, passes]
      · simp only [if_neg seen, List.append_assoc, List.nil_append]

/-- Moving an edit down leaves the lines on both sides as they are. -/
theorem on_moveDown (kind : EditKind) (above : List Block) (lines : List Line)
    (below : List Block) :
    on side ((moveDown kind above lines below).script kind) =
      on side (Moving.script kind ⟨above, lines, below⟩) := by
  fun_induction moveDown kind above lines below with
  | case1 | case5 => rfl
  | case2 above lines others rest ih =>
      rw [ih]
      by_cases seen : kind.side = side <;> simp [seen]
  | case3 above lines other others rest differs ih =>
      rw [ih]
      cases side <;> cases kind <;> cases other <;> simp [EditKind.side] at differs ⊢
  | case4 above lines rest ih =>
      rw [ih]
      simp
  | case6 above lines line more rest passed some ih =>
      -- As above, with what the edit passes at its other end.
      have passes : passed ++ lines.drop passed.length = lines :=
        commonPrefix_append_drop_left lines (line :: more)
      have follows : passed ++ (line :: more).drop passed.length = line :: more :=
        commonPrefix_append_drop_right lines (line :: more)
      clear_value passed
      have below : on side (Block.common (line :: more) :: rest) =
          passed ++ on side (consCommon ((line :: more).drop passed.length) rest) := by
        rw [on_consCommon, ← List.append_assoc, follows, on_cons, Block.on_common]
      rw [ih, on_script, on_script, below, on_reverse_keepBehind]
      by_cases seen : kind.side = side
      · simp only [if_pos seen, List.append_assoc]
        rw [← List.append_assoc passed, passes]
      · simp only [if_neg seen, List.append_assoc, List.nil_append]

/-- Settling the edits of a kind leaves the lines on both sides as they are. -/
theorem on_settleBelow (kind : EditKind) (above below : List Block) :
    on side (settleBelow kind above below) = on side above.reverse ++ on side below := by
  fun_induction settleBelow kind above below with
  | case1 above => simp
  | case2 above lines rest ih =>
      rw [ih]
      simp
  | case3 above lines rest up down ih =>
      have settled : on side (down.script kind) = on side (Moving.script kind ⟨above, lines, rest⟩) :=
        (on_moveDown kind up.above up.lines up.below).trans (on_moveUp kind above lines rest)
      rw [ih]
      simpa [Moving.script] using settled
  | case4 above other lines rest differs ih =>
      rw [ih]
      simp

theorem Script.on_settle (script : Script) : on side script.settle = on side script := by
  simp [settle, on_settleBelow]

/-- The settled script between two texts shows the lines of the one before the change, and those of
    the other after it. -/
theorem Script.on_ofTexts (before after : String) :
    on side (ofTexts before after) =
      side.pick (Text.lines before.toList) (Text.lines after.toList) :=
  (on_settle _).trans (on_between _ _)

end ManifestMigration.Patch
