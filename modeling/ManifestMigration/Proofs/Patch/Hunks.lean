import ManifestMigration.Proofs.Patch.Script

/-! # Where hunks lead

Hunks lead from one list of lines to another when they stand in their places in both: between two
hunks the lists agree, and a hunk shows what there is of each on its side (`Leads`). The hunks of a
script lead from the lines before the change to those after it (`leads_hunks`); the context behind
one hunk and that in front of the next do not overlap, as edits that are too close share a hunk.
-/

namespace ManifestMigration.Patch

variable {side : Side} {first second : List Line}

/-! ## Reading hunks -/

def HunkLine.text : HunkLine → Line
  | .context line | .deleted line | .inserted line => line

def HunkLine.on? (side : Side) : HunkLine → Option Line
  | .context line => some line
  | .deleted line => side.pick (some line) none
  | .inserted line => side.pick none (some line)

/-- The lines of a hunk that are there on a side. -/
def linesOn (side : Side) (lines : List HunkLine) : List Line := lines.filterMap (HunkLine.on? side)

@[simp] theorem linesOn_append (lines others : List HunkLine) :
    linesOn side (lines ++ others) = linesOn side lines ++ linesOn side others :=
  List.filterMap_append

@[simp] theorem linesOn_context (lines : List Line) :
    linesOn side (lines.map .context) = lines := by
  rw [linesOn, List.filterMap_map]
  exact List.filterMap_some

@[simp] theorem linesOn_lines (e : Edit) :
    linesOn side e.lines = side.pick e.deleted e.inserted := by
  cases side <;> simp [linesOn, Edit.lines, List.filterMap_map, HunkLine.on?, Function.comp_def, Side.pick]

theorem length_linesOn (side : Side) (lines : List HunkLine) :
    (linesOn side lines).length =
      side.pick (lines.countP HunkLine.isBefore) (lines.countP HunkLine.isAfter) := by
  rw [linesOn, List.length_filterMap_eq_countP]
  cases side <;> refine List.countP_congr fun line _ => ?_ <;> cases line <;>
    simp [HunkLine.on?, HunkLine.isBefore, HunkLine.isAfter, Side.pick]

theorem countP_context {p : HunkLine → Bool} (there : ∀ line, p (.context line) = true)
    (lines : List Line) : (lines.map HunkLine.context).countP p = lines.length := by
  rw [List.countP_map]
  exact List.countP_eq_length.mpr fun line _ => there line

/-- The lines that a side has where some edits are made, up to the end. -/
def editsOn (side : Side) (edits : List Edit) : List Line :=
  edits.flatMap fun e => side.pick e.deleted e.inserted ++ e.gap

@[simp] theorem editsOn_cons (e : Edit) (rest : List Edit) :
    editsOn side (e :: rest) = side.pick e.deleted e.inserted ++ e.gap ++ editsOn side rest :=
  List.flatMap_cons

theorem pick_extend (kind : EditKind) (lines : List Line) (e : Edit) :
    side.pick (e.extend kind lines).deleted (e.extend kind lines).inserted =
      (if kind.side = side then lines else []) ++ side.pick e.deleted e.inserted := by
  cases side <;> cases kind <;> rfl

theorem Edit.gap_extend (kind : EditKind) (lines : List Line) (e : Edit) :
    (e.extend kind lines).gap = e.gap := by
  cases kind <;> rfl

/-- The common lines with which a script starts and its edits are the whole of it. -/
theorem on_edits (script : Script) :
    script.edits.1 ++ editsOn side script.edits.2 = script.on side := by
  fun_induction Script.edits script with
  | case1 => rfl
  | case2 lines rest start edits split ih =>
      rw [split] at ih
      rw [Script.on_cons, Block.on_common, ← ih, List.append_assoc]
  | case3 kind lines rest next more split ih =>
      rw [split] at ih
      rw [Script.on_cons, Block.on_edit, ← ih, editsOn_cons, editsOn_cons, pick_extend]
      simp only [Edit.gap_extend, List.nil_append, List.append_assoc]
  | case4 kind lines rest gap edits _ split ih =>
      rw [split] at ih
      have nothing : side.pick ([] : List Line) [] = [] := by cases side <;> rfl
      rw [Script.on_cons, Block.on_edit, ← ih, editsOn_cons, pick_extend, nothing]
      simp only [Edit.gap_extend, List.nil_append, List.append_nil, List.append_assoc]

/-! ## Edits that share a hunk -/

/-- The lines of a hunk, those behind it and the other edits are all that there is. -/
theorem on_takeHunk (first : Edit) (rest : List Edit) :
    linesOn side (takeHunk first rest).1 ++
        ((takeHunk first rest).2.1 ++ editsOn side (takeHunk first rest).2.2) =
      editsOn side (first :: rest) := by
  fun_induction takeHunk first rest with
  | case1 first => simp
  | case2 first next rest joins lines gap others taken ih =>
      -- The next edit joins: its lines and those in between come behind those of the first.
      rw [taken] at ih
      rw [editsOn_cons, ← ih]
      simp
  | case3 first next rest apart => simp

/-- A hunk with context at both ends and what is left behind it show the context in front of the
    first edit, and the edits. -/
theorem on_hunk (context : List Line) (first : Edit) (rest : List Edit) :
    linesOn side (context.map .context ++ (takeHunk first rest).1 ++
          ((takeHunk first rest).2.1.take contextSize).map .context) ++
        ((takeHunk first rest).2.1.drop contextSize ++ editsOn side (takeHunk first rest).2.2) =
      context ++ editsOn side (first :: rest) := by
  have gap := List.take_append_drop contextSize (takeHunk first rest).2.1
  rw [linesOn_append, linesOn_append, linesOn_context, linesOn_context, ← on_takeHunk first rest]
  simp only [List.append_assoc]
  rw [← List.append_assoc (List.take _ _), gap]

/-- Behind a hunk that another one follows there is room for the context of both. -/
theorem room_takeHunk (first : Edit) (rest : List Edit) (more : (takeHunk first rest).2.2 ≠ []) :
    2 * contextSize ≤ (takeHunk first rest).2.1.length := by
  fun_induction takeHunk first rest with
  | case1 first => exact absurd rfl more
  | case2 first next rest joins lines gap others taken ih =>
      rw [taken] at ih
      exact ih more
  | case3 first next rest apart =>
      simp only [Edit.joins, decide_eq_true_eq] at apart
      dsimp only
      omega

/-! ## Hunks in their places -/

def Hunk.on (side : Side) (h : Hunk) : List Line := linesOn side h.lines

theorem Hunk.beforeCount_eq (h : Hunk) : h.beforeCount = (h.on .before).length :=
  (length_linesOn .before h.lines).symm

theorem Hunk.afterCount_eq (h : Hunk) : h.afterCount = (h.on .after).length :=
  (length_linesOn .after h.lines).symm

/-- A line of a hunk is there on one side at least. -/
theorem Hunk.mem_or_mem {h : Hunk} {line : HunkLine} (within : line ∈ h.lines) :
    line.text ∈ h.on .before ∨ line.text ∈ h.on .after := by
  cases line with
  | context | deleted => exact .inl (List.mem_filterMap.mpr ⟨_, within, rfl⟩)
  | inserted => exact .inr (List.mem_filterMap.mpr ⟨_, within, rfl⟩)

/-- Hunks lead from one list of lines to another. So many lines of each list come before these: the
    hunks count them as well. -/
inductive Leads : Nat → Nat → List Hunk → List Line → List Line → Prop where
  /-- Behind the last hunk the lists agree. -/
  | done (beforeDone afterDone : Nat) (rest : List Line) : Leads beforeDone afterDone [] rest rest
  /-- The lists agree up to the next hunk. -/
  | hunk {beforeDone afterDone : Nat} (kept : List Line) {h : Hunk} {hunks : List Hunk}
      {first second : List Line} (before : h.beforeStart = beforeDone + kept.length)
      (after : h.afterStart = afterDone + kept.length)
      (more : Leads (h.beforeStart + h.beforeCount) (h.afterStart + h.afterCount) hunks first second) :
      Leads beforeDone afterDone (h :: hunks) (kept ++ (h.on .before ++ first))
        (kept ++ (h.on .after ++ second))

/-- The hunks of edits lead from the lines before them to those after them, also where a hunk before
    them has shown some of the common lines. -/
theorem leads_hunksFrom (beforeStart afterStart : Nat) (start : List Line) (edits : List Edit)
    (shown rest : List Line) (split : start = shown ++ rest)
    (room : edits ≠ [] → shown.length ≤ start.length - contextSize) :
    Leads (beforeStart + shown.length) (afterStart + shown.length)
      (hunksFrom beforeStart afterStart start edits) (rest ++ editsOn .before edits)
      (rest ++ editsOn .after edits) := by
  -- A hunk shows the first of the lines behind its edits, so the next ones start among the others.
  fun_induction hunksFrom beforeStart afterStart start edits generalizing shown rest with
  | case1 beforeStart afterStart start => exact .done _ _ _
  | case2 beforeStart afterStart start first more skipped taken lines ih =>
      let gap := taken.2.1
      let h : Hunk := ⟨beforeStart + skipped, afterStart + skipped,
        lines ++ (gap.take contextSize).map .context⟩
      have below : shown.length ≤ skipped := room (List.cons_ne_nil first more)
      have within : skipped ≤ start.length := Nat.sub_le _ _
      -- Up to the context of this hunk the lists agree.
      let kept := rest.take (skipped - shown.length)
      have context : start.drop skipped = rest.drop (skipped - shown.length) := by
        rw [split, List.drop_append, List.drop_eq_nil_of_le below, List.nil_append]
      have length : kept.length = skipped - shown.length := by
        have whole := congrArg List.length split
        rw [List.length_append] at whole
        rw [List.length_take]
        omega
      have hunk (side : Side) : rest ++ editsOn side (first :: more) =
          kept ++ (h.on side ++ (gap.drop contextSize ++ editsOn side taken.2.2)) := by
        calc rest ++ editsOn side (first :: more)
          _ = kept ++ (start.drop skipped ++ editsOn side (first :: more)) := by
              rw [context, ← List.append_assoc, List.take_append_drop]
          _ = _ := by
              rw [← on_hunk]
              rfl
      have roomBehind : taken.2.2 ≠ [] → (gap.take contextSize).length ≤ gap.length - contextSize := by
        intro others
        have room : 2 * contextSize ≤ gap.length := room_takeHunk first more others
        rw [List.length_take]
        omega
      have next := ih (gap.take contextSize) (gap.drop contextSize)
        (List.take_append_drop contextSize gap).symm roomBehind
      rw [hunk, hunk]
      refine .hunk kept ?_ ?_ ?_
      · dsimp only
        omega
      · dsimp only
        omega
      · have counts : h.beforeCount = lines.countP HunkLine.isBefore + (gap.take contextSize).length ∧
            h.afterCount = lines.countP HunkLine.isAfter + (gap.take contextSize).length := by
          refine ⟨List.countP_append.trans ?_, List.countP_append.trans ?_⟩
          · rw [countP_context fun _ => rfl]
          · rw [countP_context fun _ => rfl]
        rwa [counts.1, counts.2, ← Nat.add_assoc, ← Nat.add_assoc]

/-- The hunks of a script lead from the lines before the change to those after it. -/
theorem leads_hunks (script : Script) :
    Leads 0 0 script.hunks (script.on .before) (script.on .after) := by
  rw [← on_edits, ← on_edits]
  exact leads_hunksFrom 0 0 script.edits.1 script.edits.2 [] script.edits.1 rfl fun _ => Nat.zero_le _

namespace Leads

variable {beforeDone afterDone : Nat} {hunks : List Hunk}

/-- Between lists that differ there is a hunk. -/
theorem ne_nil (leads : Leads beforeDone afterDone hunks first second) (differ : first ≠ second) :
    hunks ≠ [] := by
  rintro rfl
  cases leads
  exact differ rfl

/-- Each line of a hunk is a line of one of the lists. -/
theorem mem_or_mem (leads : Leads beforeDone afterDone hunks first second) {h : Hunk}
    (member : h ∈ hunks) {line : HunkLine} (within : line ∈ h.lines) :
    line.text ∈ first ∨ line.text ∈ second := by
  induction leads with
  | done => cases member
  | @hunk _ _ kept h' hunks first second _ _ _ ih =>
      rcases List.mem_cons.mp member with rfl | later
      · refine (Hunk.mem_or_mem within).imp ?_ ?_ <;> intro shown <;> simp [shown]
      · refine (ih later).imp ?_ ?_ <;> intro inside <;> simp [inside]

end Leads

/-! ## Undoing hunks -/

/-- A line of a hunk when the change is undone. -/
def HunkLine.reverse : HunkLine → HunkLine
  | .context line => .context line
  | .deleted line => .inserted line
  | .inserted line => .deleted line

/-- The hunk that undoes a hunk. -/
def Hunk.reverse (h : Hunk) : Hunk := ⟨h.afterStart, h.beforeStart, h.lines.map HunkLine.reverse⟩

theorem Hunk.on_reverse (side : Side) (h : Hunk) : h.reverse.on side = h.on side.other := by
  have turned (line : HunkLine) : line.reverse.on? side = line.on? side.other := by
    cases side <;> cases line <;> rfl
  simp only [Hunk.on, Hunk.reverse, linesOn, List.filterMap_map, Function.comp_def, turned]

/-- The reversed hunks lead back. -/
theorem Leads.reverse {beforeDone afterDone : Nat} {hunks : List Hunk}
    (leads : Leads beforeDone afterDone hunks first second) :
    Leads afterDone beforeDone (hunks.map Hunk.reverse) second first := by
  induction leads with
  | done => exact .done _ _ _
  | @hunk _ _ kept h hunks first second before after _ ih =>
      have onBefore : h.reverse.on .before = h.on .after := h.on_reverse .before
      have onAfter : h.reverse.on .after = h.on .before := h.on_reverse .after
      rw [List.map_cons, ← onBefore, ← onAfter]
      refine .hunk kept after before ?_
      rwa [Hunk.beforeCount_eq, Hunk.afterCount_eq, onBefore, onAfter, ← Hunk.beforeCount_eq,
        ← Hunk.afterCount_eq]

end ManifestMigration.Patch
