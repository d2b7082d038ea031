import ManifestMigration.Patch.Script

/-! # Hunks

A patch shows the edits of a script in hunks. A hunk shows up to three lines of context before its
first edit and after its last, and everything between its edits. Edits that lie close together
share a hunk.
-/

namespace ManifestMigration.Patch

/-- Lines that are replaced, and the lines behind them that stay. -/
structure Edit where
  deleted : List Line
  inserted : List Line
  /-- The common lines up to the next edit or the end. -/
  gap : List Line
  deriving DecidableEq, Repr

/-- Put the lines of a block before those of an edit that follows it at once. -/
def Edit.extend (kind : EditKind) (lines : List Line) (e : Edit) : Edit :=
  match kind with
  | .deletion => { e with deleted := lines ++ e.deleted }
  | .insertion => { e with inserted := lines ++ e.inserted }

/-- The common lines with which a script starts, and its edits. Deletions and insertions without
    common lines between them are one edit. -/
def Script.edits : Script → List Line × List Edit
  | [] => ([], [])
  | .common lines :: rest =>
    let (start, edits) := Script.edits rest
    (lines ++ start, edits)
  | .edit kind lines :: rest =>
    match Script.edits rest with
    | ([], next :: more) => ([], next.extend kind lines :: more)
    | (gap, edits) => ([], Edit.extend kind lines ⟨[], [], gap⟩ :: edits)

inductive HunkLine where
  | context (line : Line)
  | deleted (line : Line)
  | inserted (line : Line)
  deriving DecidableEq, Repr

def HunkLine.isBefore : HunkLine → Bool
  | .context _ | .deleted _ => true
  | .inserted _ => false

def HunkLine.isAfter : HunkLine → Bool
  | .context _ | .inserted _ => true
  | .deleted _ => false

/-- Some edits with the lines around them. -/
structure Hunk where
  /-- How many lines come before the hunk before the change. -/
  beforeStart : Nat
  /-- How many lines come before the hunk after the change. -/
  afterStart : Nat
  lines : List HunkLine
  deriving DecidableEq, Repr

def Hunk.beforeCount (h : Hunk) : Nat := h.lines.countP HunkLine.isBefore

def Hunk.afterCount (h : Hunk) : Nat := h.lines.countP HunkLine.isAfter

/-- How many lines of context there are at each end of a hunk. -/
def contextSize : Nat := 3

/-- The replaced lines of an edit, deleted lines first. -/
def Edit.lines (e : Edit) : List HunkLine :=
  e.deleted.map .deleted ++ e.inserted.map .inserted

/-- None of the lines that an edit deletes, and none behind it, are there before the change. -/
def Edit.isAtEnd (e : Edit) : Bool := e.deleted.isEmpty && e.gap.isEmpty

/-- An edit shares the hunk of the one before it when their contexts would touch. Behind the last
    line one line more may lie between them. -/
def Edit.joins (gap : List Line) (next : Edit) : Bool :=
  gap.length < 2 * contextSize + if next.isAtEnd then 1 else 0

/-- The edits that share a hunk with the first, the lines from the first of them to the last, the
    lines behind them, and the other edits. -/
def takeHunk (first : Edit) : List Edit → List HunkLine × List Line × List Edit
  | [] => (first.lines, first.gap, [])
  | next :: rest =>
    if next.joins first.gap then
      let (lines, gap, others) := takeHunk next rest
      (first.lines ++ first.gap.map .context ++ lines, gap, others)
    else (first.lines, first.gap, next :: rest)

theorem length_takeHunk_le (first : Edit) (rest : List Edit) :
    (takeHunk first rest).2.2.length ≤ rest.length := by
  induction rest generalizing first with
  | nil => exact Nat.le_refl _
  | cons next rest ih =>
    rw [takeHunk]
    split
    · exact Nat.le_succ_of_le (ih next)
    · exact Nat.le_refl _

/-- The hunks of some edits. So many lines come before the common lines behind which the edits
    start. -/
def hunksFrom (beforeStart afterStart : Nat) (start : List Line) (edits : List Edit) :
    List Hunk :=
  match edits with
  | [] => []
  | first :: rest =>
    let skipped := start.length - contextSize
    let taken := takeHunk first rest
    let lines := (start.drop skipped).map HunkLine.context ++ taken.1
    ⟨beforeStart + skipped, afterStart + skipped,
        lines ++ (taken.2.1.take contextSize).map .context⟩ ::
      hunksFrom (beforeStart + skipped + lines.countP HunkLine.isBefore)
        (afterStart + skipped + lines.countP HunkLine.isAfter) taken.2.1 taken.2.2
termination_by edits.length
decreasing_by
  have := length_takeHunk_le first rest
  simp only [List.length_cons]
  omega

def Script.hunks (script : Script) : List Hunk :=
  hunksFrom 0 0 script.edits.1 script.edits.2

end ManifestMigration.Patch
