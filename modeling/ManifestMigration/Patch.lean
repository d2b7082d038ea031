import ManifestMigration.Patch.Compare
import ManifestMigration.Patch.Hunk
import ManifestMigration.Patch.Settle
import ManifestMigration.Text.Occurrence

/-! # Patches

The change of a file as a unified diff with headers in the style of version control. There is no
patch for a file that did not change. A change is formatted with two lines that name its texts; what
comes before the first hunk gives way to the header of the file.
-/

namespace ManifestMigration.Patch

/-- A line behind its mark. A last line without a line break gets one and a remark. -/
def markLine (mark : Char) (line : Line) : List Char :=
  mark :: line ++
    if line.getLast? = some '\n' then [] else "\n\\ No newline at end of file\n".toList

/-- A line of a hunk as text. An empty line of context has no mark. -/
def HunkLine.render : HunkLine → List Char
  | .context ['\n'] => ['\n']
  | .context line => markLine ' ' line
  | .deleted line => markLine '-' line
  | .inserted line => markLine '+' line

/-- A range of lines: its first line, counted from one, and how many there are unless there is
    just one. An empty range names the line before it. -/
def renderRange (start count : Nat) : String :=
  toString (if count = 0 then start else start + 1) ++
    if count = 1 then "" else "," ++ toString count

def Hunk.header (h : Hunk) : String :=
  "@@ -" ++ renderRange h.beforeStart h.beforeCount ++ " +" ++
    renderRange h.afterStart h.afterCount ++ " @@\n"

def Hunk.render (h : Hunk) : List Char := h.header.toList ++ h.lines.flatMap HunkLine.render

def fileHeader (path : String) : String :=
  "diff --git a/" ++ path ++ " b/" ++ path ++ "\n--- a/" ++ path ++ "\n+++ b/" ++ path ++ "\n"

/-- The settled edit script between two texts. -/
def Script.ofTexts (before after : String) : Script :=
  (Script.between (Text.lines before.toList) (Text.lines after.toList)).settle

/-- The lines that name the two texts of a formatted change. -/
def nameLines : String := "--- original\n+++ modified\n"

def format (before after : String) : List Char :=
  nameLines.toList ++ (Script.ofTexts before after).hunks.flatMap Hunk.render

/-- The hunks of a formatted change: what stands from the first mark of a hunk on. -/
def hunksOf (formatted : List Char) : List Char :=
  (Text.fromFirst? "@@".toList formatted).getD formatted

def render (path before after : String) : String :=
  if before = after then ""
  else String.ofList
    (Text.closeLine ((fileHeader path).toList ++ hunksOf (format before after)))

variable {path before after : String}

theorem render_self (path text : String) : render path text text = "" := by
  rw [render, if_pos rfl]

/-- There is a patch exactly where the texts differ. -/
theorem render_eq_empty_iff : render path before after = "" ↔ after = before := by
  by_cases same : before = after
  · rw [same, render_self]
    exact iff_of_true rfl rfl
  · refine iff_of_false ?_ (Ne.symm same)
    rw [render, if_neg same, String.ofList_eq_empty_iff]
    exact Text.closeLine_ne_nil _

end ManifestMigration.Patch
