import Mathlib.Data.List.Basic
import ManifestMigration.Proofs.Patch.Hunks
import ManifestMigration.Proofs.Text.Digit

/-! # Reading unified diffs

A unified diff is read line by line. A header says how many lines a hunk has on both sides, so a line
of the hunk is told by its place and its mark, whatever it holds. A remark behind a line takes away
the break of that line. Hunks that are written are read back (`readHunks?_render`).
-/

namespace ManifestMigration.Patch

variable {rest : List Char} {lines : List Line} {n count : Nat}

/-! ## Remarks -/

/-- Leave out the remarks, which start with a backslash. The line before a remark has no break. -/
def joinRemarks : List Line → List Line
  | [] => []
  | [line] => [line]
  | line :: next :: rest =>
    if next.head? = some '\\' then line.dropLast :: joinRemarks rest
    else line :: joinRemarks (next :: rest)

/-- A line as it is written: without a break of its own it gets one, and a remark. -/
def writtenLine (line : Line) : List Char :=
  line ++ if line.getLast? = some '\n' then [] else "\n\\ No newline at end of file\n".toList

/-! ## Hunks -/

def readNumber? (text : List Char) : Option (Nat × List Char) :=
  let digits := text.takeWhile Char.isDigit
  if digits.isEmpty then none else some (Text.decimalValue digits, text.dropWhile Char.isDigit)

/-- Read the size of a range. Without a number it has one line. -/
def readSize? : List Char → Option (Nat × List Char)
  | ',' :: rest => readNumber? rest
  | rest => some (1, rest)

/-- How many lines come before a range. It names its first line, counted from one, or the line before
    it if it is empty. -/
def startOf? (first count : Nat) : Option Nat :=
  if count = 0 then some first else if first = 0 then none else some (first - 1)

/-- Read a range: how many lines come before it and how many it has. -/
def readRange? (text : List Char) : Option ((Nat × Nat) × List Char) := do
  let (first, rest) ← readNumber? text
  let (count, rest) ← readSize? rest
  let start ← startOf? first count
  return ((start, count), rest)

/-- Read the header of a hunk: its ranges before and after the change. -/
def readHeader? (line : Line) : Option ((Nat × Nat) × (Nat × Nat)) :=
  match line with
  | '@' :: '@' :: ' ' :: '-' :: rest => do
    let (before, rest) ← readRange? rest
    match rest with
    | ' ' :: '+' :: rest =>
      let (after, rest) ← readRange? rest
      if rest = [' ', '@', '@', '\n'] then return (before, after) else none
    | _ => none
  | _ => none

/-- Read a line of a hunk by its mark. An empty line of context may stand without it. -/
def readMarked? : Line → Option HunkLine
  | ' ' :: line => some (.context line)
  | '-' :: line => some (.deleted line)
  | '+' :: line => some (.inserted line)
  | ['\n'] => some (.context ['\n'])
  | _ => none

/-- Read the lines of a hunk that has so many of them before and after the change. -/
def takeLines? : Nat → Nat → List Line → Option (List HunkLine × List Line)
  | 0, 0, rest => some ([], rest)
  | _, _, [] => none
  | before, after, marked :: rest => do
    let line ← readMarked? marked
    if line.isBefore.toNat ≤ before ∧ line.isAfter.toNat ≤ after then
      let (lines, rest) ←
        takeLines? (before - line.isBefore.toNat) (after - line.isAfter.toNat) rest
      return (line :: lines, rest)
    else none

theorem length_le_of_takeLines? {before after : Nat} {others : List Line} {taken : List HunkLine}
    (read : takeLines? before after lines = some (taken, others)) :
    others.length ≤ lines.length := by
  fun_induction takeLines? before after lines generalizing taken with
  | case1 => cases read; exact Nat.le_refl _
  | case2 => cases read
  | case3 before after marked rest _ ih =>
      rw [Option.bind_eq_bind, Option.bind_eq_some_iff] at read
      obtain ⟨line, -, read⟩ := read
      split at read
      · rw [Option.bind_eq_bind, Option.bind_eq_some_iff] at read
        obtain ⟨⟨more, behind⟩, read, same⟩ := read
        cases same
        exact Nat.le_succ_of_le (ih line read)
      · cases read

/-- Read the hunks in the lines of a diff. -/
def readHunks? : List Line → Option (List Hunk)
  | [] => some []
  | header :: rest =>
    match readHeader? header with
    | none => none
    | some (before, after) =>
      match _h : takeLines? before.2 after.2 rest with
      | none => none
      | some (lines, others) =>
        (readHunks? others).map fun hunks => ⟨before.1, after.1, lines⟩ :: hunks
termination_by lines => lines.length
decreasing_by
  have := length_le_of_takeLines? _h
  simp only [List.length_cons]
  omega

/-! ## Numbers and ranges -/

theorem readNumber?_toDigits (ends : ∀ c ∈ rest.head?, c.isDigit = false) (n : Nat) :
    readNumber? (Nat.toDigits 10 n ++ rest) = some (n, rest) := by
  have some : (Nat.toDigits 10 n).isEmpty = false := by simp
  simp only [readNumber?, Text.takeWhile_toDigits ends, Text.dropWhile_toDigits ends, some,
    Text.decimalValue_toDigits, Bool.false_eq_true, if_false]

/-- What follows a range goes on neither with its number nor with its size. -/
def EndsRange (rest : List Char) : Prop := ∀ c ∈ rest.head?, c.isDigit = false ∧ c ≠ ','

theorem readSize?_written (ends : EndsRange rest) (count : Nat) :
    readSize? ((if count = 1 then "" else "," ++ toString count).toList ++ rest) =
      some (count, rest) := by
  split
  · next one =>
    rw [String.toList_empty, List.nil_append, one]
    unfold readSize?
    split
    · exact absurd rfl (ends ',' rfl).2
    · rfl
  · rw [String.toList_append, Text.toList_toString, List.append_assoc]
    exact readNumber?_toDigits (fun c next => (ends c next).1) count

theorem startOf?_written (start count : Nat) :
    startOf? (if count = 0 then start else start + 1) count = some start := by
  unfold startOf?
  split <;> rfl

theorem readRange?_render (ends : EndsRange rest) (start count : Nat) :
    readRange? ((renderRange start count).toList ++ rest) = some ((start, count), rest) := by
  have sizeEnds : ∀ c ∈ ((if count = 1 then "" else "," ++ toString count).toList ++ rest).head?,
      c.isDigit = false := by
    split
    · exact fun c next => (ends c next).1
    · rw [String.toList_append]
      rintro c ⟨⟩
      rfl
  rw [readRange?, renderRange, String.toList_append, List.append_assoc, Text.toList_toString,
    readNumber?_toDigits sizeEnds]
  simp only [Option.bind_eq_bind, Option.bind_some, readSize?_written ends, startOf?_written]
  rfl

theorem toList_header (h : Hunk) :
    h.header.toList = '@' :: '@' :: ' ' :: '-' ::
      ((renderRange h.beforeStart h.beforeCount).toList ++ ' ' :: '+' ::
        ((renderRange h.afterStart h.afterCount).toList ++ [' ', '@', '@', '\n'])) := by
  simp only [Hunk.header, String.toList_append, List.append_assoc]
  rfl

theorem readHeader?_header (h : Hunk) :
    readHeader? h.header.toList =
      some ((h.beforeStart, h.beforeCount), (h.afterStart, h.afterCount)) := by
  have range (start count : Nat) (rest : List Char) :
      readRange? ((renderRange start count).toList ++ ' ' :: rest) =
        some ((start, count), ' ' :: rest) := by
    refine readRange?_render ?_ start count
    rintro c ⟨⟩
    decide
  simp only [toList_header, readHeader?, range, Option.bind_eq_bind, Option.bind_some]
  rfl

/-! ## Lines of a hunk -/

/-- A line of a hunk behind its mark. -/
def HunkLine.marked : HunkLine → Line
  | .context ['\n'] => ['\n']
  | .context line => ' ' :: line
  | .deleted line => '-' :: line
  | .inserted line => '+' :: line

theorem readMarked?_marked (line : HunkLine) : readMarked? line.marked = some line := by
  cases line with
  | context line =>
      unfold HunkLine.marked
      split <;> simp_all [readMarked?]
  | deleted line | inserted line => rfl

theorem takeLines?_marked (body : List HunkLine) (rest : List Line) :
    takeLines? (body.countP HunkLine.isBefore) (body.countP HunkLine.isAfter)
      (body.map HunkLine.marked ++ rest) = some (body, rest) := by
  induction body with
  | nil => cases rest <;> rfl
  | cons line body ih =>
      have before : (line :: body).countP HunkLine.isBefore =
          body.countP HunkLine.isBefore + line.isBefore.toNat := by
        rw [List.countP_cons]
        cases line.isBefore <;> rfl
      have after : (line :: body).countP HunkLine.isAfter =
          body.countP HunkLine.isAfter + line.isAfter.toNat := by
        rw [List.countP_cons]
        cases line.isAfter <;> rfl
      have somewhere : 0 < line.isBefore.toNat + line.isAfter.toNat := by
        cases line <;> exact Nat.succ_pos _
      rw [List.map_cons, List.cons_append, before, after, takeLines?]
      · simp [readMarked?_marked, ih]
      · omega

/-- The lines of a hunk behind their marks, and the header in front of them. -/
def Hunk.marked (h : Hunk) : List Line := h.header.toList :: h.lines.map HunkLine.marked

theorem readHunks?_marked (hunks : List Hunk) :
    readHunks? (hunks.flatMap Hunk.marked) = some hunks := by
  induction hunks with
  | nil => rw [List.flatMap_nil, readHunks?]
  | cons h hunks ih =>
      rw [List.flatMap_cons, Hunk.marked, List.cons_append, readHunks?, readHeader?_header]
      dsimp only
      split
      · next missing => cases (takeLines?_marked h.lines _).symm.trans missing
      · next lines others read =>
        cases (takeLines?_marked h.lines _).symm.trans read
        rw [ih]
        rfl

/-! ## Lines of a diff -/

theorem joinRemarks_cons (line : Line) {rest : List Line}
    (plain : ∀ next ∈ rest.head?, next.head? ≠ some '\\') :
    joinRemarks (line :: rest) = line :: joinRemarks rest := by
  cases rest with
  | nil => rfl
  | cons next rest => rw [joinRemarks, if_neg (plain next rfl)]

/-- A line that can be written in a diff: it is told from a remark. -/
def IsPlain (line : Line) : Prop := Text.IsLine line ∧ line.head? ≠ some '\\'

/-- What is written starts as the first line does. -/
theorem head?_lines_written {lines : List Line} (plain : ∀ line ∈ lines, IsPlain line) :
    ∀ next ∈ (Text.lines (lines.flatMap writtenLine)).head?, next.head? ≠ some '\\' := by
  intro next first
  obtain ⟨more, split⟩ := List.head?_eq_some_iff.mp first
  rw [Text.head?_of_lines split]
  cases lines with
  | nil => cases first
  | cons line rest =>
      obtain ⟨isLine, start⟩ := plain line List.mem_cons_self
      obtain ⟨c, body, rfl⟩ := List.exists_cons_of_ne_nil isLine.ne_nil
      exact start

/-- Lines that are written, with remarks or without, are what is found again. -/
theorem joinRemarks_written (lines : List Line) (plain : ∀ line ∈ lines, IsPlain line) :
    joinRemarks (Text.lines (lines.flatMap writtenLine)) = lines := by
  induction lines with
  | nil => rfl
  | cons line rest ih =>
      have ⟨⟨isLine, _⟩, plainRest⟩ := List.forall_mem_cons.mp plain
      have found := ih plainRest
      have next := head?_lines_written plainRest
      rw [List.flatMap_cons, writtenLine]
      cases isLine with
      | @closed body free =>
          have ends : (body ++ ['\n']).getLast? = some '\n' := List.getLast?_concat
          rw [if_pos ends, List.append_nil, List.append_assoc, List.singleton_append,
            Text.lines_append free, joinRemarks_cons _ next, found]
      | last free _ =>
          have notEnded : line.getLast? ≠ some '\n' := fun ends => free (List.mem_of_getLast? ends)
          have remark : "\n\\ No newline at end of file\n".toList =
              '\n' :: ("\\ No newline at end of file".toList ++ ['\n']) := by decide
          have freeRemark : '\n' ∉ "\\ No newline at end of file".toList := by decide
          rw [if_neg notEnded, remark, List.append_assoc, List.cons_append, List.append_assoc,
            List.singleton_append, Text.lines_append free, Text.lines_append freeRemark, joinRemarks,
            if_pos (by rfl), List.dropLast_concat, found]

/-! ## Hunks as text -/

theorem markLine_eq_written (mark : Char) {line : Line} (some : line ≠ []) :
    markLine mark line = writtenLine (mark :: line) := by
  obtain ⟨c, body, rfl⟩ := List.exists_cons_of_ne_nil some
  rw [markLine, writtenLine, List.getLast?_cons_cons]

theorem HunkLine.render_eq_written {line : HunkLine} (isLine : Text.IsLine line.text) :
    line.render = writtenLine line.marked := by
  cases line with
  | context line =>
      by_cases empty : line = ['\n']
      · rw [empty]
        rfl
      · simp only [render, marked]
        exact markLine_eq_written ' ' isLine.ne_nil
  | deleted line | inserted line => exact markLine_eq_written _ isLine.ne_nil

theorem HunkLine.isPlain_marked {line : HunkLine} (isLine : Text.IsLine line.text) :
    IsPlain line.marked := by
  cases line with
  | context line =>
      by_cases empty : line = ['\n']
      · subst empty
        exact ⟨isLine, by decide⟩
      · simp only [marked]
        exact ⟨isLine.cons (by decide), nofun⟩
  | deleted line | inserted line => exact ⟨isLine.cons (by decide), nofun⟩

theorem free_toString (n : Nat) : '\n' ∉ (toString n).toList := by
  rw [Text.toList_toString]
  intro member
  cases Text.isDigit_of_mem_toDigits '\n' member

theorem free_renderRange (start count : Nat) : '\n' ∉ (renderRange start count).toList := by
  have size : '\n' ∉ (if count = 1 then "" else "," ++ toString count).toList := by
    split
    · exact List.not_mem_nil
    · rw [String.toList_append, List.mem_append, not_or]
      exact ⟨by decide, free_toString count⟩
  rw [renderRange, String.toList_append, List.mem_append, not_or]
  exact ⟨free_toString _, size⟩

/-- The header of a hunk is one line, which starts with its mark. -/
theorem Hunk.header_closed (h : Hunk) :
    ∃ body, '\n' ∉ body ∧ h.header.toList = '@' :: body ++ ['\n'] := by
  refine ⟨'@' :: ' ' :: '-' :: ((renderRange h.beforeStart h.beforeCount).toList ++ ' ' :: '+' ::
    ((renderRange h.afterStart h.afterCount).toList ++ [' ', '@', '@'])), ?_, ?_⟩
  · simp [free_renderRange]
  · simp [toList_header]

theorem Hunk.isPlain_header (h : Hunk) : IsPlain h.header.toList := by
  obtain ⟨body, free, closed⟩ := h.header_closed
  rw [closed]
  exact ⟨.closed (List.not_mem_cons_of_ne_of_not_mem (by decide) free), nofun⟩

theorem Hunk.writtenLine_header (h : Hunk) : writtenLine h.header.toList = h.header.toList := by
  obtain ⟨body, -, closed⟩ := h.header_closed
  rw [writtenLine, closed, List.getLast?_concat, if_pos rfl, List.append_nil]

theorem Hunk.render_eq_written {h : Hunk} (areLines : ∀ line ∈ h.lines, Text.IsLine line.text) :
    h.render = h.marked.flatMap writtenLine := by
  have body : h.lines.flatMap HunkLine.render =
      h.lines.flatMap fun line => writtenLine line.marked :=
    List.flatMap_congr fun line within => HunkLine.render_eq_written (areLines line within)
  rw [Hunk.render, Hunk.marked, List.flatMap_cons, h.writtenLine_header, List.flatMap_map, body]

/-- A text is read line by line as the hunks that it was written from. -/
theorem readHunks?_render (hunks : List Hunk)
    (areLines : ∀ h ∈ hunks, ∀ line ∈ h.lines, Text.IsLine line.text) :
    readHunks? (joinRemarks (Text.lines (hunks.flatMap Hunk.render))) = some hunks := by
  have plain : ∀ line ∈ hunks.flatMap Hunk.marked, IsPlain line := by
    intro line member
    obtain ⟨h, inHunks, inMarked⟩ := List.mem_flatMap.mp member
    rcases List.mem_cons.mp inMarked with rfl | inLines
    · exact h.isPlain_header
    · obtain ⟨line, within, rfl⟩ := List.mem_map.mp inLines
      exact HunkLine.isPlain_marked (areLines h inHunks line within)
  have whole : hunks.flatMap Hunk.render = (hunks.flatMap Hunk.marked).flatMap writtenLine := by
    rw [List.flatMap_assoc]
    exact List.flatMap_congr fun h member => Hunk.render_eq_written (areLines h member)
  rw [whole, joinRemarks_written _ plain, readHunks?_marked]

end ManifestMigration.Patch
