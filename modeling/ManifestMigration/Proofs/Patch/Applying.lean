import ManifestMigration.Proofs.Patch.Reading

/-! # Applying patches

A diff is applied to a text hunk by hunk. A hunk has to stand where its header says on both sides, and
the text has to hold the lines that it shows before the change. The hunks of a patch turn the text
before the change into the one after it, and undone they turn that one into the text before
(`render_applies`).
-/

namespace ManifestMigration.Patch

variable {first second : List Line} {hunks : List Hunk}

/-! ## Applying hunks -/

/-- Apply hunks to the lines that are left of a text when so many lines of it, and so many of the new
    text, are done. -/
def applyFrom (beforeDone afterDone : Nat) : List Hunk → List Line → Option (List Line)
  | [], lines => some lines
  | h :: hunks, lines =>
    let gap := h.beforeStart - beforeDone
    let rest := lines.drop gap
    if beforeDone ≤ h.beforeStart ∧ gap ≤ lines.length ∧ h.afterStart = afterDone + gap ∧
        h.on .before = rest.take h.beforeCount then
      (applyFrom (h.beforeStart + h.beforeCount) (h.afterStart + h.afterCount) hunks
        (rest.drop h.beforeCount)).map fun more => lines.take gap ++ (h.on .after ++ more)
    else none

theorem applyFrom_of_leads {beforeDone afterDone : Nat}
    (leads : Leads beforeDone afterDone hunks first second) :
    applyFrom beforeDone afterDone hunks first = some second := by
  induction leads with
  | done => rfl
  | @hunk beforeDone afterDone kept h hunks first second before after _ ih =>
      have gap : h.beforeStart - beforeDone = kept.length := by omega
      have shown : (h.on .before ++ first).take h.beforeCount = h.on .before := by
        rw [h.beforeCount_eq, List.take_left]
      have rest : (h.on .before ++ first).drop h.beforeCount = first := by
        rw [h.beforeCount_eq, List.drop_left]
      have fits : beforeDone ≤ h.beforeStart ∧ kept.length ≤ (kept ++ (h.on .before ++ first)).length ∧
          h.afterStart = afterDone + kept.length ∧ h.on .before = h.on .before :=
        ⟨by omega, by simp, after, rfl⟩
      rw [applyFrom]
      rw [gap, List.drop_left, List.take_left, shown, rest, if_pos fits, ih]
      rfl

/-! ## Applying diffs -/

/-- The hunks that a diff says. -/
def hunks? (diff : String) : Option (List Hunk) :=
  readHunks? (joinRemarks (Text.lines diff.toList))

def applyHunks? (hunks : List Hunk) (text : String) : Option String :=
  (applyFrom 0 0 hunks (Text.lines text.toList)).map fun lines => String.ofList lines.flatten

def applyDiff? (diff text : String) : Option String := hunks? diff >>= (applyHunks? · text)

def revertDiff? (diff text : String) : Option String :=
  hunks? diff >>= fun hunks => applyHunks? (hunks.map Hunk.reverse) text

section

variable {before after : String}
  (leads : Leads 0 0 hunks (Text.lines before.toList) (Text.lines after.toList))

include leads

theorem hunks?_of_leads : hunks? (String.ofList (hunks.flatMap Hunk.render)) = some hunks := by
  rw [hunks?, String.toList_ofList]
  refine readHunks?_render hunks fun h member line within => ?_
  exact (leads.mem_or_mem member within).elim Text.isLine_of_mem_lines Text.isLine_of_mem_lines

theorem applyHunks?_of_leads : applyHunks? hunks before = some after := by
  rw [applyHunks?, applyFrom_of_leads leads, Option.map_some, Text.flatten_lines,
    String.ofList_toList]

/-- Hunks that lead from one text to another are a diff of the two. -/
theorem applyDiff?_of_leads :
    applyDiff? (String.ofList (hunks.flatMap Hunk.render)) before = some after := by
  rw [applyDiff?, hunks?_of_leads leads]
  exact applyHunks?_of_leads leads

theorem revertDiff?_of_leads :
    revertDiff? (String.ofList (hunks.flatMap Hunk.render)) after = some before := by
  rw [revertDiff?, hunks?_of_leads leads]
  exact applyHunks?_of_leads leads.reverse

end

-- Lines that look like parts of a diff, the last of them without a break.
example :
    applyDiff? "@@ -1,2 +1,2 @@\n @@\n--a\n\\ No newline at end of file\n++b\n" "@@\n-a" =
      some "@@\n+b\n" := by
  cbv

/-! ## Patches -/

theorem leads_ofTexts (before after : String) :
    Leads 0 0 (Script.ofTexts before after).hunks (Text.lines before.toList)
      (Text.lines after.toList) := by
  have leads := leads_hunks (Script.ofTexts before after)
  rwa [Script.on_ofTexts, Script.on_ofTexts] at leads

theorem hunks_ofTexts_ne_nil {before after : String} (differ : before ≠ after) :
    (Script.ofTexts before after).hunks ≠ [] := by
  refine (leads_ofTexts before after).ne_nil fun same => differ ?_
  have texts := congrArg List.flatten same
  rw [Text.flatten_lines, Text.flatten_lines] at texts
  exact String.toList_inj.mp texts

theorem getLast?_flatMap {α : Type} {f : α → List Char} {c : Char} {items : List α}
    (ends : ∀ item ∈ items, (f item).getLast? = some c) (nonempty : items ≠ []) :
    (items.flatMap f).getLast? = some c := by
  obtain ⟨others, last, rfl⟩ := (List.eq_nil_or_concat items).resolve_left nonempty
  rw [List.concat_eq_append] at ends ⊢
  rw [List.flatMap_append, List.flatMap_singleton, List.getLast?_append,
    ends last (List.mem_append_right others List.mem_cons_self), Option.some_or]

theorem getLast?_markLine (mark : Char) (line : Line) :
    (markLine mark line).getLast? = some '\n' := by
  unfold markLine
  split
  · next closed =>
    rw [List.append_nil, List.getLast?_cons, closed]
    rfl
  · rw [List.getLast?_append]
    rfl

theorem HunkLine.getLast?_render (line : HunkLine) : line.render.getLast? = some '\n' := by
  unfold render
  split
  · rfl
  all_goals exact getLast?_markLine _ _

/-- What is written of a hunk ends its last line. -/
theorem Hunk.getLast?_render (h : Hunk) : h.render.getLast? = some '\n' := by
  obtain ⟨body, -, closed⟩ := h.header_closed
  by_cases empty : h.lines = []
  · rw [render, empty, List.flatMap_nil, List.append_nil, closed, List.getLast?_concat]
  · rw [render, List.getLast?_append,
      getLast?_flatMap (fun line _ => line.getLast?_render) empty, Option.some_or]

/-- The hunks of a formatted change are found behind the lines that name its texts. -/
theorem hunksOf_format {before after : String} (differ : before ≠ after) :
    hunksOf (format before after) = (Script.ofTexts before after).hunks.flatMap Hunk.render := by
  obtain ⟨h, more, hunks⟩ := List.exists_cons_of_ne_nil (hunks_ofTexts_ne_nil differ)
  have mark : "@@".toList = ['@', '@'] := rfl
  have free : '@' ∉ nameLines.toList := by decide
  have starts : ['@', '@'] <+: (Script.ofTexts before after).hunks.flatMap Hunk.render := by
    rw [hunks, List.flatMap_cons, Hunk.render, toList_header]
    exact List.prefix_append ['@', '@'] _
  rw [hunksOf, format, mark, Text.fromFirst?_append free starts, Option.getD_some]

theorem render_of_ne (path : String) {before after : String} (differ : before ≠ after) :
    render path before after = fileHeader path ++
      String.ofList ((Script.ofTexts before after).hunks.flatMap Hunk.render) := by
  have closed : ((fileHeader path).toList ++
      (Script.ofTexts before after).hunks.flatMap Hunk.render).getLast? = some '\n' := by
    rw [List.getLast?_append, getLast?_flatMap (fun h _ => h.getLast?_render)
      (hunks_ofTexts_ne_nil differ), Option.some_or]
  rw [render, if_neg differ, hunksOf_format differ, Text.closeLine_of_closed closed,
    String.ofList_append, String.ofList_toList]

/-- The patch of a file is empty exactly where its text did not change. Otherwise the header of the
    file is followed by a diff: applied to the text before the change it gives the text after it, and
    in reverse it gives the text before. -/
theorem render_applies (path before after : String) :
    (render path before after = "" ↔ before = after) ∧
      (before = after ∨ ∃ diff,
        render path before after =
          "diff --git a/" ++ path ++ " b/" ++ path ++ "\n--- a/" ++ path ++ "\n+++ b/" ++ path ++
            "\n" ++ diff ∧
        applyDiff? diff before = some after ∧ revertDiff? diff after = some before) := by
  refine ⟨render_eq_empty_iff.trans eq_comm, ?_⟩
  by_cases same : before = after
  · exact .inl same
  · have leads := leads_ofTexts before after
    exact .inr ⟨_, render_of_ne path same, applyDiff?_of_leads leads, revertDiff?_of_leads leads⟩

end ManifestMigration.Patch
