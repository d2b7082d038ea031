import ManifestMigration.Patch.Middle

/-! # Comparing two texts line by line

What two lists of lines have in common at both ends is kept. The rest is cut in two where a
shortest edit path passes its middle, and both halves are compared in the same way. When there is
nothing to cut, the rest of the first list is replaced by the rest of the second.
-/

namespace ManifestMigration.Patch

/-- Two lists of lines without what they have in common at both ends. -/
structure Trimmed where
  /-- The lines with which both lists start. -/
  start : List Line
  before : List Line
  after : List Line
  /-- The lines with which both lists end. -/
  stop : List Line

/-- Trim two lists: first the common start, and then what is common at the end of the rest. -/
def trim (before after : List Line) : Trimmed :=
  let start := commonPrefix before after
  let before := before.drop start.length
  let after := after.drop start.length
  let stop := commonSuffix before after
  { start
    before := before.take (before.length - stop.length)
    after := after.take (after.length - stop.length)
    stop }

theorem trim_before (before after : List Line) :
    (trim before after).start ++ (trim before after).before ++ (trim before after).stop = before := by
  simp only [trim, List.append_assoc, take_append_commonSuffix_left, commonPrefix_append_drop_left]

theorem trim_after (before after : List Line) :
    (trim before after).start ++ (trim before after).after ++ (trim before after).stop = after := by
  simp only [trim, List.append_assoc, take_append_commonSuffix_right,
    commonPrefix_append_drop_right]

theorem length_trim_le (before after : List Line) :
    (trim before after).before.length + (trim before after).after.length ≤
      before.length + after.length := by
  have hb := congrArg List.length (trim_before before after)
  have ha := congrArg List.length (trim_after before after)
  simp only [List.length_append] at hb ha
  omega

/-- A cut that leaves less to compare on both sides of it. -/
def IsProperCut (before after : List Line) (cut : Nat × Nat) : Prop :=
  cut.1 ≤ before.length ∧ cut.2 ≤ after.length ∧
    0 < cut.1 + cut.2 ∧ cut.1 + cut.2 < before.length + after.length

instance (before after : List Line) (cut : Nat × Nat) :
    Decidable (IsProperCut before after cut) := by
  unfold IsProperCut; infer_instance

def Script.replace (deleted inserted : List Line) : Script :=
  (if deleted.isEmpty then [] else [.edit .deletion deleted]) ++
    if inserted.isEmpty then [] else [.edit .insertion inserted]

def Script.between (before after : List Line) : Script :=
  let trimmed := trim before after
  let cut? := if trimmed.before.isEmpty || trimmed.after.isEmpty then none
    else middle? trimmed.before trimmed.after
  keep trimmed.start ++
    (match cut? with
      | none => replace trimmed.before trimmed.after
      | some cut =>
        if _h : IsProperCut trimmed.before trimmed.after cut then
          between (trimmed.before.take cut.1) (trimmed.after.take cut.2) ++
            between (trimmed.before.drop cut.1) (trimmed.after.drop cut.2)
        else replace trimmed.before trimmed.after) ++
    keep trimmed.stop
termination_by before.length + after.length
decreasing_by
  all_goals
    obtain ⟨h₁, h₂, h₃, h₄⟩ := _h
    have := length_trim_le before after
    simp only [trimmed] at h₁ h₂ h₃ h₄
    simp only [List.length_take, List.length_drop]
    omega

end ManifestMigration.Patch
