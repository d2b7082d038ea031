import ManifestMigration.Text.Occurrence

/-! # Pieces of a text

The pieces between the separators of a text, when more text follows that holds no separator.
-/

namespace ManifestMigration.Text

variable {separator : Char} {text more : List Char}

theorem splitAll_of_free (free : separator ∉ text) : splitAll separator text = [text] := by
  induction text with
  | nil => rfl
  | cons c rest ih =>
      obtain ⟨differs, freeRest⟩ := not_or.mp (mt List.mem_cons.mpr free)
      simp only [splitAll, if_neg (Ne.symm differs), ih freeRest]

/-- Text without a separator goes to the last piece of the text before it. -/
theorem splitAll_append (free : separator ∉ more) :
    ∃ before last, splitAll separator text = before ++ [last] ∧
      splitAll separator (text ++ more) = before ++ [last ++ more] ∧
      (text ≠ [] → text.getLast? ≠ some separator → last ≠ []) := by
  induction text with
  | nil => exact ⟨[], [], rfl, splitAll_of_free free, fun nonempty => absurd rfl nonempty⟩
  | cons c rest ih =>
      obtain ⟨before, last, split, splitMore, filled⟩ := ih
      by_cases here : c = separator
      · refine ⟨[] :: before, last, by simp [splitAll, here, split],
          by simp [splitAll, here, splitMore], ?_⟩
        intro _ ends
        cases rest with
        | nil => exact absurd (congrArg some here) ends
        | cons d rest => exact filled nofun (by simpa using ends)
      · cases before with
        | nil =>
            exact ⟨[], c :: last, by simp [splitAll, here, split],
              by simp [splitAll, here, splitMore], fun _ _ => nofun⟩
        | cons piece before =>
            refine ⟨(c :: piece) :: before, last, by simp [splitAll, here, split],
              by simp [splitAll, here, splitMore], ?_⟩
            intro _ ends
            cases rest with
            | nil => simp [splitAll] at split
            | cons d rest => exact filled nofun (by simpa using ends)

end ManifestMigration.Text
