import ManifestMigration.Proofs.Text.Replacing
import ManifestMigration.Substitution

/-! # Settled texts

A substitution whose identifier and replacement stand apart is done after one pass: nothing is left
to be replaced, and a second pass gives its text back (`apply_clears`). The default one is of this
kind.
-/

namespace ManifestMigration.Substitution

variable {s : Substitution} {text : String}

/-- The identifier and its replacement do not overlap. -/
def Apart (s : Substitution) : Prop := Text.Apart s.replaced.toList s.replacement.toList

theorem apply_of_not_due (done : s.isDue text = false) : s.apply text = text := by
  rw [apply, done]
  rfl

theorem apply_of_due (due : s.isDue text = true) :
    s.apply text =
      String.ofList (Text.replaceAll s.replaced.toList s.replacement.toList text.toList) := by
  rw [apply, if_pos due]

theorem isDue_eq_false_iff :
    s.isDue text = false ↔ s.replaced = "" ∨ s.replaced = s.replacement ∨
      Text.occursIn s.replaced.toList text.toList = false := by
  simp only [isDue, Bool.and_eq_false_iff, Bool.not_eq_false', String.isEmpty_iff, bne_eq_false_iff_eq,
    or_assoc]

/-- With an identifier apart from its replacement, only an occurrence matters. -/
theorem isDue_eq_occursIn (apart : s.Apart) :
    s.isDue text = Text.occursIn s.replaced.toList text.toList := by
  have nonempty : s.replaced.isEmpty = false := by
    have := apart.nonempty
    simpa using this
  have differs : (s.replaced != s.replacement) = true := by
    rw [bne_iff_ne]
    intro same
    exact apart.notInside (same ▸ List.infix_rfl)
  rw [isDue, nonempty, differs]
  rfl

theorem not_isDue_apply (apart : s.Apart) (text : String) : s.isDue (s.apply text) = false := by
  cases due : s.isDue text with
  | false => rw [apply_of_not_due due, due]
  | true =>
      rw [apply_of_due due, isDue_eq_occursIn apart, String.toList_ofList]
      exact Bool.eq_false_iff.mpr
        (mt Text.occursIn_iff.mp (apart.not_infix_replaceAll text.toList))

/-- What is due changes the text. -/
theorem apply_ne_of_due (apart : s.Apart) (due : s.isDue text = true) : s.apply text ≠ text := by
  intro same
  have settled : s.isDue (s.apply text) = false := not_isDue_apply apart text
  rw [same, due] at settled
  cases settled

/-! ## The default substitution -/

theorem apart_default : default.Apart := by
  refine Text.apart_of_edges ?_ ?_ ?_ ?_ ?_ <;> decide +kernel

/-! ## One pass is enough -/

theorem rewritten_apply (apart : s.Apart) (text : String) :
    Text.Rewritten s.replaced.toList s.replacement.toList text.toList (s.apply text).toList := by
  cases due : s.isDue text with
  | false =>
      rw [apply_of_not_due due]
      rw [isDue_eq_occursIn apart] at due
      exact .still (mt Text.occursIn_iff.mpr (Bool.eq_false_iff.mp due))
  | true =>
      rw [apply_of_due due, String.toList_ofList]
      exact Text.rewritten_replaceAll apart.nonempty text.toList

/-- What one pass over a text has done, and what a second one would do. -/
structure Cleared (s : Substitution) (text : String) : Prop where
  rewritten :
    Text.Rewritten s.replaced.toList s.replacement.toList text.toList (s.apply text).toList
  /-- The identifier does not occur any more. -/
  free : ¬ s.replaced.toList <:+: (s.apply text).toList
  /-- A second pass finds nothing to do. -/
  notDue : s.isDue (s.apply text) = false
  again : s.apply (s.apply text) = s.apply text

/-- One pass leaves no identifier that stands apart from its replacement, and the default one does. -/
theorem apply_clears :
    default.Apart ∧ ∀ s : Substitution, s.Apart → ∀ text, s.Cleared text := by
  refine ⟨apart_default, fun s apart text => ?_⟩
  have done : s.isDue (s.apply text) = false := not_isDue_apply apart text
  refine ⟨rewritten_apply apart text, ?_, done, apply_of_not_due done⟩
  rw [isDue_eq_occursIn apart, Bool.eq_false_iff] at done
  exact mt Text.occursIn_iff.mpr done

/-- Two identifiers side by side, and a part of one behind them. -/
theorem apply_clears_adjacent :
    let text := "cluster.x-k8s.io/v1beta1cluster.x-k8s.io/v1beta1cluster.x-k8s.io/v1"
    default.Apart ∧ default.Cleared text ∧
      default.apply text = "cluster.x-k8s.io/v1beta2cluster.x-k8s.io/v1beta2cluster.x-k8s.io/v1" := by
  intro text
  obtain ⟨apart, clears⟩ := apply_clears
  exact ⟨apart, clears default apart text, by decide +kernel⟩

end ManifestMigration.Substitution
