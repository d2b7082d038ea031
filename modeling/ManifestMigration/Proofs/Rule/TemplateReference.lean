import ManifestMigration.Proofs.Document.Mappings
import ManifestMigration.Rule.TemplateReference

/-! # Settled control planes

A control plane is settled when an infrastructure reference of its machine template has a
counterpart in the template's own spec. The rule moves a reference exactly where there is none.
-/

namespace ManifestMigration.TemplateReference

variable {m spec template moved : Mapping}

/-- The mapping's own spec has a reference. -/
def HasInner (template : Mapping) : Prop :=
  ∃ inner, template.get? "spec" = some (.mapping inner) ∧ inner.contains key = true

/-- The mapping's own spec holds this reference. -/
def Holds (reference : Node) (m : Mapping) : Prop :=
  ∃ inner, m.get? "spec" = some (.mapping inner) ∧ inner.get? key = some reference

/-- The template has no reference, or its own spec has one as well. -/
def TemplateSettled (template : Mapping) : Prop :=
  template.contains key = true → HasInner template

/-- The machine template of a control plane is settled. -/
def Settled (m : Mapping) : Prop :=
  m.hasKind kind = true → ∀ spec template, m.get? "spec" = some (.mapping spec) →
    spec.get? "machineTemplate" = some (.mapping template) → TemplateSettled template

theorem hasInner_iff : HasInner m ↔ ∃ reference, Holds reference m := by
  simp only [HasInner, Holds, Dict.contains_eq_true_iff]
  constructor
  · rintro ⟨inner, stored, reference, held⟩
    exact ⟨reference, inner, stored, held⟩
  · rintro ⟨reference, inner, stored, held⟩
    exact ⟨inner, stored, reference, held⟩

/-! ## One template -/

theorem contains_child_iff :
    (template.child "spec").contains key = true ↔ HasInner template := by
  unfold Dict.child HasInner
  split
  · next inner found => simp [found]
  · next other =>
      refine iff_of_false (by decide) ?_
      rintro ⟨inner, found, -⟩
      exact other inner found

theorem moveInTemplate?_eq_none_iff :
    moveInTemplate? template = none ↔ TemplateSettled template := by
  unfold moveInTemplate? TemplateSettled
  rw [← contains_child_iff]
  split
  · next already => simp [already]
  · next missing =>
      simp only [missing, Bool.false_eq_true, imp_false, Bool.not_eq_true,
        Dict.contains_eq_false_iff]
      cases template.get? key <;> simp

theorem templateSettled_of_moved (found : moveInTemplate? template = some moved) :
    TemplateSettled moved := by
  obtain ⟨reference, -, rfl⟩ := moveInTemplate?_eq_some found
  intro _
  refine ⟨(template.child "spec").insert key reference, Dict.get?_insert_self _ _ _, ?_⟩
  rw [Dict.contains_insert]
  simp

theorem wellKeyed_of_moved (keyed : template.WellKeyed)
    (found : moveInTemplate? template = some moved) : moved.WellKeyed := by
  obtain ⟨reference, stored, rfl⟩ := moveInTemplate?_eq_some found
  have inner : ((template.child "spec").insert key reference).WellKeyed :=
    (keyed.child "spec").insert key (keyed.of_get? stored)
  exact (keyed.erase key).insert "spec" inner

/-! ## The rule -/

/-- A rule application either finds nothing to move or moves a reference. -/
theorem move_cases (m : Mapping) :
    (move m = (m, false) ∧ Settled m) ∨
      ∃ spec template moved, template? m = some (spec, template) ∧
        moveInTemplate? template = some moved ∧
        move m = (m.insert "spec" (.mapping (spec.insert "machineTemplate" (.mapping moved))),
          true) := by
  cases found : template? m with
  | none =>
      left
      refine ⟨by rw [move, found], ?_⟩
      intro isPlane spec template storedSpec storedTemplate
      exact nomatch found.symm.trans
        (template?_eq_some_iff.mpr ⟨isPlane, storedSpec, storedTemplate⟩)
  | some parts =>
      obtain ⟨spec, template⟩ := parts
      cases moving : moveInTemplate? template with
      | none =>
          left
          refine ⟨by simp only [move, found, moving], ?_⟩
          intro isPlane spec' template' storedSpec storedTemplate
          cases found.symm.trans (template?_eq_some_iff.mpr ⟨isPlane, storedSpec, storedTemplate⟩)
          exact moveInTemplate?_eq_none_iff.mp moving
      | some moved =>
          right
          exact ⟨spec, template, moved, rfl, moving, by simp only [move, found, moving]⟩

theorem move_of_settled (settled : Settled m) : move m = (m, false) := by
  rcases move_cases m with ⟨still, -⟩ | ⟨spec, template, moved, found, moving, -⟩
  · exact still
  · obtain ⟨isPlane, storedSpec, storedTemplate⟩ := template?_eq_some_iff.mp found
    have nothing := moveInTemplate?_eq_none_iff.mpr
      (settled isPlane spec template storedSpec storedTemplate)
    exact nomatch nothing.symm.trans moving

theorem settled_of_move (still : (move m).2 = false) : Settled m := by
  rcases move_cases m with ⟨-, settled⟩ | ⟨spec, template, moved, -, -, fires⟩
  · exact settled
  · rw [fires] at still
    cases still

theorem settled_move (m : Mapping) : Settled (move m).1 := by
  rcases move_cases m with ⟨still, settled⟩ | ⟨spec, template, moved, -, moving, fires⟩
  · rw [still]
    exact settled
  · rw [fires]
    intro _ spec' template' storedSpec storedTemplate
    simp only [Dict.get?_insert_self, Option.some.injEq, Node.mapping.injEq] at storedSpec
    subst storedSpec
    simp only [Dict.get?_insert_self, Option.some.injEq, Node.mapping.injEq] at storedTemplate
    exact storedTemplate ▸ templateSettled_of_moved moving

theorem get?_move_of_ne {other : String} (differs : other ≠ "spec") :
    (move m).1.get? other = m.get? other := by
  rcases move_cases m with ⟨still, -⟩ | ⟨spec, template, moved, -, -, fires⟩
  · rw [still]
  · rw [fires]
    exact Dict.get?_insert_of_ne m _ differs

theorem holds_move {reference : Node} (holds : Holds reference m) : Holds reference (move m).1 := by
  obtain ⟨inner, stored, held⟩ := holds
  rcases move_cases m with ⟨still, -⟩ | ⟨spec, template, moved, found, -, fires⟩
  · rw [still]
    exact ⟨inner, stored, held⟩
  · obtain rfl : inner = spec := by
      simpa using stored.symm.trans (template?_eq_some_iff.mp found).2.1
    rw [fires]
    refine ⟨inner.insert "machineTemplate" (.mapping moved), Dict.get?_insert_self _ _ _, ?_⟩
    rw [Dict.get?_insert_of_ne _ _ (by decide), held]

theorem hasKind_move (name : String) : (move m).1.hasKind name = m.hasKind name :=
  Dict.hasKind_congr (Dict.string?_congr (get?_move_of_ne (by decide))) name

theorem wellKeyed_move (keyed : m.WellKeyed) : (move m).1.WellKeyed := by
  rcases move_cases m with ⟨still, -⟩ | ⟨spec, template, moved, found, moving, fires⟩
  · rw [still]
    exact keyed
  · rw [fires]
    obtain ⟨-, storedSpec, storedTemplate⟩ := template?_eq_some_iff.mp found
    have inSpec : spec.WellKeyed := keyed.of_get? storedSpec
    have inTemplate : moved.WellKeyed := wellKeyed_of_moved (inSpec.of_get? storedTemplate) moving
    exact keyed.insert _ (inSpec.insert _ inTemplate)

end ManifestMigration.TemplateReference
