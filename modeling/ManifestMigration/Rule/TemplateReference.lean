import ManifestMigration.Rule.Basic

/-! # The infrastructure reference of a control plane

In the machine template of a control plane the infrastructure reference stands in the template's
own spec. A reference that is there already wins over the one that would move.
-/

namespace ManifestMigration.TemplateReference

def kind : String := "KubeadmControlPlane"

/-- The key of the reference, before and after the move. -/
def key : String := "infrastructureRef"

/-- The template with its reference moved; none when there is nothing to move. -/
def moveInTemplate? (template : Mapping) : Option Mapping :=
  if (template.child "spec").contains key then none
  else
    match template.get? key with
    | none => none
    | some reference =>
      some ((template.erase key).insert "spec"
        (.mapping ((template.child "spec").insert key reference)))

/-- What a move comes from and what it makes. -/
theorem moveInTemplate?_eq_some {template moved : Mapping}
    (found : moveInTemplate? template = some moved) :
    ∃ reference, template.get? key = some reference ∧
      moved = (template.erase key).insert "spec"
        (.mapping ((template.child "spec").insert key reference)) := by
  unfold moveInTemplate? at found
  split at found
  · cases found
  · split at found
    · cases found
    · next reference stored => exact ⟨reference, stored, (Option.some.inj found).symm⟩

/-- The spec of a control plane and the machine template in it. -/
def template? (m : Mapping) : Option (Mapping × Mapping) :=
  if m.hasKind kind then
    match m.get? "spec" with
    | some (.mapping spec) =>
      match spec.get? "machineTemplate" with
      | some (.mapping template) => some (spec, template)
      | _ => none
    | _ => none
  else none

theorem template?_eq_some_iff {m spec template : Mapping} :
    template? m = some (spec, template) ↔
      m.hasKind kind = true ∧ m.get? "spec" = some (.mapping spec) ∧
        spec.get? "machineTemplate" = some (.mapping template) := by
  unfold template?
  split
  · next isPlane =>
      split
      · next spec' foundSpec =>
          split
          · next template' foundTemplate =>
              constructor
              · intro same
                cases same
                exact ⟨isPlane, foundSpec, foundTemplate⟩
              · rintro ⟨-, sameSpec, sameTemplate⟩
                obtain rfl : spec' = spec := by simpa using foundSpec.symm.trans sameSpec
                obtain rfl : template' = template := by
                  simpa using foundTemplate.symm.trans sameTemplate
                rfl
          · next other =>
              refine iff_of_false nofun ?_
              rintro ⟨-, sameSpec, sameTemplate⟩
              obtain rfl : spec' = spec := by simpa using foundSpec.symm.trans sameSpec
              exact other template sameTemplate
      · next other => exact iff_of_false nofun fun ⟨_, sameSpec, _⟩ => other spec sameSpec
  · next notPlane => exact iff_of_false nofun fun ⟨isPlane, _⟩ => notPlane isPlane

def move (m : Mapping) : Mapping × Bool :=
  match template? m with
  | none => (m, false)
  | some (spec, template) =>
    match moveInTemplate? template with
    | none => (m, false)
    | some template' =>
      (m.insert "spec" (.mapping (spec.insert "machineTemplate" (.mapping template'))), true)

def notes (m : Mapping) : List Note := if (move m).2 then [.referenceMoved] else []

end ManifestMigration.TemplateReference
