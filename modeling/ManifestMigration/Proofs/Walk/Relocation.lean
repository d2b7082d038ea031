import ManifestMigration.Proofs.Document.Paths
import ManifestMigration.Proofs.Rule.Regrouping
import ManifestMigration.Proofs.Walk.Settled

/-! # References that move

A rule about control planes moves the reference of a machine template into the template's own spec.
The walk comes there later, through a spec and a template in which other rules may fire, and only
then is the reference normalized and walked through. None of these rules changes it before that, so
the walk makes of it what it makes of a reference in a document of its own
(`Node.reference_relocated`).
-/

namespace ManifestMigration

variable {rules : List Rule} {m template : Mapping} {name : String} {reference : Node}

/-! ## One mapping -/

namespace Rule

/-- The rules normalize references, wherever they come in the list. -/
theorem get?_reference_left_applyAll (keyed : m.WellKeyed) (member : .groupReference ∈ rules)
    {changed : Bool} (done : (applyAll rules m).outcome = .ok changed)
    (named : name ∈ GroupReference.keys) :
    (applyAll rules m).left.get? name = (m.get? name).map GroupReference.regroup := by
  have alone : "kind" ∉ reads .groupReference := by decide
  rw [applyAll, get?_left_run_of_reads keyed member
    (fun _ differs => .inl (notMem_writes_of_ne alone differs)) done named]
  exact GroupReference.get?_left_revise named

/-- The rules move the reference of a control plane, wherever they come in the list. -/
theorem get?_spec_left_applyAll (keyed : m.WellKeyed)
    (isPlane : m.hasKind TemplateReference.kind = true) (member : .templateReference ∈ rules)
    {changed : Bool} (done : (applyAll rules m).outcome = .ok changed) :
    (applyAll rules m).left.get? "spec" = (TemplateReference.move m).1.get? "spec" := by
  refine get?_left_run_of_reads keyed member (fun other differs => ?_) done (by decide)
  by_cases isCheck : other = .healthCheck
  · subst isCheck
    refine .inr fun left kind => healthCheck_settled_of_hasKind ?_
    rwa [Dict.hasKind_congr (Dict.string?_congr kind)]
  · exact .inl (by cases other <;> revert differs isCheck <;> decide)

theorem holds_left_applyAll (holds : TemplateReference.Holds reference m) :
    TemplateReference.Holds reference (applyAll rules m).left :=
  Revision.run_invariant (fun _ _ _ => holds_left_apply) holds

end Rule

/-! ## The move -/

namespace TemplateReference

/-- The template's own spec has no reference, if there is such a spec. -/
def Vacant (template : Mapping) : Prop :=
  template.get? "spec" = none ∨
    ∃ inner, template.get? "spec" = some (.mapping inner) ∧ inner.get? key = none

theorem exists_moved (keyed : template.WellKeyed) (stored : template.get? key = some reference)
    (vacant : Vacant template) :
    ∃ moved, moveInTemplate? template = some moved ∧ moved.get? key = none ∧
      Holds reference moved := by
  have free : (template.child "spec").contains key = false := by
    rcases vacant with absent | ⟨inner, found, lacks⟩
    · rw [Dict.child, absent]
      rfl
    · rw [Dict.child, found]
      exact Dict.contains_eq_false_iff.mpr lacks
  refine ⟨(template.erase key).insert "spec"
    (.mapping ((template.child "spec").insert key reference)), ?_, ?_, ?_⟩
  · simp only [moveInTemplate?, free, Bool.false_eq_true, if_false, stored]
  · rw [Dict.get?_insert_of_ne _ _ (by decide), Dict.get?_erase_self keyed.nodup]
  · exact ⟨_, Dict.get?_insert_self _ _ _, Dict.get?_insert_self _ _ _⟩

theorem get?_spec_move {spec moved : Mapping} (found : template? m = some (spec, template))
    (moving : moveInTemplate? template = some moved) :
    (move m).1.get? "spec" =
      some (.mapping (spec.insert "machineTemplate" (.mapping moved))) := by
  simp only [move, found, moving, Dict.get?_insert_self]

end TemplateReference

/-! ## Walks to a reference -/

namespace Node

/-- What the rules leave under a key the walk goes on with, and what it leaves there it leaves. -/
theorem at?_left_transform (accepted : ((mapping m).transform rules).refusal? = none) {value : Node}
    (stored : (Rule.applyAll rules m).left.get? name = some value) :
    (value.transform rules).refusal? = none ∧
      ∀ rest, ((mapping m).transform rules).left.at? (.key name :: rest) =
        (value.transform rules).left.at? rest := by
  refine ⟨Dict.inside_of_accepted accepted _ (Dict.mem_of_get? stored), fun rest => ?_⟩
  rw [left_transform_mapping accepted, at?_key, Dict.walked, Dict.descend, Dict.get?_mapValues,
    stored]
  rfl

theorem at?_reference_left_transform (keyed : m.WellKeyed)
    (accepted : ((mapping m).transform rules).refusal? = none) (member : .groupReference ∈ rules)
    (named : name ∈ GroupReference.keys) (stored : m.get? name = some reference) :
    ((GroupReference.regroup reference).transform rules).refusal? = none ∧
      ((mapping m).transform rules).left.at? [.key name] =
        some ((GroupReference.regroup reference).transform rules).left := by
  obtain ⟨⟨changed, done⟩, -⟩ := refusal?_transform_mapping.mp accepted
  have regrouped := Rule.get?_reference_left_applyAll keyed member done named
  rw [stored, Option.map_some] at regrouped
  obtain ⟨inside, below⟩ := at?_left_transform accepted regrouped
  exact ⟨inside, (below []).trans (at?_nil _)⟩

theorem accepted_of_left {left : Mapping} {changed : Bool}
    (done : (Rule.applyAll rules m).outcome = .ok changed)
    (leaves : (Rule.applyAll rules m).left = left)
    (inside : ∀ entry ∈ left.entries, (entry.2.transform rules).refusal? = none) :
    ((mapping m).transform rules).refusal? = none := by
  rw [refusal?_transform_mapping, leaves]
  exact ⟨⟨changed, done⟩, inside⟩

/-- A document of one reference is refused only for what is in it. -/
theorem transform_reference
    (inside : ((GroupReference.regroup reference).transform Rule.all).refusal? = none) :
    ((mapping ⟨[("infrastructureRef", reference)]⟩).transform Rule.all).refusal? = none ∧
      ((mapping ⟨[("infrastructureRef", reference)]⟩).transform Rule.all).left =
        mapping ⟨[("infrastructureRef",
          ((GroupReference.regroup reference).transform Rule.all).left)]⟩ := by
  obtain ⟨changed, applied⟩ : ∃ changed, Rule.applyAll Rule.all ⟨[("infrastructureRef", reference)]⟩ =
      ⟨⟨[("infrastructureRef", GroupReference.regroup reference)]⟩, .ok changed⟩ := by
    cases reference with
    | mapping fields => exact ⟨_, rfl⟩
    | sequence items => exact ⟨_, rfl⟩
    | scalar value => exact ⟨_, rfl⟩
  have accepted : ((mapping ⟨[("infrastructureRef", reference)]⟩).transform Rule.all).refusal? =
      none := accepted_of_left (congrArg Revision.outcome applied) (congrArg Revision.left applied)
        (by simpa using inside)
  refine ⟨accepted, ?_⟩
  rw [left_transform_mapping accepted, Dict.walked, applied]
  rfl

/-- A reference that moves into the spec of a control plane's machine template ends up there as it
    ends up in a document of its own. -/
theorem reference_relocated {spec : Mapping} (keyed : m.WellKeyed)
    (isPlane : m.get? "kind" = some (.string "KubeadmControlPlane"))
    (inSpec : m.get? "spec" = some (.mapping spec))
    (inTemplate : spec.get? "machineTemplate" = some (.mapping template))
    (stored : template.get? "infrastructureRef" = some reference)
    (vacant : TemplateReference.Vacant template) {changed : Bool}
    (done : ((mapping m).transform Rule.all).outcome = .ok changed) :
    ∃ changed' reference',
      ((mapping ⟨[("infrastructureRef", reference)]⟩).transform Rule.all).outcome = .ok changed' ∧
      ((mapping ⟨[("infrastructureRef", reference)]⟩).transform Rule.all).left =
        mapping ⟨[("infrastructureRef", reference')]⟩ ∧
      ((mapping m).transform Rule.all).left.at?
        [.key "spec", .key "machineTemplate", .key "infrastructureRef"] = none ∧
      ((mapping m).transform Rule.all).left.at?
        [.key "spec", .key "machineTemplate", .key "spec", .key "infrastructureRef"] =
          some reference' := by
  have accepted : ((mapping m).transform Rule.all).refusal? = none :=
    (Walked.outcome_eq_ok_iff.mp done).1
  obtain ⟨⟨fired, applied⟩, -⟩ := refusal?_transform_mapping.mp accepted
  have plane : m.hasKind TemplateReference.kind = true := by
    simp [Dict.hasKind, Dict.string?, isPlane, string?, TemplateReference.kind]
  have keyedSpec : spec.WellKeyed := keyed.of_get? inSpec
  have keyedTemplate : template.WellKeyed := keyedSpec.of_get? inTemplate
  obtain ⟨moved, moving, gone, holds⟩ :=
    TemplateReference.exists_moved keyedTemplate stored vacant
  -- The control plane: the reference moves.
  have found := TemplateReference.template?_eq_some_iff.mpr ⟨plane, inSpec, inTemplate⟩
  have atSpec := Rule.get?_spec_left_applyAll keyed plane (Rule.mem_all _) applied
  rw [TemplateReference.get?_spec_move found moving] at atSpec
  obtain ⟨acceptedSpec, belowSpec⟩ := at?_left_transform accepted atSpec
  -- Its spec: no rule changes the template there.
  have atTemplate : (Rule.applyAll Rule.all
      (spec.insert "machineTemplate" (.mapping moved))).left.get? "machineTemplate" =
        some (.mapping moved) :=
    (Rule.get?_left_applyAll_of_notMem (by decide)).trans (Dict.get?_insert_self _ _ _)
  obtain ⟨acceptedTemplate, belowTemplate⟩ := at?_left_transform acceptedSpec atTemplate
  -- The template: no rule changes the reference in its spec.
  obtain ⟨inner, atInner, held⟩ :
      TemplateReference.Holds reference (Rule.applyAll Rule.all moved).left :=
    Rule.holds_left_applyAll holds
  have keyedInner : inner.WellKeyed :=
    (Rule.wellKeyed_left_applyAll
      (TemplateReference.wellKeyed_of_moved keyedTemplate moving)).of_get? atInner
  obtain ⟨acceptedInner, belowInner⟩ := at?_left_transform acceptedTemplate atInner
  -- Its spec: the reference is normalized and walked through, as in a document of its own.
  obtain ⟨inside, below⟩ :=
    at?_reference_left_transform keyedInner acceptedInner (Rule.mem_all _) (by decide) held
  obtain ⟨alone, leftAlone⟩ := transform_reference inside
  refine ⟨_, _, Walked.outcome_eq_ok_iff.mpr ⟨alone, rfl⟩, leftAlone, ?_, ?_⟩
  · rw [belowSpec, belowTemplate, left_transform_mapping acceptedTemplate, at?_field,
      ← Dict.contains_eq_false_iff]
    exact Dict.contains_reference_walked.trans (Dict.contains_eq_false_iff.mpr gone)
  · rw [belowSpec, belowTemplate, belowInner]
    exact below

/-- The template says that it is a health check, and its spec is restructured on the way. -/
theorem reference_relocated_check :
    let reference := mapping ⟨[("kind", .string "HCloudMachineTemplate"),
      ("apiVersion", .string "infra.io/v1")]⟩
    let template : Mapping := ⟨[("kind", .string "MachineHealthCheck"),
      ("infrastructureRef", reference), ("spec", .mapping ⟨[("maxUnhealthy", .string "40%")]⟩)]⟩
    let m : Mapping := ⟨[("kind", .string "KubeadmControlPlane"),
      ("spec", .mapping ⟨[("machineTemplate", .mapping template)]⟩)]⟩
    m.WellKeyed ∧ TemplateReference.Vacant template ∧
      (∃ changed, ((mapping m).transform Rule.all).outcome = .ok changed) ∧
      ((mapping m).transform Rule.all).left.at?
        [.key "spec", .key "machineTemplate", .key "infrastructureRef"] = none ∧
      ((mapping m).transform Rule.all).left.at?
        [.key "spec", .key "machineTemplate", .key "spec", .key "infrastructureRef"] =
          some (.mapping ⟨[("kind", .string "HCloudMachineTemplate"),
            ("apiGroup", .string "infra.io")]⟩) := by
  intro reference template m
  have keyed : m.WellKeyed := by
    simp [m, template, reference, Dict.WellKeyed, wellKeyed_mapping, Dict.keys, wellKeyed_scalar]
  have vacant : TemplateReference.Vacant template := .inr ⟨_, rfl, by decide⟩
  -- No mapping on the way is refused, from the spec of the template up.
  let inner : Mapping := ⟨[("infrastructureRef", reference), ("remediation",
    .mapping ⟨[("triggerIf", .mapping ⟨[("unhealthyLessThanOrEqualTo", .string "40%")]⟩)]⟩)]⟩
  have innerDone : ((mapping inner).transform Rule.all).outcome = .ok true :=
    (transform_of_settled_values (by decide +kernel) (by decide +kernel)).1
  have innerAccepted := (Walked.outcome_eq_ok_iff.mp innerDone).1
  let moved : Mapping := ⟨[("kind", .string "MachineHealthCheck"), ("spec", .mapping
    ⟨[("maxUnhealthy", .string "40%"), ("infrastructureRef", reference)]⟩)]⟩
  have movedLeaves : (Rule.applyAll Rule.all moved).left =
      ⟨[("kind", .string "MachineHealthCheck"), ("spec", .mapping inner)]⟩ := by decide +kernel
  have movedDone : (Rule.applyAll Rule.all moved).outcome = .ok true := by decide +kernel
  have movedAccepted : ((mapping moved).transform Rule.all).refusal? = none :=
    accepted_of_left movedDone movedLeaves (by simp [transform_scalar, Walked.still, innerAccepted])
  let spec : Mapping := ⟨[("machineTemplate", .mapping moved)]⟩
  have specLeaves : (Rule.applyAll Rule.all spec).left = spec := by decide +kernel
  have specDone : (Rule.applyAll Rule.all spec).outcome = .ok false := by decide +kernel
  have specAccepted : ((mapping spec).transform Rule.all).refusal? = none :=
    accepted_of_left specDone specLeaves (by simp [spec, movedAccepted])
  have leaves : (Rule.applyAll Rule.all m).left =
      ⟨[("kind", .string "KubeadmControlPlane"), ("spec", .mapping spec)]⟩ := by decide +kernel
  have applied : (Rule.applyAll Rule.all m).outcome = .ok true := by decide +kernel
  have accepted : ((mapping m).transform Rule.all).refusal? = none :=
    accepted_of_left applied leaves (by simp [transform_scalar, Walked.still, specAccepted])
  have done := Walked.outcome_eq_ok_iff.mpr ⟨accepted, rfl⟩
  obtain ⟨_, reference', -, alone, gone, there⟩ :=
    reference_relocated keyed rfl rfl rfl rfl vacant done
  have settled : ((mapping ⟨[("infrastructureRef", reference)]⟩).transform Rule.all).outcome =
      .ok true ∧ _ := transform_of_settled_values (by decide +kernel) (by decide +kernel)
  have regrouped : (Rule.applyAll Rule.all ⟨[("infrastructureRef", reference)]⟩).left =
      ⟨[("infrastructureRef", .mapping ⟨[("kind", .string "HCloudMachineTemplate"),
        ("apiGroup", .string "infra.io")]⟩)]⟩ := by decide +kernel
  rw [settled.2, regrouped] at alone
  cases alone
  exact ⟨keyed, vacant, ⟨_, done⟩, gone, there⟩

end Node

end ManifestMigration
