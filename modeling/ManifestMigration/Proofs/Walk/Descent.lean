import ManifestMigration.Proofs.Rule.Settled
import ManifestMigration.Proofs.Walk.Parts

/-! # What is settled stays settled further down

After the rules have settled a mapping, the walk goes on with its values, and there the rules change
mappings that a rule for the mapping above looks into. But a walk keeps the shape of what it goes
through, it keeps strings, and no rule changes one of the fields by which the rules above decide. So
it leaves settled what was settled.
-/

namespace ManifestMigration

/-! ## What a list of rules keeps -/

namespace Rule

variable {rules : List Rule} {m : Mapping}

theorem get?_left_applyAll_of_notMem {key : String} (outside : key ∉ writtenKeys) :
    (applyAll rules m).left.get? key = m.get? key := by
  refine Revision.run_invariant (P := fun m' => m'.get? key = m.get? key) ?_ rfl
  intro rule _ m' same
  have untouched : key ∉ rule.writes := fun member => outside (mem_writtenKeys member)
  rw [get?_left_apply_of_notMem untouched, same]

theorem contains_reference_left_applyAll :
    (applyAll rules m).left.contains TemplateReference.key = m.contains TemplateReference.key := by
  refine Revision.run_invariant
    (P := fun m' => m'.contains TemplateReference.key = m.contains TemplateReference.key) ?_ rfl
  intro rule _ m' same
  rw [contains_reference_left_apply, same]

theorem hasInner_left_applyAll (has : TemplateReference.HasInner m) :
    TemplateReference.HasInner (applyAll rules m).left :=
  Revision.run_invariant (fun _ _ _ => hasInner_left_apply) has

end Rule

/-! ## What a walk keeps -/

namespace Node

variable {rules : List Rule} {node : Node}

theorem shape_left_transform (accepted : (node.transform rules).refusal? = none) :
    (node.transform rules).left.shape = node.shape := by
  cases node with
  | mapping m => rw [left_transform_mapping accepted, shape, shape]
  | sequence items => rw [left_transform_sequence accepted, shape, shape]
  | scalar value => rw [transform_scalar]; rfl

theorem string?_left_transform (accepted : (node.transform rules).refusal? = none) :
    (node.transform rules).left.string? = node.string? := by
  cases node with
  | mapping m => rw [left_transform_mapping accepted]; rfl
  | sequence items => rw [left_transform_sequence accepted]; rfl
  | scalar value => rw [transform_scalar]; rfl

theorem left_transform_eq_mapping (accepted : (node.transform rules).refusal? = none)
    {after : Mapping} (left : (node.transform rules).left = .mapping after) :
    ∃ before, node = .mapping before ∧ after = before.walked rules := by
  cases node with
  | mapping before =>
      rw [left_transform_mapping accepted] at left
      exact ⟨before, rfl, (Node.mapping.inj left).symm⟩
  | sequence items =>
      rw [left_transform_sequence accepted] at left
      cases left
  | scalar value =>
      rw [transform_scalar] at left
      cases left

end Node

namespace Dict

variable {rules : List Rule} {m : Mapping} {key : String}

theorem get?_descend_eq_some
    (inside : ∀ entry ∈ m.entries, (entry.2.transform rules).refusal? = none) {after : Node}
    (found : (m.descend rules).get? key = some after) :
    ∃ before, m.get? key = some before ∧ (before.transform rules).refusal? = none ∧
      after = (before.transform rules).left := by
  rw [descend, get?_mapValues, Option.map_eq_some_iff] at found
  obtain ⟨before, stored, rfl⟩ := found
  exact ⟨before, stored, inside _ (mem_of_get? stored), rfl⟩

/-- A mapping below a mapping was a mapping before the walk. -/
theorem get?_descend_eq_mapping
    (inside : ∀ entry ∈ m.entries, (entry.2.transform rules).refusal? = none) {after : Mapping}
    (found : (m.descend rules).get? key = some (.mapping after)) :
    ∃ before, m.get? key = some (.mapping before) ∧
      ((Node.mapping before).transform rules).refusal? = none ∧ after = before.walked rules := by
  obtain ⟨node, stored, accepted, left⟩ := get?_descend_eq_some inside found
  obtain ⟨before, rfl, rfl⟩ := Node.left_transform_eq_mapping accepted left.symm
  exact ⟨before, stored, accepted, rfl⟩

theorem get?_descend_of_mapping
    (inside : ∀ entry ∈ m.entries, (entry.2.transform rules).refusal? = none) {before : Mapping}
    (stored : m.get? key = some (.mapping before)) :
    (m.descend rules).get? key = some (.mapping (before.walked rules)) := by
  rw [descend, get?_mapValues, stored]
  exact congrArg some (Node.left_transform_mapping (inside _ (mem_of_get? stored)))

theorem contains_descend : (m.descend rules).contains key = m.contains key :=
  contains_mapValues _ m key

theorem string?_descend
    (inside : ∀ entry ∈ m.entries, (entry.2.transform rules).refusal? = none) :
    (m.descend rules).string? key = m.string? key := by
  rw [string?, string?, descend, get?_mapValues]
  cases stored : m.get? key with
  | none => rfl
  | some value => exact Node.string?_left_transform (inside _ (mem_of_get? stored))

theorem hasKind_descend
    (inside : ∀ entry ∈ m.entries, (entry.2.transform rules).refusal? = none) (name : String) :
    (m.descend rules).hasKind name = m.hasKind name :=
  hasKind_congr (string?_descend inside) name

/-! A walk through a mapping keeps the fields that no rule changes, up to what it does inside. -/

theorem inside_of_accepted (accepted : ((Node.mapping m).transform rules).refusal? = none) :
    ∀ entry ∈ (Rule.applyAll rules m).left.entries, (entry.2.transform rules).refusal? = none :=
  (Node.refusal?_transform_mapping.mp accepted).2

theorem contains_walked (outside : key ∉ Rule.writtenKeys) :
    (m.walked rules).contains key = m.contains key := by
  rw [walked, contains_descend, contains, Rule.get?_left_applyAll_of_notMem outside, contains]

theorem string?_walked (accepted : ((Node.mapping m).transform rules).refusal? = none)
    (outside : key ∉ Rule.writtenKeys) : (m.walked rules).string? key = m.string? key := by
  rw [walked, string?_descend (inside_of_accepted accepted)]
  exact string?_congr (Rule.get?_left_applyAll_of_notMem outside)

theorem get?_walked_eq_mapping (accepted : ((Node.mapping m).transform rules).refusal? = none)
    (outside : key ∉ Rule.writtenKeys) {after : Mapping}
    (found : (m.walked rules).get? key = some (.mapping after)) :
    ∃ before, m.get? key = some (.mapping before) ∧
      ((Node.mapping before).transform rules).refusal? = none ∧ after = before.walked rules := by
  obtain ⟨before, stored, rest⟩ := get?_descend_eq_mapping (inside_of_accepted accepted) found
  exact ⟨before, Rule.get?_left_applyAll_of_notMem outside ▸ stored, rest⟩

theorem contains_reference_walked :
    (m.walked rules).contains TemplateReference.key = m.contains TemplateReference.key := by
  rw [walked, contains_descend, Rule.contains_reference_left_applyAll]

end Dict

/-! ## Settled mappings and the walks through their values -/

section Settled

variable {rules : List Rule} {m : Mapping}
  (inside : ∀ entry ∈ m.entries, (entry.2.transform rules).refusal? = none)

include inside

theorem ArgumentList.settled_descend (settled : Settled m) : Settled (m.descend rules) := by
  intro key member after found
  obtain ⟨before, stored, accepted, rfl⟩ := Dict.get?_descend_eq_some inside found
  rw [Node.shape_left_transform accepted]
  exact settled key member before stored

theorem GroupReference.settled_descend (settled : Settled m) : Settled (m.descend rules) := by
  intro key member after found
  obtain ⟨reference, stored, accepted, rfl⟩ := Dict.get?_descend_eq_mapping inside found
  obtain ⟨noVersion, grouped⟩ := settled key member reference stored
  constructor
  · rw [Dict.contains_walked (by decide)]
    exact noVersion
  · rw [Dict.contains_walked (by decide)]
    refine grouped.imp_right fun unknown => ?_
    rw [inferGroup?_eq_none_iff] at unknown ⊢
    rw [Dict.string?_walked accepted (by decide), Dict.string?_walked accepted (by decide)]
    exact unknown

theorem Endpoint.settled_descend (settled : Settled m) : Settled (m.descend rules) := by
  intro after found
  obtain ⟨endpoint, stored, accepted, rfl⟩ := Dict.get?_descend_eq_mapping inside found
  obtain ⟨host, storedHost, notBlank⟩ := settled endpoint stored
  have kept : (endpoint.walked rules).contains "host" = true := by
    rw [Dict.contains_walked (by decide)]
    exact Dict.contains_eq_true_iff.mpr ⟨host, storedHost⟩
  obtain ⟨host', storedHost'⟩ := Dict.contains_eq_true_iff.mp kept
  refine ⟨host', storedHost', ?_⟩
  rintro text rfl
  -- A string that a walk leaves was there before.
  have texts : (endpoint.walked rules).string? "host" = some text := by
    rw [Dict.string?, storedHost']
    rfl
  rw [Dict.string?_walked accepted (by decide), Dict.string?, storedHost] at texts
  cases host with
  | scalar value =>
      cases value with
      | string old =>
          obtain rfl : old = text := Option.some.inj texts
          exact notBlank old rfl
      | _ => cases texts
  | _ => cases texts

theorem HealthCheck.settled_descend (settled : Settled m) : Settled (m.descend rules) := by
  intro isCheck after found key legacy
  rw [Dict.hasKind_descend inside] at isCheck
  obtain ⟨spec, stored, accepted, rfl⟩ := Dict.get?_descend_eq_mapping inside found
  have unwritten : key ∉ Rule.writtenKeys := by
    revert key
    decide
  rw [← Dict.contains_eq_false_iff, Dict.contains_walked unwritten, Dict.contains_eq_false_iff]
  exact settled isCheck spec stored key legacy

theorem TemplateReference.hasInner_descend (has : HasInner m) : HasInner (m.descend rules) := by
  obtain ⟨inner, stored, holds⟩ := has
  refine ⟨inner.walked rules, Dict.get?_descend_of_mapping inside stored, ?_⟩
  rw [Dict.contains_reference_walked]
  exact holds

theorem TemplateReference.settled_descend (settled : Settled m) : Settled (m.descend rules) := by
  intro isPlane spec' template' foundSpec foundTemplate holds
  rw [Dict.hasKind_descend inside] at isPlane
  -- The spec and the template that are found come from a spec and a template before the walk: no
  -- rule puts a template into a spec.
  obtain ⟨spec, storedSpec, acceptedSpec, rfl⟩ := Dict.get?_descend_eq_mapping inside foundSpec
  obtain ⟨template, storedTemplate, acceptedTemplate, rfl⟩ :=
    Dict.get?_walked_eq_mapping acceptedSpec (by decide) foundTemplate
  rw [Dict.contains_reference_walked] at holds
  have inner : HasInner template := settled isPlane spec template storedSpec storedTemplate holds
  exact hasInner_descend (Dict.inside_of_accepted acceptedTemplate)
    (Rule.hasInner_left_applyAll inner)

theorem Rule.settled_descend {rule : Rule} (settled : rule.Settled m) :
    rule.Settled (m.descend rules) := by
  cases rule with
  | argumentList => exact ArgumentList.settled_descend inside settled
  | groupReference => exact GroupReference.settled_descend inside settled
  | emptyEndpoint => exact Endpoint.settled_descend inside settled
  | healthCheck => exact HealthCheck.settled_descend inside settled
  | templateReference => exact TemplateReference.settled_descend inside settled

end Settled

end ManifestMigration
