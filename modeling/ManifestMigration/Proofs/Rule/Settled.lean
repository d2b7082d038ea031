import ManifestMigration.Proofs.Document.Equality
import ManifestMigration.Proofs.Rule.ArgumentList
import ManifestMigration.Proofs.Rule.Endpoint
import ManifestMigration.Proofs.Rule.GroupReference
import ManifestMigration.Proofs.Rule.HealthCheck
import ManifestMigration.Proofs.Rule.TemplateReference

/-! # Settled mappings

A mapping is migrated when it is settled for each of the built-in rules. Rules look at few fields
and change fewer, so they settle a mapping in any order: no rule unsettles it for another one. The
two rules that change the same field look at different kinds.
-/

namespace ManifestMigration

def Rule.Settled : Rule → Mapping → Prop
  | argumentList => ArgumentList.Settled
  | groupReference => GroupReference.Settled
  | emptyEndpoint => Endpoint.Settled
  | healthCheck => HealthCheck.Settled
  | templateReference => TemplateReference.Settled

/-- A mapping in its migrated shape. -/
structure Migrated (m : Mapping) : Prop where
  arguments : ArgumentList.Settled m
  references : GroupReference.Settled m
  endpoint : Endpoint.Settled m
  healthCheck : HealthCheck.Settled m
  controlPlane : TemplateReference.Settled m

theorem migrated_iff {m : Mapping} : Migrated m ↔ ∀ rule ∈ Rule.all, rule.Settled m := by
  constructor
  · intro migrated rule _
    cases rule with
    | argumentList => exact migrated.arguments
    | groupReference => exact migrated.references
    | emptyEndpoint => exact migrated.endpoint
    | healthCheck => exact migrated.healthCheck
    | templateReference => exact migrated.controlPlane
  · intro settled
    exact ⟨settled _ (Rule.mem_all .argumentList), settled _ (Rule.mem_all .groupReference),
      settled _ (Rule.mem_all .emptyEndpoint), settled _ (Rule.mem_all .healthCheck),
      settled _ (Rule.mem_all .templateReference)⟩

namespace Rule

variable {rule : Rule} {m : Mapping}

/-! ## Fields that rules look at and change -/

/-- The keys whose fields decide whether a mapping is settled. -/
def reads : Rule → List String
  | argumentList => ArgumentList.keys
  | groupReference => GroupReference.keys
  | emptyEndpoint => [Endpoint.key]
  | healthCheck | templateReference => ["kind", "spec"]

/-- The keys whose fields the rule may change. -/
def writes : Rule → List String
  | argumentList => ArgumentList.keys
  | groupReference => GroupReference.keys
  | emptyEndpoint => [Endpoint.key]
  | healthCheck | templateReference => ["spec"]

def writtenKeys : List String := all.flatMap writes

theorem mem_writtenKeys {key : String} (member : key ∈ rule.writes) : key ∈ writtenKeys :=
  List.mem_flatMap.mpr ⟨rule, mem_all rule, member⟩

theorem get?_left_apply_of_notMem {other : String} (outside : other ∉ rule.writes) :
    (rule.apply m).left.get? other = m.get? other := by
  cases rule with
  | argumentList => exact ArgumentList.get?_left_convert_of_notMem outside
  | groupReference => exact GroupReference.get?_left_revise_of_notMem outside
  | emptyEndpoint => exact Endpoint.get?_prune_of_ne (mt List.mem_singleton.mpr outside)
  | healthCheck => exact HealthCheck.get?_restructure_of_ne (mt List.mem_singleton.mpr outside)
  | templateReference => exact TemplateReference.get?_move_of_ne (mt List.mem_singleton.mpr outside)

/-- No rule takes a reference out of the mapping that it revises. -/
theorem contains_reference_left_apply :
    (rule.apply m).left.contains TemplateReference.key = m.contains TemplateReference.key := by
  by_cases isGroup : rule = .groupReference
  · subst isGroup
    exact GroupReference.contains_left_revise _
  · have outside : TemplateReference.key ∉ rule.writes := by
      cases rule <;> revert isGroup <;> decide
    rw [Dict.contains, get?_left_apply_of_notMem outside, Dict.contains]

/-- No rule changes a reference in the spec of the mapping that it revises. -/
theorem holds_left_apply {reference : Node} (holds : TemplateReference.Holds reference m) :
    TemplateReference.Holds reference (rule.apply m).left := by
  obtain ⟨inner, stored, held⟩ := holds
  have frame (outside : "spec" ∉ rule.writes) :
      TemplateReference.Holds reference (rule.apply m).left :=
    ⟨inner, (get?_left_apply_of_notMem outside).trans stored, held⟩
  cases rule with
  | argumentList => exact frame (by decide)
  | groupReference => exact frame (by decide)
  | emptyEndpoint => exact frame (by decide)
  | healthCheck =>
      obtain ⟨spec', stored', same⟩ := HealthCheck.get?_spec_restructure stored
      exact ⟨spec', stored', (same _ (by decide)).trans held⟩
  | templateReference => exact TemplateReference.holds_move ⟨inner, stored, held⟩

theorem hasInner_left_apply (has : TemplateReference.HasInner m) :
    TemplateReference.HasInner (rule.apply m).left := by
  rw [TemplateReference.hasInner_iff] at has ⊢
  obtain ⟨reference, holds⟩ := has
  exact ⟨reference, holds_left_apply holds⟩

theorem hasKind_unique {first second : String} (one : m.hasKind first = true)
    (other : m.hasKind second = true) : first = second := by
  simp only [Dict.hasKind, beq_iff_eq] at one other
  exact Option.some.inj (one.symm.trans other)

/-- Being settled depends on the fields that are read. -/
theorem Settled.congr {m' : Mapping} (settled : rule.Settled m)
    (same : ∀ key ∈ rule.reads, m'.get? key = m.get? key) : rule.Settled m' := by
  cases rule with
  | argumentList =>
      intro key member value found
      exact settled key member value (same key member ▸ found)
  | groupReference =>
      intro key member reference found
      exact settled key member reference (same key member ▸ found)
  | emptyEndpoint =>
      intro endpoint found
      exact settled endpoint (same Endpoint.key List.mem_cons_self ▸ found)
  | healthCheck =>
      intro isCheck spec found
      rw [Dict.hasKind_congr (Dict.string?_congr (same "kind" (by decide)))] at isCheck
      exact settled isCheck spec (same "spec" (by decide) ▸ found)
  | templateReference =>
      intro isPlane spec template found
      rw [Dict.hasKind_congr (Dict.string?_congr (same "kind" (by decide)))] at isPlane
      exact settled isPlane spec template (same "spec" (by decide) ▸ found)

/-! ## One rule after the other -/

theorem wellKeyed_left_apply (keyed : m.WellKeyed) : (rule.apply m).left.WellKeyed := by
  cases rule with
  | argumentList => exact ArgumentList.wellKeyed_left_convert keyed
  | groupReference => exact GroupReference.wellKeyed_left_revise keyed
  | emptyEndpoint => exact Endpoint.wellKeyed_prune keyed
  | healthCheck => exact HealthCheck.wellKeyed_restructure keyed
  | templateReference => exact TemplateReference.wellKeyed_move keyed

theorem apply_of_settled (settled : rule.Settled m) : rule.apply m = .unchanged m := by
  cases rule with
  | argumentList => exact ArgumentList.convert_of_settled settled
  | groupReference => exact GroupReference.revise_of_settled settled
  | emptyEndpoint => exact congrArg Revision.settled (Endpoint.prune_of_settled settled)
  | healthCheck => exact congrArg Revision.settled (HealthCheck.restructure_of_settled settled)
  | templateReference => exact congrArg Revision.settled (TemplateReference.move_of_settled settled)

theorem settled_of_apply (still : (rule.apply m).outcome = .ok false) : rule.Settled m := by
  cases rule with
  | argumentList => exact ArgumentList.settled_of_convert still
  | groupReference => exact GroupReference.settled_of_revise still
  | emptyEndpoint => exact Endpoint.settled_of_prune (Except.ok.inj still)
  | healthCheck => exact HealthCheck.settled_of_restructure (Except.ok.inj still)
  | templateReference => exact TemplateReference.settled_of_move (Except.ok.inj still)

theorem settled_iff_apply : rule.Settled m ↔ (rule.apply m).outcome = .ok false := by
  constructor
  · intro settled
    rw [apply_of_settled settled]
    rfl
  · exact settled_of_apply

instance : Decidable (rule.Settled m) := decidable_of_iff _ settled_iff_apply.symm

theorem settled_left_apply (keyed : m.WellKeyed) {changed : Bool}
    (done : (rule.apply m).outcome = .ok changed) : rule.Settled (rule.apply m).left := by
  cases rule with
  | argumentList => exact ArgumentList.settled_left_convert keyed done
  | groupReference => exact GroupReference.settled_left_revise keyed
  | emptyEndpoint => exact Endpoint.settled_prune keyed
  | healthCheck => exact HealthCheck.settled_restructure keyed
  | templateReference => exact TemplateReference.settled_move m

/-- A mapping of one kind is settled for the rule about the other kind. -/
theorem healthCheck_settled_of_hasKind (isPlane : m.hasKind TemplateReference.kind = true) :
    Settled .healthCheck m := by
  intro isCheck
  exact absurd (hasKind_unique isPlane isCheck) (by decide)

theorem templateReference_settled_of_hasKind (isCheck : m.hasKind HealthCheck.kind = true) :
    Settled .templateReference m := by
  intro isPlane
  exact absurd (hasKind_unique isPlane isCheck) (by decide)

theorem settled_keeps {other : Rule} (differs : other ≠ rule) (settled : other.Settled m) :
    other.Settled (rule.apply m).left := by
  -- Only the two rules about kinds write what the other one reads.
  by_cases apart : ∀ key ∈ other.reads, key ∉ rule.writes
  · exact settled.congr fun key member => get?_left_apply_of_notMem (apart key member)
  · have kinds : (other = .healthCheck ∧ rule = .templateReference) ∨
        (other = .templateReference ∧ rule = .healthCheck) := by
      cases other <;> cases rule <;> revert differs apart <;> decide
    rcases kinds with ⟨rfl, rfl⟩ | ⟨rfl, rfl⟩
    · by_cases isPlane : m.hasKind TemplateReference.kind = true
      · exact healthCheck_settled_of_hasKind ((TemplateReference.hasKind_move _).trans isPlane)
      · have still : Settled .templateReference m := fun isOne => absurd isOne isPlane
        rw [apply_of_settled still]
        exact settled
    · by_cases isCheck : m.hasKind HealthCheck.kind = true
      · exact templateReference_settled_of_hasKind
          ((HealthCheck.hasKind_restructure _).trans isCheck)
      · have still : Settled .healthCheck m := fun isOne => absurd isOne isCheck
        rw [apply_of_settled still]
        exact settled

theorem settling : Revision.Settling Dict.WellKeyed apply Settled where
  good := wellKeyed_left_apply
  still := apply_of_settled
  settled_of_still := settled_of_apply
  settles := fun keyed done => settled_left_apply keyed done
  keeps := settled_keeps

end Rule

end ManifestMigration
