import ManifestMigration.Proofs.Rule.Settled

/-! # What makes a rule look at a mapping

A rule declares its triggers: keys for three of the rules, kinds for the two others. A mapping without
them is settled for the rule, whatever else it holds (`Rule.Overlooks.settled`), and so the rule leaves
it alone.
-/

namespace ManifestMigration.Rule

variable {rule : Rule} {m : Mapping}

/-- The mapping has no trigger of the rule where the rule looks for one: three rules look at keys, and
    two look at the kind. -/
def Overlooks (rule : Rule) (m : Mapping) : Prop :=
  match rule with
  | argumentList | groupReference | emptyEndpoint =>
    ∀ trigger ∈ rule.triggers, m.contains trigger = false
  | healthCheck | templateReference => ∀ trigger ∈ rule.triggers, m.hasKind trigger = false

/-- The mapping has none of the triggers of the rule, neither as a key nor as its kind. -/
def Untriggered (rule : Rule) (m : Mapping) : Prop :=
  ∀ trigger ∈ rule.triggers, m.contains trigger = false ∧ m.hasKind trigger = false

instance : Decidable (rule.Untriggered m) :=
  inferInstanceAs (Decidable (∀ trigger ∈ rule.triggers, _))

theorem Untriggered.overlooks (untriggered : rule.Untriggered m) : rule.Overlooks m := by
  cases rule with
  | argumentList | groupReference | emptyEndpoint =>
      intro trigger declared
      exact (untriggered trigger declared).1
  | healthCheck | templateReference =>
      intro trigger declared
      exact (untriggered trigger declared).2

def triggerKeys : List String :=
  ["extraArgs", "kubeletExtraArgs", "infrastructureRef", "controlPlaneRef", "configRef",
    "controlPlaneEndpoint"]

/-- No rule looks at a mapping that has none of the keys and neither of the two kinds. -/
theorem overlooks_of_plain (plain : ∀ key ∈ triggerKeys, m.contains key = false)
    (notCheck : m.hasKind HealthCheck.kind = false)
    (notPlane : m.hasKind TemplateReference.kind = false) : rule.Overlooks m := by
  have absent (among : ∀ trigger ∈ rule.triggers, trigger ∈ triggerKeys) :
      ∀ trigger ∈ rule.triggers, m.contains trigger = false :=
    fun trigger declared => plain trigger (among trigger declared)
  cases rule with
  | argumentList | groupReference | emptyEndpoint => exact absent (by decide)
  | healthCheck => exact List.forall_mem_singleton.mpr notCheck
  | templateReference => exact List.forall_mem_singleton.mpr notPlane

/-- Where nothing triggers a rule, there is nothing for it to do. -/
theorem Overlooks.settled (overlooks : rule.Overlooks m) : rule.Settled m := by
  cases rule with
  | argumentList =>
      intro key declared value stored
      have absent : m.get? key = none := Dict.contains_eq_false_iff.mp (overlooks key declared)
      cases absent.symm.trans stored
  | groupReference =>
      intro key declared reference stored
      have absent : m.get? key = none := Dict.contains_eq_false_iff.mp (overlooks key declared)
      cases absent.symm.trans stored
  | emptyEndpoint =>
      intro endpoint stored
      have absent : m.get? Endpoint.key = none :=
        Dict.contains_eq_false_iff.mp (overlooks Endpoint.key List.mem_cons_self)
      cases absent.symm.trans stored
  | healthCheck =>
      intro isCheck
      have other : m.hasKind HealthCheck.kind = false :=
        overlooks HealthCheck.kind List.mem_cons_self
      cases other.symm.trans isCheck
  | templateReference =>
      intro isPlane
      have other : m.hasKind TemplateReference.kind = false :=
        overlooks TemplateReference.kind List.mem_cons_self
      cases other.symm.trans isPlane

end ManifestMigration.Rule
