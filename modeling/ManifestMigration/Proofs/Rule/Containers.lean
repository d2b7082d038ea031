import ManifestMigration.Proofs.Document.Paths
import ManifestMigration.Proofs.Rule.HealthCheck
import ManifestMigration.Proofs.Rule.TemplateReference
import ManifestMigration.Rule.Apply

/-! # What stands where fields move to

A rule that moves fields stores them in a block of their own. Where the block is no mapping, nothing
can be stored in it, and the rule puts a new mapping in its place. So such a value is lost exactly
when there is something to move there, and the rules do not look at what they lose.
-/

namespace ManifestMigration

variable {m spec : Mapping} {value : Node} {key : String}

theorem Node.ne_mapping (shape : value.mapping? = none) (fields : Mapping) :
    value ≠ .mapping fields := by
  rintro rfl
  cases shape

namespace Dict

theorem hasChild_of_mapping?_eq_none (held : m.get? key = some value)
    (shape : value.mapping? = none) : m.hasChild key = false := by
  rw [hasChild, held]
  cases value with
  | mapping fields => cases shape
  | sequence items => rfl
  | scalar leaf => rfl

theorem child_of_get? {fields : Mapping} (stored : m.get? key = some (.mapping fields)) :
    m.child key = fields := by
  rw [child, stored]

theorem hasChild_of_get? {fields : Mapping} (stored : m.get? key = some (.mapping fields)) :
    m.hasChild key = true := by
  rw [hasChild, stored]

theorem hasChild_eq_true_iff :
    m.hasChild key = true ↔ ∃ fields, m.get? key = some (.mapping fields) := by
  unfold hasChild
  split
  · next fields stored => simp [stored]
  · next other => exact iff_of_false (by decide) fun ⟨fields, stored⟩ => other fields stored

def AbsentOrMapping (m : Mapping) (key : String) : Prop :=
  ∀ value, m.get? key = some value → ∃ fields, value = .mapping fields

theorem AbsentOrMapping.contains_iff (block : m.AbsentOrMapping key) :
    m.contains key = true ↔ m.hasChild key = true := by
  rw [contains_eq_true_iff, hasChild_eq_true_iff]
  constructor
  · rintro ⟨value, stored⟩
    obtain ⟨fields, rfl⟩ := block value stored
    exact ⟨fields, stored⟩
  · rintro ⟨fields, stored⟩
    exact ⟨_, stored⟩

end Dict

/-! ## A block that is stored again

A block is stored with its new contents when it was there or when there is something in it. -/

section Stored

variable {after contents : Mapping}
  (stored : after.get? key =
    if m.hasChild key || !contents.isEmpty then some (.mapping contents) else m.get? key)

include stored

theorem Dict.child_of_stored : after.child key = contents := by
  by_cases there : (m.hasChild key || !contents.isEmpty) = true
  · rw [if_pos there] at stored
    exact child_of_get? stored
  · rw [if_neg there] at stored
    obtain ⟨noChild, empty⟩ : m.hasChild key = false ∧ contents.isEmpty = true := by
      simpa using there
    rw [child_congr stored, child_of_not_hasChild noChild, eq_empty_of_isEmpty empty]

theorem Dict.absentOrMapping_of_stored (block : m.AbsentOrMapping key) :
    after.AbsentOrMapping key := by
  intro value found
  rw [stored] at found
  split at found
  · exact ⟨contents, (Option.some.inj found).symm⟩
  · exact block value found

theorem Dict.contains_of_stored (block : m.AbsentOrMapping key) {Fills : Prop}
    (filled : m.hasChild key = false → (contents.isEmpty = true ↔ ¬ Fills)) :
    after.contains key = true ↔ m.contains key = true ∨ Fills := by
  rw [block.contains_iff, contains, stored]
  cases child : m.hasChild key with
  | true => simp
  | false =>
      have absent : m.get? key = none := by
        rw [← contains_eq_false_iff, ← Bool.not_eq_true, block.contains_iff, child]
        exact Bool.false_ne_true
      have filled := filled child
      cases empty : contents.isEmpty with
      | true => simpa [absent, empty] using filled
      | false => simpa [empty] using filled

end Stored

/-! ## The blocks of a health check -/

namespace HealthCheck

/-- The block that says what triggers the remediation. -/
def triggerIn (spec : Mapping) : Mapping := (spec.child "remediation").child "triggerIf"

/-- The block that refers to the template of the remediation. -/
def referenceIn (spec : Mapping) : Mapping := (spec.child "remediation").child "templateRef"

theorem withTemplate_of_not_hasChild (noTemplate : spec.hasChild "remediationTemplate" = false)
    (remediation : Mapping) :
    withTemplate (spec.get? "remediationTemplate") remediation = remediation := by
  unfold withTemplate
  split
  · next template stored => cases noTemplate.symm.trans (Dict.hasChild_of_get? stored)
  · rfl

theorem get?_triggerIf (spec : Mapping) :
    (newRemediation spec).get? "triggerIf" =
      match spec.get? "maxUnhealthy" with
      | some threshold => some (.mapping
          (insertNew "unhealthyLessThanOrEqualTo" threshold (triggerIn spec)))
      | none => (spec.child "remediation").get? "triggerIf" := by
  rw [get?_triggerIf_newRemediation]
  cases spec.get? "maxUnhealthy" with
  | none => rfl
  | some threshold => exact Dict.get?_insert_self _ _ _

theorem get?_templateRef (spec : Mapping) :
    (newRemediation spec).get? "templateRef" =
      if spec.hasChild "remediationTemplate" then some (.mapping
        (fillFrom (spec.child "remediationTemplate") templateKeys (referenceIn spec)))
      else (spec.child "remediation").get? "templateRef" := by
  rw [get?_templateRef_newRemediation]
  split
  · next isMapping =>
      obtain ⟨template, stored⟩ := Dict.hasChild_eq_true_iff.mp isMapping
      rw [Dict.child_of_get? stored, stored, withTemplate, Dict.get?_insert_self, referenceIn]
  · next noTemplate => rw [withTemplate_of_not_hasChild (Bool.not_eq_true _ ▸ noTemplate)]

/-- Some condition keeps a field. -/
def HasConditions (spec : Mapping) : Prop :=
  ∃ conditions, spec.get? "unhealthyConditions" = some (.sequence conditions) ∧
    ∃ condition ∈ conditions, (convertCondition? condition).isSome = true

/-- There is something to move into the checks. -/
def FillsChecks (spec : Mapping) : Prop :=
  spec.contains "nodeStartupTimeout" = true ∨ HasConditions spec

/-- There is something to move into the trigger of the remediation. -/
def FillsTrigger (spec : Mapping) : Prop := spec.contains "maxUnhealthy" = true

/-- There is a template to make the reference of the remediation from; the template may be empty. -/
def FillsTemplate (spec : Mapping) : Prop := spec.hasChild "remediationTemplate" = true

theorem newConditions?_eq_none_iff : newConditions? spec = none ↔ ¬ HasConditions spec := by
  constructor
  · rintro nothing ⟨conditions, found, condition, member, converts⟩
    cases nothing.symm.trans (newConditions?_of_mem found member converts)
  · intro none
    by_contra there
    obtain ⟨stored, made⟩ := Option.ne_none_iff_exists'.mp there
    obtain ⟨conditions, found, rfl⟩ := newConditions?_eq_some made
    refine none ⟨conditions, found, ?_⟩
    by_contra noneConverts
    have empty : conditions.filterMap convertCondition? = [] := by
      refine List.filterMap_eq_nil_iff.mpr fun condition member => ?_
      by_contra converts
      exact noneConverts ⟨condition, member, Option.isSome_iff_ne_none.mpr converts⟩
    simp [newConditions?, found, convertConditions, Node.sequence?, empty] at made

theorem isEmpty_newChecks_iff (noChild : spec.hasChild "checks" = false) :
    (newChecks spec).isEmpty = true ↔ ¬ FillsChecks spec := by
  unfold FillsChecks
  rw [not_or, ← newConditions?_eq_none_iff, Bool.not_eq_true, Dict.contains_eq_false_iff]
  constructor
  · intro empty
    constructor
    · by_contra there
      obtain ⟨timeout, found⟩ := Option.ne_none_iff_exists'.mp there
      have inside : (newChecks spec).get? "nodeStartupTimeoutSeconds" =
          some (inSeconds timeout) := by
        simp [get?_newChecks, found]
      cases empty.symm.trans (Dict.isEmpty_eq_false_of_get? inside)
    · by_contra there
      obtain ⟨conditions, made⟩ := Option.ne_none_iff_exists'.mp there
      have inside : (newChecks spec).get? "unhealthyNodeConditions" = some conditions := by
        simp [get?_newChecks, made]
      cases empty.symm.trans (Dict.isEmpty_eq_false_of_get? inside)
  · rintro ⟨noTimeout, noConditions⟩
    simp only [newChecks, noTimeout, noConditions, Dict.child_of_not_hasChild noChild, Option.map_none,
      insertSome]
    rfl

theorem checks_kept_iff (shape : value.mapping? = none) (held : spec.get? "checks" = some value) :
    (moved spec).get? "checks" = some value ↔ ¬ FillsChecks spec := by
  have noChild := Dict.hasChild_of_mapping?_eq_none held shape
  rw [get?_checks_moved, noChild, Bool.false_or, ← isEmpty_newChecks_iff noChild]
  cases (newChecks spec).isEmpty with
  | true => simp [held]
  | false => simpa using (Node.ne_mapping shape (newChecks spec)).symm

theorem isEmpty_newRemediation_iff (noChild : spec.hasChild "remediation" = false) :
    (newRemediation spec).isEmpty = true ↔ ¬ (FillsTrigger spec ∨ FillsTemplate spec) := by
  unfold FillsTrigger FillsTemplate
  rw [not_or, Bool.not_eq_true, Bool.not_eq_true, Dict.contains_eq_false_iff]
  constructor
  · intro empty
    constructor
    · by_contra there
      obtain ⟨threshold, found⟩ := Option.ne_none_iff_exists'.mp there
      have inside := get?_triggerIf spec
      rw [found] at inside
      cases empty.symm.trans (Dict.isEmpty_eq_false_of_get? inside)
    · by_contra there
      have inside := get?_templateRef spec
      rw [if_pos (Bool.of_not_eq_false there)] at inside
      cases empty.symm.trans (Dict.isEmpty_eq_false_of_get? inside)
  · rintro ⟨noThreshold, noTemplate⟩
    rw [newRemediation, withTemplate_of_not_hasChild noTemplate, noThreshold, withThreshold,
      Dict.child_of_not_hasChild noChild]
    rfl

theorem remediation_kept_iff (shape : value.mapping? = none)
    (held : spec.get? "remediation" = some value) :
    (moved spec).get? "remediation" = some value ↔ ¬ (FillsTrigger spec ∨ FillsTemplate spec) := by
  have noChild := Dict.hasChild_of_mapping?_eq_none held shape
  rw [get?_remediation_moved, noChild, Bool.false_or, ← isEmpty_newRemediation_iff noChild]
  cases (newRemediation spec).isEmpty with
  | true => simp [held]
  | false => simpa using (Node.ne_mapping shape (newRemediation spec)).symm

theorem triggerIf_kept_iff (shape : value.mapping? = none)
    (held : (spec.child "remediation").get? "triggerIf" = some value) :
    (newRemediation spec).get? "triggerIf" = some value ↔ ¬ FillsTrigger spec := by
  rw [get?_triggerIf, FillsTrigger, Dict.contains]
  cases spec.get? "maxUnhealthy" with
  | none => simp [held]
  | some threshold => simpa using (Node.ne_mapping shape _).symm

theorem templateRef_kept_iff (shape : value.mapping? = none)
    (held : (spec.child "remediation").get? "templateRef" = some value) :
    (newRemediation spec).get? "templateRef" = some value ↔ ¬ FillsTemplate spec := by
  rw [get?_templateRef, FillsTemplate]
  split
  · next fills =>
      exact iff_of_false (fun same => Node.ne_mapping shape _ (Option.some.inj same).symm)
        (not_not_intro fills)
  · next lacks => exact iff_of_true held lacks

end HealthCheck

/-! ## All blocks -/

/-- The blocks that rules move fields into. -/
inductive Container where
  /-- The checks of a health check. -/
  | checks
  /-- The remediation of a health check. -/
  | remediation
  /-- What triggers the remediation. -/
  | triggerIf
  /-- The reference to the template of the remediation. -/
  | templateRef
  /-- The spec of the machine template of a control plane. -/
  | templateSpec
  deriving DecidableEq, Repr

namespace Container

def rule : Container → Rule
  | templateSpec => .templateReference
  | _ => .healthCheck

def path : Container → Path
  | checks => [.key "spec", .key "checks"]
  | remediation => [.key "spec", .key "remediation"]
  | triggerIf => [.key "spec", .key "remediation", .key "triggerIf"]
  | templateRef => [.key "spec", .key "remediation", .key "templateRef"]
  | templateSpec => [.key "spec", .key "machineTemplate", .key "spec"]

/-- The mapping is of the right kind and has something to move into the block. -/
def Receives : Container → Mapping → Prop
  | checks, m => ∃ spec, HealthCheck.spec? m = some spec ∧ HealthCheck.FillsChecks spec
  | remediation, m => ∃ spec, HealthCheck.spec? m = some spec ∧
      (HealthCheck.FillsTrigger spec ∨ HealthCheck.FillsTemplate spec)
  | triggerIf, m => ∃ spec, HealthCheck.spec? m = some spec ∧ HealthCheck.FillsTrigger spec
  | templateRef, m => ∃ spec, HealthCheck.spec? m = some spec ∧ HealthCheck.FillsTemplate spec
  | templateSpec, m => ∃ spec template, TemplateReference.template? m = some (spec, template) ∧
      template.contains TemplateReference.key = true

end Container

/-- What is kept or lost of the spec of a health check is kept or lost of the health check. -/
theorem HealthCheck.kept_iff_of_spec {Fills : Mapping → Prop} {rest : Path}
    (inSpec : ∀ spec, (Node.mapping spec).at? rest = some value →
      ((Node.mapping (moved spec)).at? rest = some value ↔ ¬ Fills spec))
    (held : (Node.mapping m).at? (.key "spec" :: rest) = some value) :
    (Node.mapping (restructure m).1).at? (.key "spec" :: rest) = some value ↔
      ¬ ∃ spec, spec? m = some spec ∧ Fills spec := by
  cases found : spec? m with
  | none => simp [restructure_of_no_spec found, held]
  | some spec =>
      rw [Node.at?_key, (spec?_eq_some_iff.mp found).2, Option.bind_some] at held
      rw [restructure_of_spec? found, Node.at?_key, Dict.get?_insert_self, Option.bind_some,
        inSpec spec held]
      simp

/-- What is kept or lost of the remediation is kept or lost of the spec. -/
theorem HealthCheck.kept_iff_of_remediation {Fills : Mapping → Prop} {key : String}
    (inside : ∀ spec : Mapping, (spec.child "remediation").get? key = some value →
      ((newRemediation spec).get? key = some value ↔ ¬ Fills spec))
    (held : (Node.mapping spec).at? [.key "remediation", .key key] = some value) :
    (Node.mapping (moved spec)).at? [.key "remediation", .key key] = some value ↔ ¬ Fills spec := by
  rw [Node.at?_key] at held
  obtain ⟨block, stored, below⟩ := Option.bind_eq_some_iff.mp held
  cases block with
  | mapping fields =>
      have after : (moved spec).get? "remediation" = some (.mapping (newRemediation spec)) := by
        rw [get?_remediation_moved, Dict.hasChild_of_get? stored, Bool.true_or, if_pos rfl]
      rw [Node.at?_field] at below
      rw [Node.at?_key, after, Option.bind_some, Node.at?_field]
      exact inside spec (Dict.child_of_get? stored ▸ below)
  | sequence items => simp [Node.at?] at below
  | scalar leaf => simp [Node.at?] at below

theorem TemplateReference.spec_kept_iff (shape : value.mapping? = none)
    (held : (Node.mapping m).at? Container.templateSpec.path = some value) :
    (Node.mapping (move m).1).at? Container.templateSpec.path = some value ↔
      ¬ Container.templateSpec.Receives m := by
  rcases move_cases m with ⟨still, settled⟩ | ⟨spec, template, moved, found, made, fires⟩
  · rw [still]
    refine iff_of_true held ?_
    rintro ⟨spec, template, found, holds⟩
    obtain ⟨isPlane, storedSpec, storedTemplate⟩ := template?_eq_some_iff.mp found
    -- A settled template with a reference has a mapping for its spec.
    obtain ⟨inner, storedInner, -⟩ := settled isPlane spec template storedSpec storedTemplate holds
    simp only [Container.path, Node.at?_key, storedSpec, storedTemplate, storedInner,
      Option.bind_some, Node.at?_nil, Option.some.injEq] at held
    exact Node.ne_mapping shape inner held.symm
  · obtain ⟨reference, stored, rfl⟩ := moveInTemplate?_eq_some made
    rw [fires]
    refine iff_of_false ?_ (not_not_intro ?_)
    · simp only [Container.path, Node.at?_key, Dict.get?_insert_self, Option.bind_some,
        Node.at?_nil, Option.some.injEq]
      exact (Node.ne_mapping shape _).symm
    · exact ⟨spec, template, found, Dict.contains_eq_true_iff.mpr ⟨reference, stored⟩⟩

/-- A value that is no mapping stays in the place of a block exactly when the rule has nothing to
    move into the block. -/
theorem Container.kept_iff (container : Container) (shape : value.mapping? = none)
    (held : (Node.mapping m).at? container.path = some value) :
    (Node.mapping (container.rule.apply m).left).at? container.path = some value ↔
      ¬ container.Receives m := by
  cases container with
  | checks =>
      refine HealthCheck.kept_iff_of_spec (fun spec held => ?_) held
      rw [Node.at?_field] at held ⊢
      exact HealthCheck.checks_kept_iff shape held
  | remediation =>
      refine HealthCheck.kept_iff_of_spec (fun spec held => ?_) held
      rw [Node.at?_field] at held ⊢
      exact HealthCheck.remediation_kept_iff shape held
  | triggerIf =>
      refine HealthCheck.kept_iff_of_spec (fun spec held => ?_) held
      exact HealthCheck.kept_iff_of_remediation
        (fun spec held => HealthCheck.triggerIf_kept_iff shape held) held
  | templateRef =>
      refine HealthCheck.kept_iff_of_spec (fun spec held => ?_) held
      exact HealthCheck.kept_iff_of_remediation
        (fun spec held => HealthCheck.templateRef_kept_iff shape held) held
  | templateSpec => exact TemplateReference.spec_kept_iff shape held

/-- A reference that is a string is lost to a template without fields. -/
theorem Container.kept_iff_empty_template :
    let m : Mapping := ⟨[("kind", .string "MachineHealthCheck"),
      ("spec", .mapping ⟨[("remediationTemplate", .mapping ⟨[]⟩),
        ("remediation", .mapping ⟨[("templateRef", .string "keep")]⟩)]⟩)]⟩
    (Node.mapping m).at? templateRef.path = some (.string "keep") ∧
      (Node.mapping (Rule.healthCheck.apply m).left).at? templateRef.path ≠
        some (.string "keep") := by
  intro m
  let remediation : Mapping := ⟨[("templateRef", .string "keep")]⟩
  let spec : Mapping :=
    ⟨[("remediationTemplate", .mapping ⟨[]⟩), ("remediation", .mapping remediation)]⟩
  have hasSpec : m.get? "spec" = some (.mapping spec) := rfl
  have hasRemediation : spec.get? "remediation" = some (.mapping remediation) := rfl
  have held : (Node.mapping m).at? templateRef.path = some (.string "keep") := by
    rw [path, Node.at?_key, hasSpec, Option.bind_some, Node.at?_key, hasRemediation,
      Option.bind_some, Node.at?_field]
    rfl
  refine ⟨held, fun kept => (kept_iff templateRef rfl held).mp kept ?_⟩
  exact ⟨spec, rfl, rfl⟩

end ManifestMigration
