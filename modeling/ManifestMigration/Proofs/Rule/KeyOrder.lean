import ManifestMigration.Proofs.Dict.Order
import ManifestMigration.Proofs.Rule.Containers
import ManifestMigration.Proofs.Rule.Regrouping

/-! # Rules keep the order of keys

A rule works in the mapping that it revises and in a few blocks below it. In each of these it owns
some keys; there it stores and erases, and all other fields stay as they are and where they are
(`Rule.block_reshaped`). Blocks are emptied, filled and put back, so a block keeps its place only
because its key does.
-/

namespace ManifestMigration

variable {m spec : Mapping} {key : String}

/-! ## Blocks -/

inductive Rule.SpecBlock where
  /-- The spec itself. -/
  | whole
  /-- The checks of a health check. -/
  | checks
  /-- The remediation of a health check. -/
  | remediation
  /-- What triggers the remediation. -/
  | triggerIf
  /-- The reference to the template of the remediation. -/
  | templateRef
  /-- The machine template of a control plane. -/
  | machineTemplate
  /-- The spec of the machine template. -/
  | templateSpec

inductive Rule.Block where
  /-- The mapping that is revised. -/
  | whole
  /-- One of its references. -/
  | reference (key : { key : String // key ∈ ["infrastructureRef", "controlPlaneRef", "configRef"] })
  /-- Its spec, or a block in it. -/
  | spec (block : Rule.SpecBlock)

/-- The way from the spec to a block. -/
def Rule.SpecBlock.keys : SpecBlock → List String
  | whole => []
  | checks => ["checks"]
  | remediation => ["remediation"]
  | triggerIf => ["remediation", "triggerIf"]
  | templateRef => ["remediation", "templateRef"]
  | machineTemplate => ["machineTemplate"]
  | templateSpec => ["machineTemplate", "spec"]

/-- The way to a block. -/
def Rule.Block.keys : Block → List String
  | .whole => []
  | .reference key => [key]
  | .spec block => "spec" :: block.keys

def Rule.Block.path (block : Block) : Path := block.keys.map .key

/-- The keys of a block that a rule owns; what stands under other keys is not touched. -/
def Rule.owned : Rule → Block → List String
  | argumentList, .whole => ["kubeletExtraArgs", "extraArgs"]
  | groupReference, .whole => ["infrastructureRef", "controlPlaneRef", "configRef"]
  | groupReference, .reference _ => ["apiVersion", "apiGroup"]
  | emptyEndpoint, .whole => ["controlPlaneEndpoint"]
  | healthCheck, .whole => ["spec"]
  | healthCheck, .spec .whole =>
    ["nodeStartupTimeout", "unhealthyConditions", "maxUnhealthy", "remediationTemplate", "checks",
      "remediation"]
  | healthCheck, .spec .checks => ["nodeStartupTimeoutSeconds", "unhealthyNodeConditions"]
  | healthCheck, .spec .remediation => ["triggerIf", "templateRef"]
  | healthCheck, .spec .triggerIf => ["unhealthyLessThanOrEqualTo"]
  | healthCheck, .spec .templateRef => ["kind", "name", "apiVersion"]
  | templateReference, .whole => ["spec"]
  | templateReference, .spec .whole => ["machineTemplate"]
  | templateReference, .spec .machineTemplate => ["infrastructureRef", "spec"]
  | templateReference, .spec .templateSpec => ["infrastructureRef"]
  | _, _ => []

/-! ## One change at a time -/

namespace GroupReference

theorem reshaped_normalize {reference : Mapping} (distinct : reference.keys.Nodup) :
    reference.Reshaped ["apiVersion", "apiGroup"] (normalize reference).1 := by
  unfold normalize
  split
  · next group found =>
      have grouped : reference.Reshaped ["apiVersion", "apiGroup"]
          (reference.insert "apiGroup" (.string group)) := .of_insert (by decide) _
      exact grouped.erase (by decide) (Dict.nodup_keys_insert distinct _ _)
  · exact (Dict.Reshaped.refl _ reference).erase (by decide) distinct

end GroupReference

namespace HealthCheck

variable {before d : Mapping} {owned : List String}

theorem reshaped_exchange {first second block : String} {stored : Bool} {value : Node}
    (reshaped : before.Reshaped owned d) (distinct : d.keys.Nodup)
    (own : ∀ key ∈ [first, second, block], key ∈ owned) (notFirst : block ≠ first)
    (notSecond : block ≠ second) (stays : before.contains block = true → d.contains block = true) :
    before.Reshaped owned (exchange first second block stored value d) := by
  have erased : before.Reshaped owned ((d.erase first).erase second) :=
    (reshaped.erase (own first (by simp)) distinct).erase (own second (by simp))
      (Dict.nodup_keys_erase distinct first)
  unfold exchange
  cases stored with
  | false => exact erased
  | true =>
      refine erased.insert (own block (by simp)) (fun there => ?_) value
      rw [Dict.contains_erase_of_ne _ notSecond, Dict.contains_erase_of_ne _ notFirst]
      exact stays there

theorem reshaped_moved (keyed : spec.WellKeyed) :
    spec.Reshaped touchedKeys (moved spec) := by
  have checked : spec.Reshaped touchedKeys (moveChecks spec).1 := by
    rw [moveChecks_eq]
    exact reshaped_exchange (.refl _ spec) keyed.nodup (by decide) (by decide) (by decide)
      (fun there => there)
  rw [moved, moveRemediation_eq]
  refine reshaped_exchange checked (wellKeyed_moveChecks keyed).nodup (by decide) (by decide)
    (by decide) fun there => ?_
  rwa [Dict.contains, get?_moveChecks_of_ne (by decide) (by decide) (by decide)]

theorem reshaped_insertSome {value : Option Node} (reshaped : before.Reshaped owned d)
    (own : key ∈ owned) (stays : before.contains key = true → d.contains key = true) :
    before.Reshaped owned (insertSome key value d) := by
  cases value with
  | none => exact reshaped
  | some v => exact reshaped.insert own stays v

theorem reshaped_newChecks (spec : Mapping) :
    (spec.child "checks").Reshaped ["nodeStartupTimeoutSeconds", "unhealthyNodeConditions"]
      (newChecks spec) := by
  refine reshaped_insertSome (reshaped_insertSome (.refl _ _) (by decide) fun there => there)
    (by decide) fun there => ?_
  rw [Dict.contains, get?_insertSome, if_neg (by decide)]
  exact there

theorem reshaped_newRemediation (spec : Mapping) :
    (spec.child "remediation").Reshaped ["triggerIf", "templateRef"] (newRemediation spec) := by
  have triggered : (spec.child "remediation").Reshaped ["triggerIf", "templateRef"]
      (withThreshold (spec.get? "maxUnhealthy") (spec.child "remediation")) := by
    unfold withThreshold
    split
    · exact .refl _ _
    · exact .of_insert (by decide) _
  unfold newRemediation withTemplate
  split
  · refine triggered.insert (by decide) (fun there => ?_) _
    rwa [Dict.contains, get?_withThreshold_of_ne (by decide)]
  · exact triggered

theorem reshaped_insertNew {value : Node} (own : key ∈ owned) (reshaped : before.Reshaped owned d)
    (stays : before.contains key = true → d.contains key = true) :
    before.Reshaped owned (insertNew key value d) := by
  unfold insertNew
  split
  · exact reshaped
  · exact reshaped.insert own stays value

/-- Nothing that was there is missing while fields are added. -/
theorem reshaped_fillFrom {template : Mapping} {names : List String}
    (own : ∀ name ∈ names, name ∈ owned) (reshaped : before.Reshaped owned d)
    (stays : ∀ name, before.contains name = true → d.contains name = true) :
    before.Reshaped owned (fillFrom template names d) := by
  induction names generalizing d with
  | nil => exact reshaped
  | cons name rest ih =>
      obtain ⟨ownName, ownRest⟩ := List.forall_mem_cons.mp own
      rw [fillFrom]
      split
      · next value found =>
          refine ih ownRest (reshaped_insertNew ownName reshaped (stays name)) fun other there => ?_
          have kept := stays other there
          rw [Dict.contains, get?_insertNew]
          split
          · rfl
          · exact kept
      · exact ih ownRest reshaped stays

end HealthCheck

/-! ## From block to block -/

/-- Where the keys lead to a mapping, they lead to a mapping afterwards, and what is owned there has
    been reshaped. -/
def KeepsBlock (owned keys : List String) (m left : Mapping) : Prop :=
  ∀ before, (Node.mapping m).at? (keys.map .key) = some (.mapping before) →
    ∃ after, (Node.mapping left).at? (keys.map .key) = some (.mapping after) ∧
      before.Reshaped owned after

namespace KeepsBlock

variable {owned keys : List String} {left : Mapping}

theorem here (reshaped : m.Reshaped owned left) : KeepsBlock owned [] m left := by
  intro before held
  cases held.symm.trans (Node.at?_nil _)
  exact ⟨left, Node.at?_nil _, reshaped⟩

theorem of_same (same : left.get? key = m.get? key) : KeepsBlock owned (key :: keys) m left := by
  intro before held
  refine ⟨before, ?_, .refl owned before⟩
  rw [List.map_cons, Node.at?_key] at held ⊢
  rw [same, held]

theorem below (inside : ∀ inner, m.get? key = some (.mapping inner) →
      ∃ inner', left.get? key = some (.mapping inner') ∧ KeepsBlock owned keys inner inner') :
    KeepsBlock owned (key :: keys) m left := by
  intro before held
  rw [List.map_cons, Node.at?_key] at held
  obtain ⟨value, stored, held⟩ := Option.bind_eq_some_iff.mp held
  obtain ⟨inner, rfl⟩ : ∃ inner, value = .mapping inner := by
    cases value with
    | mapping inner => exact ⟨inner, rfl⟩
    | sequence items => cases keys <;> simp [Node.at?] at held
    | scalar leaf => cases keys <;> simp [Node.at?] at held
  obtain ⟨inner', stored', keeps⟩ := inside inner stored
  obtain ⟨after, found, reshaped⟩ := keeps before held
  exact ⟨after, by rw [List.map_cons, Node.at?_key, stored', Option.bind_some, found], reshaped⟩

theorem of_stored {contents : Mapping}
    (stored : left.get? key =
      if m.hasChild key || !contents.isEmpty then some (.mapping contents) else m.get? key)
    (inside : KeepsBlock owned keys (m.child key) contents) :
    KeepsBlock owned (key :: keys) m left := by
  refine below fun inner held => ⟨contents, ?_, ?_⟩
  · rw [stored, Dict.hasChild_of_get? held, Bool.true_or, if_pos rfl]
  · rwa [Dict.child_of_get? held] at inside

end KeepsBlock

/-! ## The blocks of each rule -/

namespace GroupReference

theorem keepsBlock_reference (keyed : m.WellKeyed) (member : key ∈ keys) :
    KeepsBlock ["apiVersion", "apiGroup"] [key] m (revise m).left := by
  refine .below fun reference held => ⟨(normalize reference).1, ?_, .here ?_⟩
  · rw [get?_left_revise_of_mem member, normalizeAt, held]
    exact Dict.get?_insert_self _ _ _
  · have inside : reference.WellKeyed := keyed.of_get? held
    exact reshaped_normalize inside.nodup

end GroupReference

namespace HealthCheck

theorem keepsBlock_triggerIf (spec : Mapping) :
    KeepsBlock ["unhealthyLessThanOrEqualTo"] ["triggerIf"] (spec.child "remediation")
      (newRemediation spec) := by
  have found := get?_triggerIf spec
  cases threshold : spec.get? "maxUnhealthy" with
  | none =>
      rw [threshold] at found
      exact .of_same found
  | some value =>
      rw [threshold] at found
      refine .below fun trigger held => ⟨_, found, .here ?_⟩
      rw [triggerIn, Dict.child_of_get? held]
      exact reshaped_insertNew (by decide) (.refl _ trigger) fun there => there

theorem keepsBlock_templateRef (spec : Mapping) :
    KeepsBlock ["kind", "name", "apiVersion"] ["templateRef"] (spec.child "remediation")
      (newRemediation spec) := by
  have found := get?_templateRef spec
  split at found
  · refine .below fun reference held => ⟨_, found, .here ?_⟩
    rw [referenceIn, Dict.child_of_get? held]
    exact reshaped_fillFrom (by decide) (.refl _ reference) fun _ there => there
  · exact .of_same found

theorem keepsBlock_moved (keyed : spec.WellKeyed) (block : Rule.SpecBlock) :
    KeepsBlock (Rule.owned .healthCheck (.spec block)) block.keys spec (moved spec) := by
  have inRemediation {owned keys : List String} :
      KeepsBlock owned keys (spec.child "remediation") (newRemediation spec) →
        KeepsBlock owned ("remediation" :: keys) spec (moved spec) :=
    .of_stored (get?_remediation_moved spec)
  have template : (moved spec).get? "machineTemplate" = spec.get? "machineTemplate" :=
    get?_moved_of_notMem (by decide)
  cases block with
  | whole => exact .here (reshaped_moved keyed)
  | checks => exact .of_stored (get?_checks_moved spec) (.here (reshaped_newChecks spec))
  | remediation => exact inRemediation (.here (reshaped_newRemediation spec))
  | triggerIf => exact inRemediation (keepsBlock_triggerIf spec)
  | templateRef => exact inRemediation (keepsBlock_templateRef spec)
  | machineTemplate => exact .of_same template
  | templateSpec => exact .of_same template

theorem keepsBlock_restructure (keyed : m.WellKeyed) (block : Rule.SpecBlock) :
    KeepsBlock (Rule.owned .healthCheck (.spec block)) ("spec" :: block.keys) m
      (restructure m).1 := by
  cases found : spec? m with
  | none =>
      rw [restructure_of_no_spec found]
      exact .of_same rfl
  | some spec =>
      rw [restructure_of_spec? found]
      refine .below fun inner held => ⟨moved spec, Dict.get?_insert_self _ _ _, ?_⟩
      obtain rfl : inner = spec := by
        simpa using held.symm.trans (spec?_eq_some_iff.mp found).2
      exact keepsBlock_moved (keyed.of_get? held) block

end HealthCheck

namespace TemplateReference

variable {template moved : Mapping}

theorem reshaped_moveInTemplate? (distinct : template.keys.Nodup)
    (made : moveInTemplate? template = some moved) :
    template.Reshaped ["infrastructureRef", "spec"] moved := by
  obtain ⟨reference, -, rfl⟩ := moveInTemplate?_eq_some made
  have erased : template.Reshaped ["infrastructureRef", "spec"] (template.erase key) :=
    (Dict.Reshaped.refl _ template).erase (by decide) distinct
  refine erased.insert (by decide) (fun there => ?_) _
  rwa [Dict.contains_erase_of_ne _ (by decide)]

theorem keepsBlock_templateSpec (made : moveInTemplate? template = some moved) :
    KeepsBlock ["infrastructureRef"] ["spec"] template moved := by
  obtain ⟨reference, -, rfl⟩ := moveInTemplate?_eq_some made
  refine .below fun inner held => ⟨_, Dict.get?_insert_self _ _ _, .here ?_⟩
  rw [Dict.child_of_get? held]
  exact .of_insert (by decide) reference

theorem keepsBlock_insert (stored : spec.get? "machineTemplate" = some (.mapping template))
    (keyed : template.WellKeyed) (made : moveInTemplate? template = some moved)
    (block : Rule.SpecBlock) :
    KeepsBlock (Rule.owned .templateReference (.spec block)) block.keys spec
      (spec.insert "machineTemplate" (.mapping moved)) := by
  have inTemplate {owned keys : List String} (keeps : KeepsBlock owned keys template moved) :
      KeepsBlock owned ("machineTemplate" :: keys) spec
        (spec.insert "machineTemplate" (.mapping moved)) := by
    refine .below fun inner held => ⟨moved, Dict.get?_insert_self _ _ _, ?_⟩
    obtain rfl : inner = template := by simpa using held.symm.trans stored
    exact keeps
  have apart {owned keys : List String} {key : String} (differs : key ≠ "machineTemplate") :
      KeepsBlock owned (key :: keys) spec (spec.insert "machineTemplate" (.mapping moved)) :=
    .of_same (Dict.get?_insert_of_ne spec _ differs)
  cases block with
  | whole => exact .here (.of_insert (by decide) _)
  | checks => exact apart (by decide)
  | remediation => exact apart (by decide)
  | triggerIf => exact apart (by decide)
  | templateRef => exact apart (by decide)
  | machineTemplate => exact inTemplate (.here (reshaped_moveInTemplate? keyed.nodup made))
  | templateSpec => exact inTemplate (keepsBlock_templateSpec made)

theorem keepsBlock_move (keyed : m.WellKeyed) (block : Rule.SpecBlock) :
    KeepsBlock (Rule.owned .templateReference (.spec block)) ("spec" :: block.keys) m
      (move m).1 := by
  rcases move_cases m with ⟨still, -⟩ | ⟨spec, template, moved, found, made, fires⟩
  · rw [still]
    exact .of_same rfl
  · obtain ⟨-, storedSpec, storedTemplate⟩ := template?_eq_some_iff.mp found
    rw [fires]
    refine .below fun inner held => ⟨_, Dict.get?_insert_self _ _ _, ?_⟩
    obtain rfl : inner = spec := by simpa using held.symm.trans storedSpec
    have inside : inner.WellKeyed := keyed.of_get? held
    exact keepsBlock_insert storedTemplate (inside.of_get? storedTemplate) made block

end TemplateReference

namespace Rule

variable {rule : Rule}

theorem reshaped_left_apply (keyed : m.WellKeyed) :
    m.Reshaped (rule.owned .whole) (rule.apply m).left := by
  have writes : rule.owned .whole = rule.writes := by cases rule <;> rfl
  rw [writes]
  exact ⟨.of_sublist keyed.nodup (keys_left_apply rule m), fun _ => get?_left_apply_of_notMem⟩

theorem keepsBlock_left_apply (keyed : m.WellKeyed) (block : Block) :
    KeepsBlock (rule.owned block) block.keys m (rule.apply m).left := by
  cases block with
  | whole => exact .here (reshaped_left_apply keyed)
  | reference key =>
      by_cases isGroup : rule = .groupReference
      · subst isGroup
        exact GroupReference.keepsBlock_reference keyed key.2
      · have outside : key.1 ∉ rule.writes := by
          have apart : ∀ key ∈ GroupReference.keys, key ∉ rule.writes := by
            cases rule <;> revert isGroup <;> decide
          exact apart key key.2
        exact .of_same (get?_left_apply_of_notMem outside)
  | spec block =>
      cases rule with
      | argumentList => exact .of_same (get?_left_apply_of_notMem (by decide))
      | groupReference => exact .of_same (get?_left_apply_of_notMem (by decide))
      | emptyEndpoint => exact .of_same (get?_left_apply_of_notMem (by decide))
      | healthCheck => exact HealthCheck.keepsBlock_restructure keyed block
      | templateReference => exact TemplateReference.keepsBlock_move keyed block

/-- A rule keeps the order of keys in each of the mappings that it works in. New keys come last, and
    what the rule does not own stays. -/
theorem block_reshaped (rule : Rule) (block : Block) (keyed : m.WellKeyed) {before : Mapping}
    (held : (Node.mapping m).at? block.path = some (.mapping before)) :
    ∃ after, (Node.mapping (rule.apply m).left).at? block.path = some (.mapping after) ∧
      before.Reshaped (rule.owned block) after :=
  keepsBlock_left_apply keyed block before held

theorem block_reshaped_spec :
    let spec : Mapping := ⟨[("nodeStartupTimeout", .string "10m"), ("selector", .mapping ⟨[]⟩),
      ("checks", .mapping ⟨[("custom", .integer 1)]⟩), ("clusterName", .string "demo")]⟩
    let m : Mapping := ⟨[("kind", .string "MachineHealthCheck"), ("spec", .mapping spec)]⟩
    m.WellKeyed ∧ (Node.mapping m).at? (Block.spec .whole).path = some (.mapping spec) ∧
      ∃ after, (Node.mapping (healthCheck.apply m).left).at? (Block.spec .whole).path =
          some (.mapping after) ∧
        spec.Reshaped (healthCheck.owned (.spec .whole)) after ∧
        after.get? "clusterName" = some (.string "demo") := by
  intro spec m
  have keyed : m.WellKeyed := by
    simp [m, spec, Dict.WellKeyed, Node.wellKeyed_mapping, Dict.keys, Node.wellKeyed_scalar]
  have held : (Node.mapping m).at? (Block.spec .whole).path = some (.mapping spec) :=
    Node.at?_field m "spec"
  refine ⟨keyed, held, ?_⟩
  obtain ⟨after, found, reshaped⟩ := block_reshaped healthCheck (.spec .whole) keyed held
  exact ⟨after, found, reshaped, reshaped.others "clusterName" (by decide)⟩

end Rule

end ManifestMigration
