import ManifestMigration.Rule.Apply

/-! # The weight of a document

Rules put new containers into the mapping that they revise, so a walk that goes down into a
revised mapping needs a reason to end. The weight of a document counts its containers and adds a
surcharge for every field that a rule could still turn into more of them. No rule makes the fields
of a mapping heavier (`fieldsWeight_apply_le`), and every field is lighter than its mapping.
-/

namespace ManifestMigration

namespace Node

/-- The containers that rules may yet make of a field. -/
def surcharge (key : String) (value : Node) : Nat :=
  (if key ∈ ["nodeStartupTimeout", "unhealthyConditions", "maxUnhealthy", "remediationTemplate"]
    then 2 else 0) +
  match value with
  | .mapping fields =>
    if key ∈ ["kubeletExtraArgs", "extraArgs"] then fields.size
    else if key = "machineTemplate" then fields.keys.count "infrastructureRef"
    else 0
  | _ => 0

mutual

/-- The containers of a document with the surcharges of its fields. -/
def weight : Node → Nat
  | .mapping ⟨entries⟩ => 1 + entriesWeight entries
  | .sequence items => 1 + itemsWeight items
  | .scalar _ => 0

def entriesWeight : List (String × Node) → Nat
  | [] => 0
  | (key, value) :: rest => value.weight + surcharge key value + entriesWeight rest

def itemsWeight : List Node → Nat
  | [] => 0
  | item :: rest => item.weight + itemsWeight rest

end

/-- What a field contributes to the weight of its mapping. -/
def cost (key : String) (value : Node) : Nat := value.weight + surcharge key value

theorem surcharge_eq_zero {key : String}
    (notLegacy : key ∉ ["nodeStartupTimeout", "unhealthyConditions", "maxUnhealthy",
      "remediationTemplate"])
    (noArguments : key ∉ ["kubeletExtraArgs", "extraArgs"]) (noTemplate : key ≠ "machineTemplate")
    (value : Node) : surcharge key value = 0 := by
  cases value <;> simp only [surcharge, notLegacy, noArguments, noTemplate, if_false]

end Node

namespace Dict

open Node

def fieldsWeight (m : Mapping) : Nat := entriesWeight m.entries

theorem weight_mapping (m : Mapping) : (Node.mapping m).weight = 1 + m.fieldsWeight := by
  cases m; simp [weight, fieldsWeight]

@[simp] theorem fieldsWeight_empty : fieldsWeight empty = 0 := by
  simp [fieldsWeight, empty, entriesWeight]

theorem entriesWeight_cons (key : String) (value : Node) (rest : List (String × Node)) :
    entriesWeight ((key, value) :: rest) = cost key value + entriesWeight rest := by
  rw [entriesWeight, cost]

theorem entriesWeight_append (before after : List (String × Node)) :
    entriesWeight (before ++ after) = entriesWeight before + entriesWeight after := by
  induction before with
  | nil => rw [entriesWeight, List.nil_append, Nat.zero_add]
  | cons entry before ih =>
    rw [List.cons_append, entriesWeight_cons, entriesWeight_cons, ih, Nat.add_assoc]

theorem fieldsWeight_insert_of_some {m : Mapping} {key : String} {old : Node} (value : Node)
    (held : m.get? key = some old) :
    (m.insert key value).fieldsWeight + cost key old = m.fieldsWeight + cost key value := by
  obtain ⟨before, after, split, apart⟩ := exists_of_lookup held
  simp only [fieldsWeight, insert, split, insertEntry_append value _ apart, insertEntry, if_true,
    entriesWeight_append, entriesWeight_cons]
  omega

theorem fieldsWeight_insert_le (m : Mapping) (key : String) (value : Node) :
    (m.insert key value).fieldsWeight ≤ m.fieldsWeight + cost key value := by
  cases held : m.get? key with
  | some old =>
    have replaced := fieldsWeight_insert_of_some value held
    omega
  | none =>
    have weights : (m.insert key value).fieldsWeight = m.fieldsWeight + cost key value := by
      simp only [fieldsWeight, insert, insertEntry_of_apart value (apart_of_lookup held),
        entriesWeight_append, entriesWeight_cons]
      rw [entriesWeight, Nat.add_zero]
    exact Nat.le_of_eq weights

theorem fieldsWeight_erase_of_some {m : Mapping} {key : String} {old : Node}
    (held : m.get? key = some old) :
    (m.erase key).fieldsWeight + cost key old = m.fieldsWeight := by
  obtain ⟨before, after, split, apart⟩ := exists_of_lookup held
  simp only [fieldsWeight, erase, split, eraseEntry_append _ apart, eraseEntry, if_true,
    entriesWeight_append, entriesWeight_cons]
  omega

/-- What a field costs, nothing when it is not there. -/
def fieldCost (m : Mapping) (key : String) : Nat :=
  match m.get? key with
  | some value => cost key value
  | none => 0

theorem fieldsWeight_erase (m : Mapping) (key : String) :
    (m.erase key).fieldsWeight + m.fieldCost key = m.fieldsWeight := by
  cases held : m.get? key with
  | some old =>
    simp only [fieldCost, held]
    exact fieldsWeight_erase_of_some held
  | none => simp [fieldCost, held, erase_of_none held]

theorem fieldsWeight_erase_le (m : Mapping) (key : String) :
    (m.erase key).fieldsWeight ≤ m.fieldsWeight :=
  fieldsWeight_erase m key ▸ Nat.le_add_right _ _

theorem fieldCost_le (m : Mapping) (key : String) : m.fieldCost key ≤ m.fieldsWeight :=
  fieldsWeight_erase m key ▸ Nat.le_add_left _ _

theorem fieldCost_erase_of_ne {key other : String} (m : Mapping) (differs : other ≠ key) :
    (m.erase key).fieldCost other = m.fieldCost other := by
  simp [fieldCost, get?_erase_of_ne m differs]

theorem fieldCost_of_some {m : Mapping} {key : String} {value : Node}
    (held : m.get? key = some value) : m.fieldCost key = cost key value := by
  simp [fieldCost, held]

end Dict

open Node

/-! ## Argument lists -/

namespace ArgumentList

theorem weight_item (name : String) (value : Node) :
    (item name value).weight = 1 + value.weight := by
  have ofName : surcharge "name" (.string name) = 0 :=
    surcharge_eq_zero (by decide) (by decide) (by decide) _
  have ofValue : surcharge "value" value = 0 :=
    surcharge_eq_zero (by decide) (by decide) (by decide) _
  simp [item, weight, entriesWeight, ofName, ofValue]

theorem itemsWeight_items (arguments : Mapping) :
    itemsWeight (items arguments) ≤ arguments.fieldsWeight + arguments.size := by
  obtain ⟨entries⟩ := arguments
  simp only [items, Dict.fieldsWeight, Dict.size]
  induction entries with
  | nil => simp [itemsWeight]
  | cons entry rest ih =>
    obtain ⟨k, v⟩ := entry
    simp only [List.map_cons, itemsWeight, weight_item, entriesWeight, List.length_cons]
    omega

theorem fieldsWeight_convertAt {key : String} (listed : key ∈ keys) (m : Mapping) :
    (convertAt key m).left.fieldsWeight ≤ m.fieldsWeight := by
  unfold convertAt
  split
  · exact Nat.le_refl _
  · next arguments held =>
    have replaced := Dict.fieldsWeight_insert_of_some (.sequence (items arguments)) held
    have listing := itemsWeight_items arguments
    -- The surcharge of the arguments pays for an item for each of them.
    have before : surcharge key (.mapping arguments) = arguments.size := by
      simp only [keys, Rule.triggers, List.mem_cons, List.not_mem_nil, or_false] at listed
      rcases listed with rfl | rfl <;> simp [surcharge]
    have after : surcharge key (.sequence (items arguments)) = 0 := by
      simp only [keys, Rule.triggers, List.mem_cons, List.not_mem_nil, or_false] at listed
      rcases listed with rfl | rfl <;> simp [surcharge]
    simp only [cost, before, after, Dict.weight_mapping] at replaced
    simp only [weight] at replaced
    dsimp only
    omega
  · exact Nat.le_refl _
  · exact Nat.le_refl _

theorem fieldsWeight_convertKeys {some_keys : List String}
    (listed : ∀ key ∈ some_keys, key ∈ keys) (m : Mapping) :
    (convertKeys some_keys m).left.fieldsWeight ≤ m.fieldsWeight := by
  induction some_keys generalizing m with
  | nil => exact Nat.le_refl _
  | cons key rest ih =>
    obtain ⟨here, later⟩ := List.forall_mem_cons.mp listed
    have step := fieldsWeight_convertAt here m
    simp only [convertKeys, Revision.andThen]
    split
    · exact step
    · exact Nat.le_trans (ih later _) step

end ArgumentList

/-! ## References -/

namespace GroupReference

theorem fieldsWeight_normalize (reference : Mapping) :
    (normalize reference).1.fieldsWeight ≤ reference.fieldsWeight := by
  unfold normalize
  split
  · next group _ =>
    refine Nat.le_trans (Dict.fieldsWeight_erase_le _ _) ?_
    have stored := Dict.fieldsWeight_insert_le reference "apiGroup" (.string group)
    simpa [cost, surcharge, weight] using stored
  · exact Dict.fieldsWeight_erase_le _ _

theorem fieldsWeight_normalizeAt {key : String} (listed : key ∈ keys) (m : Mapping) :
    (normalizeAt key m).1.fieldsWeight ≤ m.fieldsWeight := by
  unfold normalizeAt
  split
  · next reference held =>
    have replaced := Dict.fieldsWeight_insert_of_some (.mapping (normalize reference).1) held
    have lighter := fieldsWeight_normalize reference
    have free (fields : Mapping) : surcharge key (.mapping fields) = 0 := by
      simp only [keys, Rule.triggers, List.mem_cons, List.not_mem_nil, or_false] at listed
      rcases listed with rfl | rfl | rfl <;> simp [surcharge]
    simp only [cost, free, Dict.weight_mapping] at replaced
    dsimp only
    omega
  · exact Nat.le_refl _

theorem fieldsWeight_normalizeKeys {some_keys : List String}
    (listed : ∀ key ∈ some_keys, key ∈ keys) (m : Mapping) :
    (normalizeKeys some_keys m).1.fieldsWeight ≤ m.fieldsWeight := by
  induction some_keys generalizing m with
  | nil => exact Nat.le_refl _
  | cons key rest ih =>
    obtain ⟨here, later⟩ := List.forall_mem_cons.mp listed
    simp only [normalizeKeys]
    exact Nat.le_trans (ih later _) (fieldsWeight_normalizeAt here m)

end GroupReference

/-! ## Health checks -/

namespace HealthCheck

theorem weight_inSeconds (value : Node) : (inSeconds value).weight ≤ value.weight := by
  unfold inSeconds
  split
  · simp [weight]
  · exact Nat.le_refl _

theorem fieldsWeight_insertSome (key : String) (free : ∀ value, surcharge key value = 0)
    (value : Option Node) (m : Mapping) :
    (insertSome key value m).fieldsWeight ≤
      m.fieldsWeight + (value.map Node.weight).getD 0 := by
  cases value with
  | none => simp [insertSome]
  | some v => simpa [insertSome, cost, free] using Dict.fieldsWeight_insert_le m key v

theorem weight_getD_le (m : Mapping) (key : String) :
    ((m.get? key).map Node.weight).getD 0 ≤ m.fieldCost key := by
  cases held : m.get? key with
  | none => simp
  | some value => simp [Dict.fieldCost_of_some held, cost]

theorem weight_timeoutSeconds? (condition : Mapping) :
    ((timeoutSeconds? condition).map Node.weight).getD 0 ≤ condition.fieldCost "timeout" := by
  unfold timeoutSeconds?
  split
  · simp
  · next timeout held =>
    split
    · simp
    · have lighter := weight_inSeconds timeout
      simp only [Option.map_some, Option.getD_some, Dict.fieldCost_of_some held, cost]
      omega

theorem fieldsWeight_conditionFields (condition : Mapping) :
    (conditionFields condition).fieldsWeight ≤ condition.fieldsWeight := by
  have type := fieldsWeight_insertSome "type"
    (surcharge_eq_zero (by decide) (by decide) (by decide)) (condition.get? "type") .empty
  have status := fieldsWeight_insertSome "status"
    (surcharge_eq_zero (by decide) (by decide) (by decide)) (condition.get? "status")
    (insertSome "type" (condition.get? "type") .empty)
  have timeout := fieldsWeight_insertSome "timeoutSeconds"
    (surcharge_eq_zero (by decide) (by decide) (by decide)) (timeoutSeconds? condition)
    (insertSome "status" (condition.get? "status")
      (insertSome "type" (condition.get? "type") .empty))
  have typePaid := weight_getD_le condition "type"
  have statusPaid := weight_getD_le condition "status"
  have timeoutPaid := weight_timeoutSeconds? condition
  -- The three come from different fields, so together they cost no more than the condition.
  have first := Dict.fieldsWeight_erase condition "type"
  have second := Dict.fieldsWeight_erase (condition.erase "type") "status"
  have third := Dict.fieldCost_le ((condition.erase "type").erase "status") "timeout"
  rw [Dict.fieldCost_erase_of_ne _ (by decide)] at second
  rw [Dict.fieldCost_erase_of_ne _ (by decide), Dict.fieldCost_erase_of_ne _ (by decide)] at third
  simp only [Dict.fieldsWeight_empty] at type
  unfold conditionFields
  omega

theorem weight_convertCondition? {item converted : Node}
    (converts : convertCondition? item = some converted) : converted.weight ≤ item.weight := by
  unfold convertCondition? at converts
  split at converts
  · next condition =>
    dsimp only at converts
    split at converts
    · cases converts
    · cases converts
      have lighter := fieldsWeight_conditionFields condition
      simp only [Dict.weight_mapping]
      omega
  · cases converts

theorem itemsWeight_filterMap (items : List Node) :
    itemsWeight (items.filterMap convertCondition?) ≤ itemsWeight items := by
  induction items with
  | nil => simp
  | cons item rest ih =>
    simp only [List.filterMap_cons, itemsWeight]
    split
    · omega
    · next converted converts =>
      have lighter := weight_convertCondition? converts
      simp only [itemsWeight]
      omega

/-- Weight of the child mapping under a key together with the container that holds it. -/
theorem fieldsWeight_insert_child (m : Mapping) (key : String) (contents : Mapping)
    (free : ∀ value, surcharge key value = 0) :
    (m.insert key (.mapping contents)).fieldsWeight + (m.child key).fieldsWeight ≤
      m.fieldsWeight + contents.fieldsWeight + if m.hasChild key then 0 else 1 := by
  have stored := Dict.fieldsWeight_insert_le m key (.mapping contents)
  simp only [cost, free, Dict.weight_mapping] at stored
  unfold Dict.child Dict.hasChild
  cases held : m.get? key with
  | none =>
    simp only [Dict.fieldsWeight_empty, Bool.false_eq_true, if_false]
    omega
  | some old =>
    cases old with
    | mapping fields =>
      have replaced := Dict.fieldsWeight_insert_of_some (.mapping contents) held
      simp only [cost, free, Dict.weight_mapping] at replaced
      simp only [if_true]
      omega
    | sequence _ | scalar _ =>
      simp only [Dict.fieldsWeight_empty, Bool.false_eq_true, if_false]
      omega

theorem surcharge_spec (value : Node) : surcharge "spec" value = 0 :=
  surcharge_eq_zero (by decide) (by decide) (by decide) value

/-- The surcharge that pays for a new container, when a legacy field is there. -/
def allowance (m : Mapping) (key : String) : Nat := if (m.get? key).isSome then 2 else 0

theorem get?_of_allowance {m : Mapping} {key : String} (nothing : allowance m key = 0) :
    m.get? key = none := by
  unfold allowance at nothing
  cases held : m.get? key with
  | none => rfl
  | some value =>
    rw [held] at nothing
    cases nothing

theorem allowance_cases (m : Mapping) (key : String) :
    allowance m key = 0 ∨ allowance m key = 2 := by
  unfold allowance
  split
  · exact .inr rfl
  · exact .inl rfl

theorem weight_legacy (key : String) (m : Mapping) (f : Node → Node)
    (lighter : ∀ value, (f value).weight ≤ value.weight)
    (legacy : key ∈ ["nodeStartupTimeout", "unhealthyConditions", "maxUnhealthy",
      "remediationTemplate"]) :
    (((m.get? key).map f).map Node.weight).getD 0 + allowance m key ≤ m.fieldCost key := by
  unfold allowance
  cases held : m.get? key with
  | none => simp
  | some value =>
    have here := lighter value
    simp only [Option.map_some, Option.getD_some, Option.isSome_some, if_true,
      Dict.fieldCost_of_some held, cost, surcharge, legacy]
    omega

theorem weight_newConditions? (spec : Mapping) :
    ((newConditions? spec).map Node.weight).getD 0 + allowance spec "unhealthyConditions" ≤
      spec.fieldCost "unhealthyConditions" := by
  unfold newConditions? allowance
  cases held : spec.get? "unhealthyConditions" with
  | none => simp
  | some conditions =>
    have pays : 2 ≤ surcharge "unhealthyConditions" conditions := by
      unfold surcharge; simp
    simp only [Dict.fieldCost_of_some held, cost, Option.isSome_some, if_true]
    split
    · simp only [Option.map_none, Option.getD_none]
      omega
    · next some =>
      cases conditions with
      | mapping _ | scalar _ => simp [convertConditions, Node.sequence?] at some
      | sequence items =>
        have lighter := itemsWeight_filterMap items
        simp only [convertConditions, Node.sequence?, Option.getD_some, Option.map_some, weight]
        omega

theorem fieldsWeight_newChecks (spec : Mapping) :
    (newChecks spec).fieldsWeight + allowance spec "nodeStartupTimeout" +
        allowance spec "unhealthyConditions" ≤
      (spec.child "checks").fieldsWeight + spec.fieldCost "nodeStartupTimeout" +
        spec.fieldCost "unhealthyConditions" := by
  have timeout := fieldsWeight_insertSome "nodeStartupTimeoutSeconds"
    (surcharge_eq_zero (by decide) (by decide) (by decide))
    ((spec.get? "nodeStartupTimeout").map inSeconds) (spec.child "checks")
  have conditions := fieldsWeight_insertSome "unhealthyNodeConditions"
    (surcharge_eq_zero (by decide) (by decide) (by decide)) (newConditions? spec)
    (insertSome "nodeStartupTimeoutSeconds" ((spec.get? "nodeStartupTimeout").map inSeconds)
      (spec.child "checks"))
  have timeoutPaid := weight_legacy "nodeStartupTimeout" spec inSeconds weight_inSeconds
    (by decide)
  have conditionsPaid := weight_newConditions? spec
  unfold newChecks
  omega

theorem isEmpty_newChecks {spec : Mapping} (none : spec.hasChild "checks" = false)
    (noTimeout : allowance spec "nodeStartupTimeout" = 0)
    (noConditions : allowance spec "unhealthyConditions" = 0) :
    (newChecks spec).isEmpty = true := by
  simp [newChecks, newConditions?, get?_of_allowance noTimeout, get?_of_allowance noConditions,
    insertSome, Dict.child_of_not_hasChild none, Dict.isEmpty, Dict.empty]

theorem fieldsWeight_moveChecks (spec : Mapping) :
    (moveChecks spec).1.fieldsWeight ≤ spec.fieldsWeight := by
  have first := Dict.fieldsWeight_erase spec "nodeStartupTimeout"
  have second := Dict.fieldsWeight_erase (spec.erase "nodeStartupTimeout") "unhealthyConditions"
  rw [Dict.fieldCost_erase_of_ne _ (by decide)] at second
  have checks := fieldsWeight_newChecks spec
  have stored := fieldsWeight_insert_child
    ((spec.erase "nodeStartupTimeout").erase "unhealthyConditions") "checks" (newChecks spec)
    (surcharge_eq_zero (by decide) (by decide) (by decide))
  rw [Dict.child_erase_of_ne _ (by decide), Dict.child_erase_of_ne _ (by decide),
    Dict.hasChild_erase_of_ne _ (by decide), Dict.hasChild_erase_of_ne _ (by decide)] at stored
  simp only [moveChecks]
  split
  · next due =>
    cases there : spec.hasChild "checks" with
    | true =>
      simp only [there, if_true] at stored
      omega
    | false =>
      -- A new container is only made where one of the legacy fields pays for it.
      simp only [there, Bool.false_or, Bool.not_eq_true'] at due
      simp only [there, Bool.false_eq_true, if_false] at stored
      rcases allowance_cases spec "nodeStartupTimeout" with noTimeout | paid
      · rcases allowance_cases spec "unhealthyConditions" with noConditions | paid
        · cases due.symm.trans (isEmpty_newChecks there noTimeout noConditions)
        · omega
      · omega
  · omega

theorem fieldsWeight_insertNew (key : String) (free : ∀ value, surcharge key value = 0)
    (value : Node) (m : Mapping) :
    (insertNew key value m).fieldsWeight ≤ m.fieldsWeight + value.weight := by
  unfold insertNew
  split
  · omega
  · simpa [cost, free] using Dict.fieldsWeight_insert_le m key value

/-- Fields are only taken from the template under the names that are listed. -/
theorem fillFrom_erase {key : String} {names : List String} (other : key ∉ names)
    (template : Mapping) : fillFrom (template.erase key) names = fillFrom template names := by
  induction names with
  | nil => rfl
  | cons name rest ih =>
    obtain ⟨differs, other⟩ := not_or.mp (mt List.mem_cons.mpr other)
    funext reference
    simp only [fillFrom, Dict.get?_erase_of_ne template (Ne.symm differs), ih other]

theorem fieldsWeight_fillFrom (template : Mapping) (names : List String) (distinct : names.Nodup)
    (free : ∀ key ∈ names, ∀ value, surcharge key value = 0) (reference : Mapping) :
    (fillFrom template names reference).fieldsWeight ≤
      reference.fieldsWeight + template.fieldsWeight := by
  induction names generalizing template reference with
  | nil => simp [fillFrom]
  | cons key rest ih =>
    obtain ⟨fresh, distinct⟩ := List.nodup_cons.1 distinct
    obtain ⟨freeKey, freeRest⟩ := List.forall_mem_cons.mp free
    have erased := Dict.fieldsWeight_erase template key
    rw [fillFrom, ← fillFrom_erase fresh]
    refine Nat.le_trans (ih (template.erase key) distinct freeRest _) ?_
    cases held : template.get? key with
    | none =>
      dsimp only
      omega
    | some value =>
      have stored := fieldsWeight_insertNew key freeKey value reference
      have costs : template.fieldCost key = value.weight := by
        simp [Dict.fieldCost_of_some held, cost, freeKey]
      dsimp only
      omega

theorem fieldsWeight_withThreshold (threshold : Option Node) (remediation : Mapping) :
    (withThreshold threshold remediation).fieldsWeight ≤ remediation.fieldsWeight +
      (threshold.map fun value => value.weight + 1).getD 0 := by
  cases threshold with
  | none => simp [withThreshold]
  | some value =>
    have stored := fieldsWeight_insert_child remediation "triggerIf"
      (insertNew "unhealthyLessThanOrEqualTo" value (remediation.child "triggerIf"))
      (surcharge_eq_zero (by decide) (by decide) (by decide))
    have inside := fieldsWeight_insertNew "unhealthyLessThanOrEqualTo"
      (surcharge_eq_zero (by decide) (by decide) (by decide)) value
      (remediation.child "triggerIf")
    simp only [withThreshold, Option.map_some, Option.getD_some]
    split at stored <;> omega

theorem fieldsWeight_withTemplate (template : Option Node) (remediation : Mapping) :
    (withTemplate template remediation).fieldsWeight ≤ remediation.fieldsWeight +
      (template.map Node.weight).getD 0 := by
  unfold withTemplate
  split
  · next fields =>
    have free : ∀ key ∈ templateKeys, ∀ value, surcharge key value = 0 := by
      intro key listed
      simp only [templateKeys, List.mem_cons, List.not_mem_nil, or_false] at listed
      rcases listed with rfl | rfl | rfl <;>
        exact surcharge_eq_zero (by decide) (by decide) (by decide)
    have stored := fieldsWeight_insert_child remediation "templateRef"
      (fillFrom fields templateKeys (remediation.child "templateRef"))
      (surcharge_eq_zero (by decide) (by decide) (by decide))
    have inside := fieldsWeight_fillFrom fields templateKeys (by decide) free
      (remediation.child "templateRef")
    simp only [Option.map_some, Option.getD_some, Dict.weight_mapping]
    split at stored <;> omega
  · omega

/-- The surcharges of both fields pay for the container of the threshold, and half of them is
    left. -/
theorem fieldsWeight_newRemediation (spec : Mapping) :
    2 * (newRemediation spec).fieldsWeight + allowance spec "maxUnhealthy" +
        2 * allowance spec "remediationTemplate" ≤
      2 * ((spec.child "remediation").fieldsWeight + spec.fieldCost "maxUnhealthy" +
        spec.fieldCost "remediationTemplate") := by
  have threshold := fieldsWeight_withThreshold (spec.get? "maxUnhealthy")
    (spec.child "remediation")
  have template := fieldsWeight_withTemplate (spec.get? "remediationTemplate")
    (withThreshold (spec.get? "maxUnhealthy") (spec.child "remediation"))
  have thresholdPaid :
      2 * ((spec.get? "maxUnhealthy").map fun value => value.weight + 1).getD 0 +
        allowance spec "maxUnhealthy" ≤ 2 * spec.fieldCost "maxUnhealthy" := by
    have paid := weight_legacy "maxUnhealthy" spec id (fun _ => Nat.le_refl _) (by decide)
    unfold allowance at paid ⊢
    cases held : spec.get? "maxUnhealthy" with
    | none => simp
    | some value =>
      simp [held] at paid ⊢
      omega
  have templatePaid := weight_legacy "remediationTemplate" spec id (fun _ => Nat.le_refl _)
    (by decide)
  rw [Option.map_id_apply] at templatePaid
  unfold newRemediation
  omega

theorem isEmpty_newRemediation {spec : Mapping} (none : spec.hasChild "remediation" = false)
    (noThreshold : allowance spec "maxUnhealthy" = 0)
    (noTemplate : allowance spec "remediationTemplate" = 0) :
    (newRemediation spec).isEmpty = true := by
  simp [newRemediation, withThreshold, withTemplate, get?_of_allowance noThreshold,
    get?_of_allowance noTemplate, Dict.child_of_not_hasChild none, Dict.isEmpty, Dict.empty]

theorem fieldsWeight_moveRemediation (spec : Mapping) :
    (moveRemediation spec).1.fieldsWeight ≤ spec.fieldsWeight := by
  have first := Dict.fieldsWeight_erase spec "maxUnhealthy"
  have second := Dict.fieldsWeight_erase (spec.erase "maxUnhealthy") "remediationTemplate"
  rw [Dict.fieldCost_erase_of_ne _ (by decide)] at second
  have remediation := fieldsWeight_newRemediation spec
  have stored := fieldsWeight_insert_child
    ((spec.erase "maxUnhealthy").erase "remediationTemplate") "remediation" (newRemediation spec)
    (surcharge_eq_zero (by decide) (by decide) (by decide))
  rw [Dict.child_erase_of_ne _ (by decide), Dict.child_erase_of_ne _ (by decide),
    Dict.hasChild_erase_of_ne _ (by decide), Dict.hasChild_erase_of_ne _ (by decide)] at stored
  simp only [moveRemediation]
  split
  · next due =>
    cases there : spec.hasChild "remediation" with
    | true =>
      simp only [there, if_true] at stored
      omega
    | false =>
      simp only [there, Bool.false_or, Bool.not_eq_true'] at due
      simp only [there, Bool.false_eq_true, if_false] at stored
      rcases allowance_cases spec "maxUnhealthy" with noThreshold | paid
      · rcases allowance_cases spec "remediationTemplate" with noTemplate | paid
        · cases due.symm.trans (isEmpty_newRemediation there noThreshold noTemplate)
        · omega
      · omega
  · omega

theorem fieldsWeight_restructure (m : Mapping) :
    (restructure m).1.fieldsWeight ≤ m.fieldsWeight := by
  unfold restructure
  split
  · exact Nat.le_refl _
  · next spec found =>
    have replaced := Dict.fieldsWeight_insert_of_some
      (.mapping (moveRemediation (moveChecks spec).1).1) (spec?_eq_some_iff.mp found).2
    have checks := fieldsWeight_moveChecks spec
    have remediation := fieldsWeight_moveRemediation (moveChecks spec).1
    simp only [cost, Dict.weight_mapping, surcharge_spec] at replaced
    dsimp only
    omega

end HealthCheck

/-! ## The infrastructure reference of a control plane -/

namespace TemplateReference

open HealthCheck

theorem count_keys_moved {template moved : Mapping}
    (moves : moveInTemplate? template = some moved) :
    moved.keys.count key + 1 = template.keys.count key := by
  obtain ⟨reference, held, rfl⟩ := moveInTemplate?_eq_some moves
  have there : key ∈ template.keys := by
    rw [← Dict.contains_iff_mem_keys]
    simp [Dict.contains, held]
  have some := List.count_pos_iff.2 there
  have erased : (template.keys.erase key).count key = template.keys.count key - 1 := by simp
  rw [Dict.keys_insert, Dict.keys_erase]
  split
  · omega
  · have other : List.count key ["spec"] = 0 := by decide
    rw [List.count_append]
    omega

theorem fieldsWeight_moveInTemplate? {template moved : Mapping}
    (moves : moveInTemplate? template = some moved) :
    moved.fieldsWeight ≤ template.fieldsWeight + 1 := by
  obtain ⟨reference, held, rfl⟩ := moveInTemplate?_eq_some moves
  have free : ∀ value, surcharge key value = 0 :=
    surcharge_eq_zero (by decide) (by decide) (by decide)
  have erased := Dict.fieldsWeight_erase_of_some held
  have stored := fieldsWeight_insert_child (template.erase key) "spec"
    ((template.child "spec").insert key reference)
    (surcharge_eq_zero (by decide) (by decide) (by decide))
  have inside := Dict.fieldsWeight_insert_le (template.child "spec") key reference
  rw [Dict.child_erase_of_ne _ (by decide)] at stored
  simp only [cost, free] at erased inside
  split at stored <;> omega

theorem fieldsWeight_move (m : Mapping) : (move m).1.fieldsWeight ≤ m.fieldsWeight := by
  unfold move
  split
  · exact Nat.le_refl _
  · next spec template found =>
    split
    · exact Nat.le_refl _
    · next moved moves =>
      obtain ⟨-, heldSpec, heldTemplate⟩ := template?_eq_some_iff.mp found
      have inSpec := Dict.fieldsWeight_insert_of_some (.mapping moved) heldTemplate
      have inDocument := Dict.fieldsWeight_insert_of_some
        (.mapping (spec.insert "machineTemplate" (.mapping moved))) heldSpec
      have counts := count_keys_moved moves
      have lighter := fieldsWeight_moveInTemplate? moves
      have pays (fields : Mapping) : surcharge "machineTemplate" (.mapping fields) =
          fields.keys.count "infrastructureRef" := by
        simp [surcharge]
      simp only [cost, Dict.weight_mapping, pays] at inSpec
      simp only [cost, Dict.weight_mapping, surcharge_spec] at inDocument
      simp only [key] at counts
      dsimp only
      omega

end TemplateReference

/-! ## All rules -/

namespace Endpoint

theorem fieldsWeight_prune (m : Mapping) : (prune m).1.fieldsWeight ≤ m.fieldsWeight := by
  unfold prune
  split
  · exact Dict.fieldsWeight_erase_le _ _
  · exact Nat.le_refl _

end Endpoint

/-- No rule makes the fields of a mapping heavier, not even when it refuses the mapping. -/
theorem Rule.fieldsWeight_apply_le (rule : Rule) (m : Mapping) :
    (rule.apply m).left.fieldsWeight ≤ m.fieldsWeight := by
  cases rule with
  | argumentList => exact ArgumentList.fieldsWeight_convertKeys (fun _ listed => listed) m
  | groupReference => exact GroupReference.fieldsWeight_normalizeKeys (fun _ listed => listed) m
  | emptyEndpoint => exact Endpoint.fieldsWeight_prune m
  | healthCheck => exact HealthCheck.fieldsWeight_restructure m
  | templateReference => exact TemplateReference.fieldsWeight_move m

end ManifestMigration
