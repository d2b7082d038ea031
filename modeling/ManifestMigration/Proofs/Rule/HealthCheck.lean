import ManifestMigration.Proofs.Document.Mappings
import ManifestMigration.Rule.Weight

/-! # Settled health checks

A health check is settled when its spec holds no legacy field. Moving the fields of a spec settles
it, touches no other field than the two new blocks, and does nothing to a settled spec: the blocks
that are taken out are put back as they were, in their old places.
-/

namespace ManifestMigration.HealthCheck

variable {m spec : Mapping}

/-- The fields of a spec that move. -/
def legacyKeys : List String :=
  ["nodeStartupTimeout", "unhealthyConditions", "maxUnhealthy", "remediationTemplate"]

/-- The fields of a spec that a move touches: those that move, and the blocks they move to. -/
def touchedKeys : List String := legacyKeys ++ ["checks", "remediation"]

/-- The spec of a health check holds no legacy field. -/
def Settled (m : Mapping) : Prop :=
  m.hasKind kind = true → ∀ spec, m.get? "spec" = some (.mapping spec) →
    ∀ key ∈ legacyKeys, spec.get? key = none

/-! ## Putting a block in the place of two fields -/

/-- Erase two fields, and store a block when there is one to store. -/
def exchange (first second block : String) (stored : Bool) (value : Node) (spec : Mapping) :
    Mapping :=
  let rest := (spec.erase first).erase second
  if stored then rest.insert block value else rest

section Exchange

variable {first second block : String} {stored : Bool} {value : Node}

theorem get?_exchange_of_ne {other : String} (notFirst : other ≠ first) (notSecond : other ≠ second)
    (notBlock : other ≠ block) :
    (exchange first second block stored value spec).get? other = spec.get? other := by
  have rest : ((spec.erase first).erase second).get? other = spec.get? other := by
    rw [Dict.get?_erase_of_ne _ notSecond, Dict.get?_erase_of_ne _ notFirst]
  unfold exchange
  cases stored with
  | false => exact rest
  | true => exact (Dict.get?_insert_of_ne _ _ notBlock).trans rest

theorem get?_exchange_eq_none {other : String} (keyed : spec.WellKeyed) (notBlock : other ≠ block)
    (gone : other = first ∨ other = second ∨ spec.get? other = none) :
    (exchange first second block stored value spec).get? other = none := by
  have rest : ((spec.erase first).erase second).get? other = none := by
    refine Dict.get?_erase_eq_none (keyed.erase first).nodup second ?_
    rcases gone with erased | erased | absent
    · exact .inr (Dict.get?_erase_eq_none keyed.nodup first (.inl erased))
    · exact .inl erased
    · exact .inr (Dict.get?_erase_eq_none keyed.nodup first (.inr absent))
  unfold exchange
  cases stored with
  | false => exact rest
  | true => exact (Dict.get?_insert_of_ne _ _ notBlock).trans rest

theorem get?_exchange_block (notFirst : block ≠ first) (notSecond : block ≠ second) :
    (exchange first second block stored value spec).get? block =
      if stored then some value else spec.get? block := by
  unfold exchange
  cases stored with
  | true => exact Dict.get?_insert_self _ _ _
  | false =>
      simp only [Bool.false_eq_true, if_false]
      rw [Dict.get?_erase_of_ne _ notSecond, Dict.get?_erase_of_ne _ notFirst]

theorem wellKeyed_exchange (keyed : spec.WellKeyed) (block : String) (inside : value.WellKeyed) :
    (exchange first second block stored value spec).WellKeyed := by
  have rest : ((spec.erase first).erase second).WellKeyed := (keyed.erase first).erase second
  unfold exchange
  cases stored with
  | false => exact rest
  | true => exact rest.insert block inside

/-- The contents of a block go back where they were, so nothing changes. -/
theorem exchange_child (noFirst : spec.get? first = none) (noSecond : spec.get? second = none)
    (block : String) :
    exchange first second block (spec.hasChild block || !(spec.child block).isEmpty)
      (.mapping (spec.child block)) spec = spec := by
  have rest : (spec.erase first).erase second = spec := by
    rw [Dict.erase_of_none noFirst, Dict.erase_of_none noSecond]
  unfold exchange Dict.hasChild Dict.child
  rw [rest]
  cases found : spec.get? block with
  | none => rfl
  | some value =>
      cases value with
      | mapping fields => exact Dict.insert_of_get? found
      | sequence items => rfl
      | scalar leaf => rfl

end Exchange

theorem moveChecks_eq (spec : Mapping) :
    moveChecks spec =
      (exchange "nodeStartupTimeout" "unhealthyConditions" "checks"
        (spec.hasChild "checks" || !(newChecks spec).isEmpty) (.mapping (newChecks spec)) spec,
      spec.contains "nodeStartupTimeout" || spec.contains "unhealthyConditions") := rfl

theorem moveRemediation_eq (spec : Mapping) :
    moveRemediation spec =
      (exchange "maxUnhealthy" "remediationTemplate" "remediation"
        (spec.hasChild "remediation" || !(newRemediation spec).isEmpty)
        (.mapping (newRemediation spec)) spec,
      spec.contains "maxUnhealthy" || spec.contains "remediationTemplate") := rfl

theorem moveChecks_of_settled (noTimeout : spec.get? "nodeStartupTimeout" = none)
    (noConditions : spec.get? "unhealthyConditions" = none) : moveChecks spec = (spec, false) := by
  have checks : newChecks spec = spec.child "checks" := by
    simp [newChecks, newConditions?, noTimeout, noConditions, insertSome]
  rw [moveChecks_eq, checks, exchange_child noTimeout noConditions]
  simp [Dict.contains, noTimeout, noConditions]

theorem moveRemediation_of_settled (noThreshold : spec.get? "maxUnhealthy" = none)
    (noTemplate : spec.get? "remediationTemplate" = none) :
    moveRemediation spec = (spec, false) := by
  have remediation : newRemediation spec = spec.child "remediation" := by
    simp [newRemediation, noThreshold, noTemplate, withThreshold, withTemplate]
  rw [moveRemediation_eq, remediation, exchange_child noThreshold noTemplate]
  simp [Dict.contains, noThreshold, noTemplate]

/-! ## Looking into the blocks -/

theorem get?_insertSome (key other : String) (value : Option Node) (m : Mapping) :
    (insertSome key value m).get? other =
      if other = key then value.or (m.get? key) else m.get? other := by
  cases value with
  | none => by_cases same : other = key <;> simp [insertSome, same]
  | some v => simp [insertSome, Dict.get?_insert]

theorem get?_insertNew (key other : String) (value : Node) (m : Mapping) :
    (insertNew key value m).get? other =
      if other = key then some ((m.get? key).getD value) else m.get? other := by
  unfold insertNew Dict.contains
  cases stored : m.get? key with
  | none => simp [Dict.get?_insert]
  | some old =>
      by_cases same : other = key
      · simp [same, stored]
      · simp [same]

/-- A reference keeps what it has, and takes from the template what is named and missing. -/
theorem get?_fillFrom (template reference : Mapping) (names : List String) (other : String) :
    (fillFrom template names reference).get? other =
      (reference.get? other).or (if other ∈ names then template.get? other else none) := by
  induction names generalizing reference with
  | nil => simp [fillFrom]
  | cons key rest ih =>
      rw [fillFrom, ih]
      by_cases here : other = key
      · subst here
        cases found : template.get? other with
        | none => simp
        | some value => simp [get?_insertNew]
      · cases found : template.get? key with
        | none => simp [here]
        | some value => simp [here, get?_insertNew]

theorem get?_conditionFields (condition : Mapping) (other : String) :
    (conditionFields condition).get? other =
      if other = "timeoutSeconds" then timeoutSeconds? condition
      else if other = "status" then condition.get? "status"
      else if other = "type" then condition.get? "type" else none := by
  simp [conditionFields, get?_insertSome]

theorem get?_newChecks (spec : Mapping) (other : String) :
    (newChecks spec).get? other =
      if other = "unhealthyNodeConditions" then
        (newConditions? spec).or ((spec.child "checks").get? other)
      else if other = "nodeStartupTimeoutSeconds" then
        ((spec.get? "nodeStartupTimeout").map inSeconds).or ((spec.child "checks").get? other)
      else (spec.child "checks").get? other := by
  rw [newChecks, get?_insertSome, get?_insertSome, get?_insertSome]
  split
  · next here => subst here; rfl
  · split
    · next here => subst here; rfl
    · rfl

theorem get?_withThreshold_of_ne {threshold : Option Node} {other : String}
    (differs : other ≠ "triggerIf") : (withThreshold threshold m).get? other = m.get? other := by
  cases threshold with
  | none => rfl
  | some value => exact Dict.get?_insert_of_ne m _ differs

theorem get?_withTemplate_of_ne {template : Option Node} {other : String}
    (differs : other ≠ "templateRef") : (withTemplate template m).get? other = m.get? other := by
  unfold withTemplate
  split
  · exact Dict.get?_insert_of_ne m _ differs
  · rfl

theorem get?_newRemediation_of_ne {other : String} (notTrigger : other ≠ "triggerIf")
    (notTemplate : other ≠ "templateRef") :
    (newRemediation spec).get? other = (spec.child "remediation").get? other := by
  rw [newRemediation, get?_withTemplate_of_ne notTemplate, get?_withThreshold_of_ne notTrigger]

theorem get?_triggerIf_newRemediation (spec : Mapping) :
    (newRemediation spec).get? "triggerIf" =
      (withThreshold (spec.get? "maxUnhealthy") (spec.child "remediation")).get? "triggerIf" := by
  rw [newRemediation, get?_withTemplate_of_ne (by decide)]

theorem get?_templateRef_newRemediation (spec : Mapping) :
    (newRemediation spec).get? "templateRef" =
      (withTemplate (spec.get? "remediationTemplate") (spec.child "remediation")).get?
        "templateRef" := by
  have same : (withThreshold (spec.get? "maxUnhealthy") (spec.child "remediation")).get?
      "templateRef" = (spec.child "remediation").get? "templateRef" :=
    get?_withThreshold_of_ne (by decide)
  unfold newRemediation withTemplate
  split
  · rw [Dict.get?_insert_self, Dict.get?_insert_self, Dict.child_congr same]
  · exact same

/-! ## Well keyed blocks -/

theorem wellKeyed_inSeconds {value : Node} (keyed : value.WellKeyed) :
    (inSeconds value).WellKeyed := by
  unfold inSeconds
  split
  · exact Node.wellKeyed_scalar _
  · exact keyed

theorem wellKeyed_insertSome {key : String} {value : Option Node} (keyed : m.WellKeyed)
    (inside : ∀ v, value = some v → v.WellKeyed) : (insertSome key value m).WellKeyed := by
  cases value with
  | none => exact keyed
  | some v => exact keyed.insert key (inside v rfl)

theorem wellKeyed_conditionFields {condition : Mapping} (keyed : condition.WellKeyed) :
    (conditionFields condition).WellKeyed := by
  have timeout : ∀ v, timeoutSeconds? condition = some v → v.WellKeyed := by
    intro v found
    unfold timeoutSeconds? at found
    split at found
    · cases found
    · next value stored =>
        split at found
        · cases found
        · exact Option.some.inj found ▸ wellKeyed_inSeconds (keyed.of_get? stored)
  refine wellKeyed_insertSome (wellKeyed_insertSome (wellKeyed_insertSome .empty ?_) ?_) timeout
  · exact fun v found => keyed.of_get? found
  · exact fun v found => keyed.of_get? found

theorem convertCondition?_eq_some {condition converted : Node}
    (done : convertCondition? condition = some converted) :
    ∃ fields, condition = .mapping fields ∧ converted = .mapping (conditionFields fields) := by
  cases condition with
  | mapping fields =>
      simp only [convertCondition?] at done
      split at done
      · cases done
      · exact ⟨fields, rfl, (Option.some.inj done).symm⟩
  | sequence items => cases done
  | scalar leaf => cases done

theorem wellKeyed_convertCondition? {condition converted : Node} (keyed : condition.WellKeyed)
    (done : convertCondition? condition = some converted) : converted.WellKeyed := by
  obtain ⟨fields, rfl, rfl⟩ := convertCondition?_eq_some done
  exact wellKeyed_conditionFields keyed

theorem newConditions?_eq_some {conditions : Node}
    (stored : newConditions? spec = some conditions) :
    ∃ items, spec.get? "unhealthyConditions" = some (.sequence items) ∧
      conditions = .sequence (items.filterMap convertCondition?) := by
  unfold newConditions? at stored
  split at stored
  · cases stored
  · next old found =>
      simp only at stored
      split at stored
      · cases stored
      · next converts =>
          cases stored
          cases old with
          | sequence items => exact ⟨items, found, rfl⟩
          | mapping fields => exact absurd rfl converts
          | scalar leaf => exact absurd rfl converts

/-- One condition that is kept is enough for the conditions to be kept. -/
theorem newConditions?_of_mem {conditions : List Node} {condition : Node}
    (found : spec.get? "unhealthyConditions" = some (.sequence conditions))
    (member : condition ∈ conditions) (converts : (convertCondition? condition).isSome = true) :
    newConditions? spec = some (.sequence (conditions.filterMap convertCondition?)) := by
  obtain ⟨converted, done⟩ := Option.isSome_iff_exists.mp converts
  have nonempty : converted ∈ conditions.filterMap convertCondition? :=
    List.mem_filterMap.mpr ⟨condition, member, done⟩
  have isNonempty : (convertConditions (.sequence conditions)).isEmpty = false :=
    List.isEmpty_eq_false_iff.mpr (List.ne_nil_of_mem nonempty)
  simp only [newConditions?, found, isNonempty]
  rfl

theorem wellKeyed_newConditions? (keyed : spec.WellKeyed) {conditions : Node}
    (stored : newConditions? spec = some conditions) : conditions.WellKeyed := by
  obtain ⟨items, found, rfl⟩ := newConditions?_eq_some stored
  rw [Node.wellKeyed_sequence]
  intro converted member
  obtain ⟨condition, among, done⟩ := List.mem_filterMap.mp member
  exact wellKeyed_convertCondition? (Node.wellKeyed_sequence.mp (keyed.of_get? found) _ among) done

theorem wellKeyed_newChecks (keyed : spec.WellKeyed) : (newChecks spec).WellKeyed := by
  refine wellKeyed_insertSome (wellKeyed_insertSome (keyed.child "checks") ?_)
    fun conditions stored => wellKeyed_newConditions? keyed stored
  intro seconds stored
  obtain ⟨timeout, found, rfl⟩ := Option.map_eq_some_iff.mp stored
  exact wellKeyed_inSeconds (keyed.of_get? found)

theorem wellKeyed_insertNew {key : String} {value : Node} (keyed : m.WellKeyed)
    (inside : value.WellKeyed) : (insertNew key value m).WellKeyed := by
  unfold insertNew
  split
  · exact keyed
  · exact keyed.insert key inside

theorem wellKeyed_fillFrom {template reference : Mapping} (names : List String)
    (source : template.WellKeyed) (keyed : reference.WellKeyed) :
    (fillFrom template names reference).WellKeyed := by
  induction names generalizing reference with
  | nil => exact keyed
  | cons key rest ih =>
      refine ih ?_
      split
      · next value found => exact wellKeyed_insertNew keyed (source.of_get? found)
      · exact keyed

theorem wellKeyed_newRemediation (keyed : spec.WellKeyed) : (newRemediation spec).WellKeyed := by
  have threshold :
      (withThreshold (spec.get? "maxUnhealthy") (spec.child "remediation")).WellKeyed := by
    unfold withThreshold
    split
    · exact keyed.child _
    · next value found =>
        exact (keyed.child _).insert _
          (wellKeyed_insertNew ((keyed.child _).child "triggerIf") (keyed.of_get? found))
  unfold newRemediation withTemplate
  split
  · next fields found =>
      exact threshold.insert _
        (wellKeyed_fillFrom templateKeys (keyed.of_get? found) (threshold.child "templateRef"))
  · exact threshold

theorem wellKeyed_moveChecks (keyed : spec.WellKeyed) : (moveChecks spec).1.WellKeyed :=
  wellKeyed_exchange keyed "checks" (wellKeyed_newChecks keyed)

theorem wellKeyed_moveRemediation (keyed : spec.WellKeyed) : (moveRemediation spec).1.WellKeyed :=
  wellKeyed_exchange keyed "remediation" (wellKeyed_newRemediation keyed)

/-! ## The whole spec -/

def moved (spec : Mapping) : Mapping := (moveRemediation (moveChecks spec).1).1

theorem wellKeyed_moved (keyed : spec.WellKeyed) : (moved spec).WellKeyed :=
  wellKeyed_moveRemediation (wellKeyed_moveChecks keyed)

theorem get?_moved_of_notMem {other : String} (outside : other ∉ touchedKeys) :
    (moved spec).get? other = spec.get? other := by
  simp only [touchedKeys, legacyKeys, List.cons_append, List.nil_append, List.mem_cons,
    List.not_mem_nil, or_false, not_or] at outside
  obtain ⟨notTimeout, notConditions, notThreshold, notTemplate, notChecks, notRemediation⟩ := outside
  rw [moved, moveRemediation_eq, get?_exchange_of_ne notThreshold notTemplate notRemediation,
    moveChecks_eq, get?_exchange_of_ne notTimeout notConditions notChecks]

theorem get?_moved_of_legacy (keyed : spec.WellKeyed) {key : String} (legacy : key ∈ legacyKeys) :
    (moved spec).get? key = none := by
  have checked : (moveChecks spec).1.WellKeyed := wellKeyed_moveChecks keyed
  simp only [legacyKeys, List.mem_cons, List.not_mem_nil, or_false] at legacy
  rw [moved, moveRemediation_eq]
  rcases legacy with rfl | rfl | rfl | rfl
  · refine get?_exchange_eq_none checked (by decide) (.inr (.inr ?_))
    exact get?_exchange_eq_none keyed (by decide) (.inl rfl)
  · refine get?_exchange_eq_none checked (by decide) (.inr (.inr ?_))
    exact get?_exchange_eq_none keyed (by decide) (.inr (.inl rfl))
  · exact get?_exchange_eq_none checked (by decide) (.inl rfl)
  · exact get?_exchange_eq_none checked (by decide) (.inr (.inl rfl))

theorem get?_moveChecks_of_ne {other : String} (notTimeout : other ≠ "nodeStartupTimeout")
    (notConditions : other ≠ "unhealthyConditions") (notChecks : other ≠ "checks") :
    (moveChecks spec).1.get? other = spec.get? other := by
  rw [moveChecks_eq]
  exact get?_exchange_of_ne notTimeout notConditions notChecks

/-- Moving the checks changes nothing in what the remediation is made from. -/
theorem newRemediation_moveChecks (spec : Mapping) :
    newRemediation (moveChecks spec).1 = newRemediation spec := by
  have block : (moveChecks spec).1.child "remediation" = spec.child "remediation" :=
    Dict.child_congr (get?_moveChecks_of_ne (by decide) (by decide) (by decide))
  rw [newRemediation, newRemediation, block,
    get?_moveChecks_of_ne (by decide) (by decide) (by decide),
    get?_moveChecks_of_ne (by decide) (by decide) (by decide)]

theorem get?_checks_moved (spec : Mapping) :
    (moved spec).get? "checks" =
      if spec.hasChild "checks" || !(newChecks spec).isEmpty then some (.mapping (newChecks spec))
      else spec.get? "checks" := by
  rw [moved, moveRemediation_eq, get?_exchange_of_ne (by decide) (by decide) (by decide),
    moveChecks_eq, get?_exchange_block (by decide) (by decide)]

theorem get?_remediation_moved (spec : Mapping) :
    (moved spec).get? "remediation" =
      if spec.hasChild "remediation" || !(newRemediation spec).isEmpty then
        some (.mapping (newRemediation spec))
      else spec.get? "remediation" := by
  have same : (moveChecks spec).1.get? "remediation" = spec.get? "remediation" :=
    get?_moveChecks_of_ne (by decide) (by decide) (by decide)
  rw [moved, moveRemediation_eq, get?_exchange_block (by decide) (by decide),
    newRemediation_moveChecks, Dict.hasChild_congr same, same]

/-- A block with something in it is stored. -/
theorem get?_checks_moved_of_get? {key : String} {value : Node}
    (inside : (newChecks spec).get? key = some value) :
    (moved spec).get? "checks" = some (.mapping (newChecks spec)) := by
  rw [get?_checks_moved, Dict.isEmpty_eq_false_of_get? inside]
  simp

theorem get?_remediation_moved_of_get? {key : String} {value : Node}
    (inside : (newRemediation spec).get? key = some value) :
    (moved spec).get? "remediation" = some (.mapping (newRemediation spec)) := by
  rw [get?_remediation_moved, Dict.isEmpty_eq_false_of_get? inside]
  simp

/-! ## The rule -/

theorem restructure_of_spec? (found : spec? m = some spec) :
    restructure m = (m.insert "spec" (.mapping (moved spec)),
      (moveChecks spec).2 || (moveRemediation (moveChecks spec).1).2) := by
  rw [restructure, found]
  rfl

theorem restructure_of_no_spec (absent : spec? m = none) : restructure m = (m, false) := by
  rw [restructure, absent]

theorem restructure_of_settled (settled : Settled m) : restructure m = (m, false) := by
  cases found : spec? m with
  | none => exact restructure_of_no_spec found
  | some spec =>
      obtain ⟨isCheck, stored⟩ := spec?_eq_some_iff.mp found
      have gone := settled isCheck spec stored
      have checks : moveChecks spec = (spec, false) :=
        moveChecks_of_settled (gone _ (by decide)) (gone _ (by decide))
      have remediation : moveRemediation spec = (spec, false) :=
        moveRemediation_of_settled (gone _ (by decide)) (gone _ (by decide))
      rw [restructure_of_spec? found, moved, checks, remediation, Dict.insert_of_get? stored]
      rfl

theorem settled_of_restructure (still : (restructure m).2 = false) : Settled m := by
  intro isCheck spec stored
  rw [restructure_of_spec? (spec?_eq_some_iff.mpr ⟨isCheck, stored⟩)] at still
  simp only [moveChecks_eq, moveRemediation_eq, Bool.or_eq_false_iff, Dict.contains_eq_false_iff]
    at still
  obtain ⟨⟨noTimeout, noConditions⟩, noThreshold, noTemplate⟩ := still
  rw [get?_exchange_of_ne (by decide) (by decide) (by decide)] at noThreshold noTemplate
  intro key legacy
  simp only [legacyKeys, List.mem_cons, List.not_mem_nil, or_false] at legacy
  rcases legacy with rfl | rfl | rfl | rfl
  · exact noTimeout
  · exact noConditions
  · exact noThreshold
  · exact noTemplate

theorem get?_restructure_of_ne {other : String} (differs : other ≠ "spec") :
    (restructure m).1.get? other = m.get? other := by
  cases found : spec? m with
  | none => rw [restructure_of_no_spec found]
  | some spec =>
      rw [restructure_of_spec? found]
      exact Dict.get?_insert_of_ne m _ differs

/-- A spec stays a mapping, and the fields that no move touches stay in it. -/
theorem get?_spec_restructure (stored : m.get? "spec" = some (.mapping spec)) :
    ∃ spec', (restructure m).1.get? "spec" = some (.mapping spec') ∧
      ∀ other ∉ touchedKeys, spec'.get? other = spec.get? other := by
  cases found : spec? m with
  | none =>
      rw [restructure_of_no_spec found]
      exact ⟨spec, stored, fun _ _ => rfl⟩
  | some spec' =>
      obtain rfl : spec = spec' := by
        simpa using stored.symm.trans (spec?_eq_some_iff.mp found).2
      rw [restructure_of_spec? found]
      exact ⟨moved spec, Dict.get?_insert_self _ _ _, fun _ outside => get?_moved_of_notMem outside⟩

theorem hasKind_restructure (name : String) : (restructure m).1.hasKind name = m.hasKind name :=
  Dict.hasKind_congr (Dict.string?_congr (get?_restructure_of_ne (by decide))) name

theorem settled_restructure (keyed : m.WellKeyed) : Settled (restructure m).1 := by
  intro isCheck after stored
  rw [hasKind_restructure] at isCheck
  cases found : spec? m with
  | none =>
      rw [restructure_of_no_spec found] at stored
      exact nomatch found.symm.trans (spec?_eq_some_iff.mpr ⟨isCheck, stored⟩)
  | some spec =>
      have inside : spec.WellKeyed := keyed.of_get? (spec?_eq_some_iff.mp found).2
      rw [restructure_of_spec? found] at stored
      simp only [Dict.get?_insert_self, Option.some.injEq, Node.mapping.injEq] at stored
      exact stored ▸ fun key legacy => get?_moved_of_legacy inside legacy

theorem wellKeyed_restructure (keyed : m.WellKeyed) : (restructure m).1.WellKeyed := by
  cases found : spec? m with
  | none =>
      rw [restructure_of_no_spec found]
      exact keyed
  | some spec =>
      rw [restructure_of_spec? found]
      exact keyed.insert _ (wellKeyed_moved (keyed.of_get? (spec?_eq_some_iff.mp found).2))

end ManifestMigration.HealthCheck
