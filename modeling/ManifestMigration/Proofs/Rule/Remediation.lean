import ManifestMigration.Proofs.Rule.Containers

/-! # What the remediation of a health check holds

The threshold of a health check and the fields of its template merge into its remediation, where
what is there already wins. The two merges go into blocks of their own, side by side, and each of the
blocks is there afterwards when it was before or when there is something to merge into it
(`remediation_merged`).
-/

namespace ManifestMigration.HealthCheck

variable {m spec after : Mapping}

/-- What becomes of a spec whose threshold and template merge into its remediation. -/
structure RemediationMerged (spec after : Mapping) : Prop where
  thresholdGone : after.get? "maxUnhealthy" = none
  templateGone : after.get? "remediationTemplate" = none
  threshold : (triggerIn after).get? "unhealthyLessThanOrEqualTo" =
    ((triggerIn spec).get? "unhealthyLessThanOrEqualTo").or (spec.get? "maxUnhealthy")
  triggerKept : ∀ key, key ≠ "unhealthyLessThanOrEqualTo" →
    (triggerIn after).get? key = (triggerIn spec).get? key
  /-- The template has fields to take only when it is a mapping. -/
  reference : ∀ key ∈ ["kind", "name", "apiVersion"], (referenceIn after).get? key =
    ((referenceIn spec).get? key).or ((spec.child "remediationTemplate").get? key)
  referenceKept : ∀ key ∉ ["kind", "name", "apiVersion"],
    (referenceIn after).get? key = (referenceIn spec).get? key
  remediationKept : ∀ key, key ≠ "triggerIf" → key ≠ "templateRef" →
    (after.child "remediation").get? key = (spec.child "remediation").get? key
  remediationBlock : after.AbsentOrMapping "remediation"
  remediationThere : after.contains "remediation" = true ↔ spec.contains "remediation" = true ∨
    spec.contains "maxUnhealthy" = true ∨ spec.hasChild "remediationTemplate" = true
  triggerBlock : (after.child "remediation").AbsentOrMapping "triggerIf"
  triggerThere : (after.child "remediation").contains "triggerIf" = true ↔
    (spec.child "remediation").contains "triggerIf" = true ∨ spec.contains "maxUnhealthy" = true
  referenceBlock : (after.child "remediation").AbsentOrMapping "templateRef"
  referenceThere : (after.child "remediation").contains "templateRef" = true ↔
    (spec.child "remediation").contains "templateRef" = true ∨
      spec.hasChild "remediationTemplate" = true

/-! ## The two merges -/

theorem get?_child_triggerIf (spec : Mapping) (key : String) :
    ((newRemediation spec).child "triggerIf").get? key =
      if key = "unhealthyLessThanOrEqualTo" then
        ((triggerIn spec).get? key).or (spec.get? "maxUnhealthy")
      else (triggerIn spec).get? key := by
  have found := get?_triggerIf spec
  cases threshold : spec.get? "maxUnhealthy" with
  | none =>
      rw [threshold] at found
      rw [Dict.child_congr found, Option.or_none, ite_self, triggerIn]
  | some value =>
      rw [threshold] at found
      rw [Dict.child_of_get? found, get?_insertNew]
      split
      · next here =>
          subst here
          cases (triggerIn spec).get? "unhealthyLessThanOrEqualTo" <;> rfl
      · rfl

theorem get?_child_templateRef (spec : Mapping) (key : String) :
    ((newRemediation spec).child "templateRef").get? key =
      ((referenceIn spec).get? key).or
        (if key ∈ templateKeys then (spec.child "remediationTemplate").get? key else none) := by
  have found := get?_templateRef spec
  cases template : spec.hasChild "remediationTemplate" with
  | true =>
      rw [if_pos template] at found
      rw [Dict.child_of_get? found, get?_fillFrom]
  | false =>
      rw [template, if_neg Bool.false_ne_true] at found
      rw [Dict.child_congr found, Dict.child_of_not_hasChild template, Dict.get?_empty, ite_self,
        Option.or_none, referenceIn]

theorem child_remediation_moved (spec : Mapping) :
    (moved spec).child "remediation" = newRemediation spec :=
  Dict.child_of_stored (get?_remediation_moved spec)

theorem triggerIn_moved (spec : Mapping) :
    triggerIn (moved spec) = (newRemediation spec).child "triggerIf" := by
  rw [triggerIn, child_remediation_moved]

theorem referenceIn_moved (spec : Mapping) :
    referenceIn (moved spec) = (newRemediation spec).child "templateRef" := by
  rw [referenceIn, child_remediation_moved]

theorem remediationMerged_moved (keyed : spec.WellKeyed)
    (block : spec.AbsentOrMapping "remediation")
    (trigger : (spec.child "remediation").AbsentOrMapping "triggerIf")
    (reference : (spec.child "remediation").AbsentOrMapping "templateRef") :
    RemediationMerged spec (moved spec) where
  thresholdGone := get?_moved_of_legacy keyed (by decide)
  templateGone := get?_moved_of_legacy keyed (by decide)
  threshold := by rw [triggerIn_moved, get?_child_triggerIf, if_pos rfl]
  triggerKept := by
    intro key other
    rw [triggerIn_moved, get?_child_triggerIf, if_neg other]
  reference := by
    intro key named
    rw [referenceIn_moved, get?_child_templateRef, if_pos (show key ∈ templateKeys from named)]
  referenceKept := by
    intro key unnamed
    rw [referenceIn_moved, get?_child_templateRef, if_neg (show key ∉ templateKeys from unnamed),
      Option.or_none]
  remediationKept := by
    intro key notTrigger notReference
    rw [child_remediation_moved, get?_newRemediation_of_ne notTrigger notReference]
  remediationBlock := Dict.absentOrMapping_of_stored (get?_remediation_moved spec) block
  remediationThere :=
    Dict.contains_of_stored (get?_remediation_moved spec) block isEmpty_newRemediation_iff
  triggerBlock := by
    intro value found
    rw [child_remediation_moved, get?_triggerIf] at found
    split at found
    · exact ⟨_, (Option.some.inj found).symm⟩
    · exact trigger value found
  triggerThere := by
    rw [child_remediation_moved, Dict.contains, get?_triggerIf, Dict.contains, Dict.contains]
    cases spec.get? "maxUnhealthy" <;> simp
  referenceBlock := by
    intro value found
    rw [child_remediation_moved, get?_templateRef] at found
    split at found
    · exact ⟨_, (Option.some.inj found).symm⟩
    · exact reference value found
  referenceThere := by
    rw [child_remediation_moved, Dict.contains, get?_templateRef, Dict.contains]
    cases spec.hasChild "remediationTemplate" <;> simp

/-! ## The rule -/

/-- The rule fires when there is a legacy field in the spec. -/
theorem restructure_fires_iff (found : spec? m = some spec) :
    (restructure m).2 = true ↔ ∃ key ∈ legacyKeys, spec.contains key = true := by
  obtain ⟨isCheck, hasSpec⟩ := spec?_eq_some_iff.mp found
  constructor
  · intro fires
    by_contra none
    have settled : Settled m := by
      intro _ spec' hasSpec' key legacy
      obtain rfl : spec = spec' := by simpa using hasSpec.symm.trans hasSpec'
      rw [← Dict.contains_eq_false_iff, ← Bool.not_eq_true]
      exact fun there => none ⟨key, legacy, there⟩
    rw [restructure_of_settled settled] at fires
    cases fires
  · rintro ⟨key, legacy, there⟩
    by_contra still
    have settled := settled_of_restructure (Bool.not_eq_true _ ▸ still)
    have absent := settled isCheck spec hasSpec key legacy
    rw [Dict.contains, absent] at there
    cases there

/-- The rule changes a mapping when it fires, and then it does change it. -/
theorem restructure_ne_iff (keyed : m.WellKeyed) :
    (restructure m).1 ≠ m ↔ (restructure m).2 = true := by
  constructor
  · intro differs
    by_contra still
    have settled := settled_of_restructure (Bool.not_eq_true _ ▸ still)
    exact differs (by rw [restructure_of_settled settled])
  · intro fires same
    -- What the rule leaves is settled, and on what is settled it does not fire.
    have settled : Settled m := same ▸ settled_restructure keyed
    rw [restructure_of_settled settled] at fires
    cases fires

/-- The threshold and the template of a health check merge into its remediation without overwriting
    what is there. The rule fires when the spec has a legacy field, and it changes nothing
    otherwise. -/
theorem remediation_merged (keyed : m.WellKeyed) (isCheck : m.hasKind kind = true)
    (hasSpec : m.get? "spec" = some (.mapping spec))
    (block : spec.AbsentOrMapping "remediation")
    (trigger : (spec.child "remediation").AbsentOrMapping "triggerIf")
    (reference : (spec.child "remediation").AbsentOrMapping "templateRef") :
    ∃ changed after, (Rule.healthCheck.apply m).outcome = .ok changed ∧
      (Rule.healthCheck.apply m).left.get? "spec" = some (.mapping after) ∧
        RemediationMerged spec after ∧
        (changed = true ↔ ∃ key ∈ ["nodeStartupTimeout", "unhealthyConditions", "maxUnhealthy",
          "remediationTemplate"], spec.contains key = true) ∧
        ((Rule.healthCheck.apply m).left ≠ m ↔ changed = true) := by
  have inside : spec.WellKeyed := keyed.of_get? hasSpec
  have found : spec? m = some spec := spec?_eq_some_iff.mpr ⟨isCheck, hasSpec⟩
  refine ⟨(restructure m).2, moved spec, rfl, ?_,
    remediationMerged_moved inside block trigger reference, restructure_fires_iff found,
    restructure_ne_iff keyed⟩
  change (restructure m).1.get? "spec" = _
  rw [restructure_of_spec? found, Dict.get?_insert_self]

theorem remediation_merged_template :
    let spec : Mapping := ⟨[("remediationTemplate", .mapping ⟨[("namespace", .string "left"),
        ("name", .string "new"), ("kind", .string "Template")]⟩),
      ("remediation", .mapping ⟨[("templateRef", .mapping ⟨[("name", .string "old")]⟩)]⟩),
      ("maxUnhealthy", .string "40%")]⟩
    let m : Mapping := ⟨[("kind", .string "MachineHealthCheck"), ("spec", .mapping spec)]⟩
    m.WellKeyed ∧ m.hasKind kind = true ∧ m.get? "spec" = some (.mapping spec) ∧
      spec.AbsentOrMapping "remediation" ∧
      (spec.child "remediation").AbsentOrMapping "triggerIf" ∧
      (spec.child "remediation").AbsentOrMapping "templateRef" ∧
        ∃ changed after, (Rule.healthCheck.apply m).outcome = .ok changed ∧
          (Rule.healthCheck.apply m).left.get? "spec" = some (.mapping after) ∧
            RemediationMerged spec after ∧ changed = true ∧ (Rule.healthCheck.apply m).left ≠ m ∧
              (triggerIn after).get? "unhealthyLessThanOrEqualTo" = some (.string "40%") ∧
              (referenceIn after).get? "name" = some (.string "old") ∧
              (referenceIn after).get? "kind" = some (.string "Template") := by
  intro spec m
  have keyed : m.WellKeyed := by
    simp [m, spec, Dict.WellKeyed, Node.wellKeyed_mapping, Dict.keys, Node.wellKeyed_scalar]
  have block : spec.AbsentOrMapping "remediation" :=
    fun value stored => ⟨_, (Option.some.inj stored).symm⟩
  have trigger : (spec.child "remediation").AbsentOrMapping "triggerIf" :=
    fun value stored => nomatch stored
  have reference : (spec.child "remediation").AbsentOrMapping "templateRef" :=
    fun value stored => ⟨_, (Option.some.inj stored).symm⟩
  refine ⟨keyed, rfl, rfl, block, trigger, reference, ?_⟩
  obtain ⟨changed, after, done, left, merged, fires, differs⟩ :=
    remediation_merged keyed rfl rfl block trigger reference
  have fired : changed = true := fires.mpr ⟨"maxUnhealthy", by decide, rfl⟩
  exact ⟨changed, after, done, left, merged, fired, differs.mpr fired, merged.threshold,
    merged.reference "name" (by decide), merged.reference "kind" (by decide)⟩

end ManifestMigration.HealthCheck
