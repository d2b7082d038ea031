import ManifestMigration.Proofs.Rule.Order
import ManifestMigration.Proofs.Schema.Inference

/-! # What becomes of references

A reference loses its version. A group comes behind its other entries, if it has none and one can be
inferred from what it says; no group is made up, replaced or cut short. The rule does this under its
three keys and changes nothing else, and it fires exactly when a reference is not as it was
(`references_normalized`).
-/

namespace ManifestMigration.GroupReference

variable {key : String} {m reference : Mapping}

/-! ## One reference -/

/-- What comes behind the entries of a reference. -/
def addedGroup (reference : Mapping) : List (String × Node) :=
  if reference.contains "apiGroup" then []
  else (Schema.inferGroup? reference).toList.map fun group => ("apiGroup", .string group)

theorem addedGroup_eq (reference : Mapping) :
    addedGroup reference =
      (newGroup? reference).toList.map fun group => ("apiGroup", .string group) := by
  unfold addedGroup newGroup?
  split <;> rfl

theorem entries_normalize (distinct : reference.keys.Nodup) :
    (normalize reference).1.entries =
      reference.entries.filter (·.1 != "apiVersion") ++ addedGroup reference := by
  rw [addedGroup_eq]
  cases new : newGroup? reference with
  | none =>
      simp only [normalize, new]
      rw [Dict.entries_erase distinct]
      exact (List.append_nil _).symm
  | some group =>
      have lacks : "apiGroup" ∉ reference.keys := by
        rw [← Dict.get?_eq_none_iff, ← Dict.contains_eq_false_iff, ← Bool.not_eq_true]
        intro has
        cases new.symm.trans (newGroup?_eq_none_iff.mpr (.inl has))
      simp only [normalize, new]
      rw [Dict.entries_erase (Dict.nodup_keys_insert distinct _ _), Dict.insert_of_notMem _ lacks,
        List.filter_append]
      rfl

/-- A value under a key of references, after the rule. -/
def regroup : Node → Node
  | .mapping reference => .mapping (normalize reference).1
  | value => value

theorem map_regroup_of_no_mapping {value? : Option Node}
    (other : ∀ reference, value? ≠ some (.mapping reference)) : value?.map regroup = value? := by
  match value? with
  | none => rfl
  | some (.mapping reference) => exact absurd rfl (other reference)
  | some (.sequence _) => rfl
  | some (.scalar _) => rfl

/-! ## All references of a mapping -/

theorem get?_left_revise_of_mem (member : key ∈ keys) :
    (revise m).left.get? key = (normalizeAt key m).1.get? key := by
  rw [revise_eq_run]
  exact Revision.get?_left_run_of_mem get?_normalizeAt_of_ne (fun same => (stepAt_congr same).2)
    (fun key m => ⟨(normalizeAt key m).2, rfl⟩) (by decide) member

theorem get?_left_revise (member : key ∈ keys) :
    (revise m).left.get? key = (m.get? key).map regroup := by
  rw [get?_left_revise_of_mem member, normalizeAt]
  split
  · next reference stored =>
      rw [Dict.get?_insert_self, stored]
      rfl
  · next other => exact (map_regroup_of_no_mapping other).symm

theorem keys_left_revise (m : Mapping) : (revise m).left.keys = m.keys := by
  rw [revise_eq_run]
  exact Revision.keys_left_run keys_left_stepAt

/-- The rule does not fire exactly when it leaves every reference as it is. -/
theorem still_iff (keyed : m.WellKeyed) :
    (normalizeAll m).2 = false ↔ ∀ key ∈ keys, (revise m).left.get? key = m.get? key := by
  constructor
  · intro still key _
    have settled : Settled m := settled_of_revise (congrArg Except.ok still)
    rw [revise_of_settled settled]
    rfl
  · intro same
    -- What the rule leaves is settled, so the mapping was settled if its references are the same.
    have settled : Settled m := fun key member =>
      (settled_left_revise keyed key member).congr (same key member).symm
    exact Except.ok.inj (congrArg Revision.outcome (revise_of_settled settled))

/-- What normalizing the references of a mapping comes to. -/
structure ReferencesNormalized (m after : Mapping) (changed : Bool) : Prop where
  keys : after.keys = m.keys
  others : ∀ key ∉ ["infrastructureRef", "controlPlaneRef", "configRef"],
    after.get? key = m.get? key
  /-- References that are no mappings stay as they are. -/
  noMapping : ∀ key, (∀ reference, m.get? key ≠ some (.mapping reference)) →
    after.get? key = m.get? key
  normalized : ∀ key ∈ ["infrastructureRef", "controlPlaneRef", "configRef"], ∀ reference,
    m.get? key = some (.mapping reference) →
      ∃ block, after.get? key = some (.mapping block) ∧
        block.entries = reference.entries.filter (·.1 != "apiVersion") ++ addedGroup reference
  fires : changed = true ↔
    ∃ key ∈ ["infrastructureRef", "controlPlaneRef", "configRef"], after.get? key ≠ m.get? key

theorem referencesNormalized_left_revise (keyed : m.WellKeyed) :
    ReferencesNormalized m (revise m).left (normalizeAll m).2 where
  keys := keys_left_revise m
  others _ outside := get?_left_revise_of_notMem outside
  noMapping key other := by
    by_cases member : key ∈ GroupReference.keys
    · rw [get?_left_revise member, map_regroup_of_no_mapping other]
    · exact get?_left_revise_of_notMem member
  normalized key member reference stored := by
    have distinct : reference.keys.Nodup := Dict.WellKeyed.nodup (keyed.of_get? stored)
    refine ⟨(normalize reference).1, ?_, entries_normalize distinct⟩
    rw [get?_left_revise member, stored]
    rfl
  fires := by
    rw [← Bool.not_eq_false, still_iff keyed]
    simp only [Classical.not_forall, exists_prop, ne_eq]
    rfl

/-- References lose their version, keep their other entries in order and are given a group that can
    be inferred, unless they have one; and inference asks its sources in their order. -/
theorem references_normalized (keyed : m.WellKeyed) :
    (∃ changed, (Rule.apply .groupReference m).outcome = .ok changed ∧
      ReferencesNormalized m (Rule.apply .groupReference m).left changed) ∧
    ∀ reference group?, Schema.inferGroup? reference = group? ↔
      Schema.Infers reference group? ∧
        ∀ group ∈ group?, group ≠ "" ∧ '/' ∉ group.toList := by
  constructor
  · exact ⟨(normalizeAll m).2, rfl, referencesNormalized_left_revise keyed⟩
  · intro reference group?
    rw [Schema.inferGroup?_eq_iff, iff_self_and]
    rintro infers group rfl
    exact infers.isName

/-- One reference with a version of two slashes, one with a group of its own, and one of a kind that
    is in the table and looks like infrastructure too. -/
theorem references_normalized_three :
    let m : Mapping := ⟨[
      ("configRef", .mapping ⟨[("apiGroup", .null), ("apiVersion", .string "a/b"),
        ("name", .string "boot")]⟩),
      ("infrastructureRef", .mapping ⟨[("kind", .string "KubeadmConfig"),
        ("apiVersion", .string "infra.io/v1/x"), ("name", .string "demo")]⟩),
      ("controlPlaneRef", .mapping ⟨[("apiVersion", .string "/v1"),
        ("kind", .string "KubeadmConfig")]⟩)]⟩
    m.WellKeyed ∧ (Rule.apply .groupReference m).outcome = .ok true ∧
      ReferencesNormalized m (Rule.apply .groupReference m).left true ∧
        (Rule.apply .groupReference m).left = ⟨[
          ("configRef", .mapping ⟨[("apiGroup", .null), ("name", .string "boot")]⟩),
          ("infrastructureRef", .mapping ⟨[("kind", .string "KubeadmConfig"),
            ("name", .string "demo"), ("apiGroup", .string "infra.io")]⟩),
          ("controlPlaneRef", .mapping ⟨[("kind", .string "KubeadmConfig"),
            ("apiGroup", .string "bootstrap.cluster.x-k8s.io")]⟩)]⟩ := by
  intro m
  have keyed : m.WellKeyed := by
    simp [m, Dict.WellKeyed, Node.wellKeyed_mapping, Dict.keys, Node.wellKeyed_scalar]
  have fired : (Rule.apply .groupReference m).outcome = .ok true := by decide +kernel
  obtain ⟨⟨changed, done, normalized⟩, -⟩ := references_normalized keyed
  cases fired.symm.trans done
  exact ⟨keyed, fired, normalized, by decide +kernel⟩

end ManifestMigration.GroupReference
