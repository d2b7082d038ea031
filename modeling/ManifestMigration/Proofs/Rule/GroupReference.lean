import ManifestMigration.Proofs.Document.Mappings
import ManifestMigration.Proofs.Rule.Steps
import ManifestMigration.Rule.Weight

/-! # Settled references

A reference is normal when it has no version, and has a group unless none can be inferred. The rule
normalizes the references of a mapping, and it touches normal references no more.
-/

namespace ManifestMigration.GroupReference

open Revision

variable {key : String} {m reference : Mapping}

/-- The reference has no version, and it has a group unless none can be inferred. -/
def Normal (reference : Mapping) : Prop :=
  reference.contains "apiVersion" = false ∧
    (reference.contains "apiGroup" = true ∨ Schema.inferGroup? reference = none)

def SettledAt (key : String) (m : Mapping) : Prop :=
  ∀ reference, m.get? key = some (.mapping reference) → Normal reference

def Settled (m : Mapping) : Prop := ∀ key ∈ keys, SettledAt key m

/-! ## One reference -/

theorem inferGroup?_eq_none_iff :
    Schema.inferGroup? reference = none ↔
      (reference.string? "apiVersion").bind Schema.groupOfVersion? = none ∧
        (reference.string? "kind").bind Schema.groupOfKind? = none := by
  unfold Schema.inferGroup?
  split
  · next group found => simp [found]
  · next absent => simp [absent]

/-- Without its version a reference still has no group to infer. -/
theorem inferGroup?_erase_apiVersion (distinct : reference.keys.Nodup)
    (unknown : Schema.inferGroup? reference = none) :
    Schema.inferGroup? (reference.erase "apiVersion") = none := by
  rw [inferGroup?_eq_none_iff] at unknown ⊢
  have version : (reference.erase "apiVersion").string? "apiVersion" = none := by
    simp [Dict.string?, Dict.get?_erase_self distinct]
  have kind : (reference.erase "apiVersion").string? "kind" = reference.string? "kind" := by
    rw [Dict.string?, Dict.get?_erase_of_ne _ (by decide), Dict.string?]
  rw [version, kind]
  exact ⟨rfl, unknown.2⟩

theorem newGroup?_eq_none_iff :
    newGroup? reference = none ↔
      (reference.contains "apiGroup" = true ∨ Schema.inferGroup? reference = none) := by
  unfold newGroup?
  split
  · next has => simp [has]
  · next lacks => simp [lacks]

theorem normalize_of_normal (normal : Normal reference) : normalize reference = (reference, false) := by
  rw [normalize, newGroup?_eq_none_iff.mpr normal.2]
  simp only [normal.1, Dict.erase_of_none (Dict.contains_eq_false_iff.mp normal.1)]

theorem normal_of_normalize (still : (normalize reference).2 = false) : Normal reference := by
  unfold normalize at still
  split at still
  · cases still
  · next nothing => exact ⟨still, newGroup?_eq_none_iff.mp nothing⟩

theorem normal_normalize (distinct : reference.keys.Nodup) : Normal (normalize reference).1 := by
  unfold normalize
  split
  · next group found =>
      constructor
      · exact Dict.contains_eq_false_iff.mpr
          (Dict.get?_erase_self (Dict.nodup_keys_insert distinct _ _) _)
      · left
        rw [Dict.contains_erase_of_ne _ (by decide), Dict.contains_insert]
        simp
  · next nothing =>
      refine ⟨Dict.contains_eq_false_iff.mpr (Dict.get?_erase_self distinct _), ?_⟩
      rw [Dict.contains_erase_of_ne _ (by decide)]
      exact (newGroup?_eq_none_iff.mp nothing).imp_right (inferGroup?_erase_apiVersion distinct)

theorem wellKeyed_normalize (keyed : reference.WellKeyed) : (normalize reference).1.WellKeyed := by
  unfold normalize
  split
  · exact (keyed.insert _ (Node.wellKeyed_scalar _)).erase _
  · exact keyed.erase _

/-! ## The reference under a key -/

theorem SettledAt.congr {m' : Mapping} (same : m'.get? key = m.get? key)
    (settled : SettledAt key m) : SettledAt key m' := by
  intro reference found
  exact settled reference (same ▸ found)

theorem normalizeAt_of_settledAt (settled : SettledAt key m) : normalizeAt key m = (m, false) := by
  unfold normalizeAt
  split
  · next reference found =>
      simp only [normalize_of_normal (settled reference found), Dict.insert_of_get? found]
  · rfl

theorem settledAt_of_normalizeAt (still : (normalizeAt key m).2 = false) : SettledAt key m := by
  intro reference found
  rw [normalizeAt, found] at still
  exact normal_of_normalize still

theorem settledAt_normalizeAt (keyed : m.WellKeyed) : SettledAt key (normalizeAt key m).1 := by
  unfold normalizeAt
  split
  · next reference found =>
      intro stored inside
      simp only [Dict.get?_insert_self, Option.some.injEq, Node.mapping.injEq] at inside
      have distinct : reference.keys.Nodup := Dict.WellKeyed.nodup (keyed.of_get? found)
      exact inside ▸ normal_normalize distinct
  · next other => exact fun reference found => absurd found (other reference)

theorem get?_normalizeAt_of_ne {other : String} (differs : other ≠ key) :
    (normalizeAt key m).1.get? other = m.get? other := by
  unfold normalizeAt
  split
  · exact Dict.get?_insert_of_ne m _ differs
  · rfl

theorem contains_normalizeAt (other : String) :
    (normalizeAt key m).1.contains other = m.contains other := by
  unfold normalizeAt
  split
  · next reference found =>
      rw [Dict.contains_insert]
      by_cases same : other = key
      · have there : m.contains key = true := Dict.contains_eq_true_iff.mpr ⟨_, found⟩
        rw [same, there, Bool.or_true]
      · have differs : (other == key) = false := by simpa using same
        rw [differs, Bool.false_or]
  · rfl

theorem wellKeyed_normalizeAt (keyed : m.WellKeyed) : (normalizeAt key m).1.WellKeyed := by
  unfold normalizeAt
  split
  · next reference found => exact keyed.insert key (wellKeyed_normalize (keyed.of_get? found))
  · exact keyed

/-- The normalization under one key, as a step that refuses nothing. -/
def stepAt (key : String) (m : Mapping) : Revision := .settled (normalizeAt key m)

theorem settling : Settling Dict.WellKeyed stepAt SettledAt where
  good := wellKeyed_normalizeAt
  still := fun settled => by rw [stepAt, normalizeAt_of_settledAt settled]; rfl
  settled_of_still := fun still => settledAt_of_normalizeAt (Except.ok.inj still)
  settles := fun keyed _ => settledAt_normalizeAt keyed
  keeps := fun differs settled => settled.congr (get?_normalizeAt_of_ne differs)

theorem normalizeKeys_eq_run (names : List String) (m : Mapping) :
    Revision.settled (normalizeKeys names m) = run stepAt names m := by
  induction names generalizing m with
  | nil => rfl
  | cons key rest ih =>
      have done : (stepAt key m).outcome = .ok (normalizeAt key m).2 := rfl
      rw [run, andThen_of_ok done]
      simp only [stepAt, Revision.settled, ← ih, normalizeKeys]
      rfl

/-! ## The rule -/

/-- The rule as a revision. -/
def revise (m : Mapping) : Revision := .settled (normalizeAll m)

theorem revise_eq_run (m : Mapping) : revise m = run stepAt keys m :=
  normalizeKeys_eq_run keys m

theorem revise_of_settled (settled : Settled m) : revise m = .unchanged m := by
  rw [revise_eq_run]
  exact settling.run_of_settled settled

theorem settled_of_revise (still : (revise m).outcome = .ok false) : Settled m := by
  rw [revise_eq_run] at still
  exact settling.settled_of_run still

theorem settled_left_revise (keyed : m.WellKeyed) : Settled (revise m).left := by
  have done : (revise m).outcome = .ok (normalizeAll m).2 := rfl
  rw [revise_eq_run] at done ⊢
  exact settling.run_settles keyed done

theorem wellKeyed_left_revise (keyed : m.WellKeyed) : (revise m).left.WellKeyed := by
  rw [revise_eq_run]
  exact run_invariant (fun _ _ _ keyed => wellKeyed_normalizeAt keyed) keyed

theorem get?_left_revise_of_notMem {other : String} (outside : other ∉ keys) :
    (revise m).left.get? other = m.get? other := by
  rw [revise_eq_run]
  exact get?_left_run_of_notMem get?_normalizeAt_of_ne outside

theorem contains_left_revise (other : String) :
    (revise m).left.contains other = m.contains other := by
  rw [revise_eq_run]
  refine run_invariant (P := fun m' => m'.contains other = m.contains other) ?_ rfl
  intro key _ m' same
  exact (contains_normalizeAt other).trans same

end ManifestMigration.GroupReference
