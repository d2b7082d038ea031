import ManifestMigration.Proofs.Document.Mappings
import ManifestMigration.Proofs.Rule.Steps
import ManifestMigration.Rule.ArgumentList

/-! # Settled argument lists

Arguments are settled when they stand in a sequence. A conversion that is not refused settles them,
key by key, and changes nothing under any other key.
-/

namespace ManifestMigration.ArgumentList

open Revision

variable {key : String} {m : Mapping}

/-- What stands under the key, if anything does, is a sequence. -/
def SettledAt (key : String) (m : Mapping) : Prop :=
  ∀ value, m.get? key = some value → value.shape = .sequence

def Settled (m : Mapping) : Prop := ∀ key ∈ keys, SettledAt key m

theorem SettledAt.congr {m' : Mapping} (same : m'.get? key = m.get? key)
    (settled : SettledAt key m) : SettledAt key m' := by
  intro value found
  exact settled value (same ▸ found)

theorem convertAt_of_settledAt (settled : SettledAt key m) : convertAt key m = .unchanged m := by
  unfold convertAt
  split
  · rfl
  · next arguments found => exact nomatch settled _ found
  · rfl
  · next value found => cases value <;> exact nomatch settled _ found

theorem settledAt_of_convertAt (still : (convertAt key m).outcome = .ok false) :
    SettledAt key m := by
  intro value found
  cases value with
  | mapping arguments => simp [convertAt, found] at still
  | sequence items => rfl
  | scalar leaf => simp [convertAt, found] at still

theorem settledAt_left_convertAt {changed : Bool}
    (done : (convertAt key m).outcome = .ok changed) : SettledAt key (convertAt key m).left := by
  unfold convertAt at done ⊢
  split at done
  · next absent => exact fun value found => nomatch absent.symm.trans found
  · next arguments found =>
      intro value stored
      simp only [Dict.get?_insert_self, Option.some.injEq] at stored
      rw [← stored]
      rfl
  · next items found =>
      intro value stored
      rw [Option.some.inj (stored.symm.trans found)]
      rfl
  · cases done

theorem get?_left_convertAt_of_ne {other : String} (differs : other ≠ key) :
    (convertAt key m).left.get? other = m.get? other := by
  unfold convertAt
  split
  · rfl
  · exact Dict.get?_insert_of_ne m _ differs
  · rfl
  · rfl

theorem wellKeyed_item (name : String) {value : Node} (keyed : value.WellKeyed) :
    (item name value).WellKeyed := by
  simp [item, Node.wellKeyed_mapping, Dict.keys, Node.wellKeyed_scalar, keyed]

theorem wellKeyed_items {arguments : Mapping} (keyed : arguments.WellKeyed) :
    (Node.sequence (items arguments)).WellKeyed := by
  rw [Node.wellKeyed_sequence]
  intro argument member
  obtain ⟨entry, inside, rfl⟩ := List.mem_map.mp member
  exact wellKeyed_item entry.1 (keyed.of_mem inside)

theorem wellKeyed_left_convertAt (keyed : m.WellKeyed) : (convertAt key m).left.WellKeyed := by
  unfold convertAt
  split
  · exact keyed
  · next arguments found => exact keyed.insert key (wellKeyed_items (keyed.of_get? found))
  · exact keyed
  · exact keyed

theorem settling : Settling Dict.WellKeyed convertAt SettledAt where
  good := wellKeyed_left_convertAt
  still := convertAt_of_settledAt
  settled_of_still := settledAt_of_convertAt
  settles := fun _ done => settledAt_left_convertAt done
  keeps := fun differs settled => settled.congr (get?_left_convertAt_of_ne differs)

theorem convertKeys_eq_run (names : List String) (m : Mapping) :
    convertKeys names m = run convertAt names m := by
  induction names generalizing m with
  | nil => rfl
  | cons key rest ih =>
      rw [convertKeys, run]
      exact congrArg _ (funext ih)

/-! ## The rule -/

theorem convert_of_settled (settled : Settled m) : convert m = .unchanged m := by
  rw [convert, convertKeys_eq_run]
  exact settling.run_of_settled settled

theorem settled_of_convert (still : (convert m).outcome = .ok false) : Settled m := by
  rw [convert, convertKeys_eq_run] at still
  exact settling.settled_of_run still

theorem settled_left_convert (keyed : m.WellKeyed) {changed : Bool}
    (done : (convert m).outcome = .ok changed) : Settled (convert m).left := by
  rw [convert, convertKeys_eq_run] at done ⊢
  exact settling.run_settles keyed done

theorem wellKeyed_left_convert (keyed : m.WellKeyed) : (convert m).left.WellKeyed := by
  rw [convert, convertKeys_eq_run]
  exact run_invariant (fun _ _ _ keyed => wellKeyed_left_convertAt keyed) keyed

theorem get?_left_convert_of_notMem {other : String} (outside : other ∉ keys) :
    (convert m).left.get? other = m.get? other := by
  rw [convert, convertKeys_eq_run]
  exact get?_left_run_of_notMem get?_left_convertAt_of_ne outside

end ManifestMigration.ArgumentList
