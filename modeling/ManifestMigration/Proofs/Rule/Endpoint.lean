import ManifestMigration.Proofs.Document.Mappings
import ManifestMigration.Rule.Weight

/-! # Settled endpoints

An endpoint is settled when it has a host that is no blank string. The rule prunes exactly the
others.
-/

namespace ManifestMigration.Endpoint

variable {m endpoint : Mapping}

def HasHost (endpoint : Mapping) : Prop :=
  ∃ host, endpoint.get? "host" = some host ∧
    ∀ text, host = .string text → text.toList.all Text.isBlank = false

/-- A control plane endpoint in the mapping has a host. -/
def Settled (m : Mapping) : Prop :=
  ∀ endpoint, m.get? key = some (.mapping endpoint) → HasHost endpoint

theorem lacksHost_eq_false_iff : lacksHost endpoint = false ↔ HasHost endpoint := by
  unfold lacksHost HasHost
  split
  · next absent => simp [absent]
  · next text found => simp [found]
  · next host other found =>
      simp only [found, Option.some.injEq, exists_eq_left', true_iff]
      rintro text rfl
      exact absurd rfl (other text)

theorem isPrunable_eq_false_iff : isPrunable m = false ↔ Settled m := by
  unfold isPrunable
  split
  · next endpoint found =>
      rw [lacksHost_eq_false_iff]
      constructor
      · intro host stored same
        obtain rfl : endpoint = stored := by simpa using found.symm.trans same
        exact host
      · exact fun settled => settled endpoint found
  · next other => exact iff_of_true rfl fun endpoint found => absurd found (other endpoint)

theorem prune_of_settled (settled : Settled m) : prune m = (m, false) := by
  simp only [prune, isPrunable_eq_false_iff.mpr settled, Bool.false_eq_true, if_false]

theorem settled_of_prune (still : (prune m).2 = false) : Settled m := by
  unfold prune at still
  split at still
  · cases still
  · next keep => exact isPrunable_eq_false_iff.mp (by simpa using keep)

theorem settled_prune (keyed : m.WellKeyed) : Settled (prune m).1 := by
  unfold prune
  split
  · intro endpoint found
    exact nomatch (Dict.get?_erase_self keyed.nodup key).symm.trans found
  · next keep => exact isPrunable_eq_false_iff.mp (by simpa using keep)

theorem wellKeyed_prune (keyed : m.WellKeyed) : (prune m).1.WellKeyed := by
  unfold prune
  split
  · exact keyed.erase key
  · exact keyed

theorem get?_prune_of_ne {other : String} (differs : other ≠ key) :
    (prune m).1.get? other = m.get? other := by
  unfold prune
  split
  · exact Dict.get?_erase_of_ne m differs
  · rfl

end ManifestMigration.Endpoint
