import Mathlib.Data.List.Nodup
import ManifestMigration.Proofs.Dict.Lookup

/-! # The order of keys through changes

A dictionary is reshaped by a change that owns some of its keys: what else it holds stays as it is,
the keys that stay keep their order, and new keys come after them. Storing and erasing reshape, as
long as no key that was erased is stored again.
-/

namespace ManifestMigration.Dict

variable {α : Type} {before d : Dict α} {owned : List String} {key : String}

/-- The keys of the first dictionary that are in the second one come first there and in their order;
    after them come keys that are new. -/
def KeepsOrder (before after : Dict α) : Prop :=
  ∃ fresh, after.keys = before.keys.filter (· ∈ after.keys) ++ fresh ∧
    ∀ key ∈ fresh, key ∉ before.keys

/-- A change that owns some keys has made the second dictionary from the first. -/
structure Reshaped (owned : List String) (before after : Dict α) : Prop where
  order : before.KeepsOrder after
  others : ∀ key ∉ owned, after.get? key = before.get? key

theorem KeepsOrder.refl (d : Dict α) : d.KeepsOrder d := by
  refine ⟨[], ?_, by simp⟩
  rw [List.append_nil, List.filter_eq_self.mpr]
  intro key member
  exact decide_eq_true member

/-- Fewer keys in the same order are in order. -/
theorem KeepsOrder.of_sublist {after : Dict α} (distinct : before.keys.Nodup)
    (among : after.keys.Sublist before.keys) : before.KeepsOrder after := by
  refine ⟨[], ?_, by simp⟩
  have mem : (after.contains ·) = fun key => decide (key ∈ after.keys) := by
    funext key
    rw [Bool.eq_iff_iff, contains_iff_mem_keys, decide_eq_true_iff]
  rw [List.append_nil, ← mem]
  exact keys_eq_filter distinct among

/-- A key that is stored stays where it is, or it is new and comes last. -/
theorem KeepsOrder.insert (order : before.KeepsOrder d)
    (stays : before.contains key = true → d.contains key = true) (value : α) :
    before.KeepsOrder (d.insert key value) := by
  obtain ⟨fresh, keys, isFresh⟩ := order
  rw [contains_iff_mem_keys, contains_iff_mem_keys] at stays
  unfold KeepsOrder
  rw [keys_insert]
  split
  · exact ⟨fresh, keys, isFresh⟩
  · next absent =>
      have unknown : key ∉ before.keys := mt stays absent
      have kept : before.keys.filter (· ∈ d.keys ++ [key]) = before.keys.filter (· ∈ d.keys) := by
        refine List.filter_congr fun other member => ?_
        have differs : other ≠ key := fun same => unknown (same ▸ member)
        simp [differs]
      refine ⟨fresh ++ [key], ?_, ?_⟩
      · rw [kept, ← List.append_assoc, ← keys]
      · intro other member
        rcases List.mem_append.mp member with old | last
        · exact isFresh other old
        · exact List.mem_singleton.mp last ▸ unknown

theorem KeepsOrder.erase (order : before.KeepsOrder d) (distinct : d.keys.Nodup) (key : String) :
    before.KeepsOrder (d.erase key) := by
  obtain ⟨fresh, keys, isFresh⟩ := order
  refine ⟨fresh.filter (· != key), ?_,
    fun other member => isFresh other (List.mem_of_mem_filter member)⟩
  have left : (d.erase key).keys = d.keys.filter (· != key) := by
    rw [keys_erase, distinct.erase_eq_filter]
  have kept : before.keys.filter (· ∈ (d.erase key).keys) =
      (before.keys.filter (· ∈ d.keys)).filter (· != key) := by
    rw [List.filter_filter]
    refine List.filter_congr fun other _ => ?_
    rw [left, Bool.eq_iff_iff]
    simp [List.mem_filter, and_comm]
  rw [kept, left, ← List.filter_append, ← keys]

namespace Reshaped

theorem refl (owned : List String) (d : Dict α) : d.Reshaped owned d :=
  ⟨.refl d, fun _ _ => rfl⟩

theorem insert (reshaped : before.Reshaped owned d) (own : key ∈ owned)
    (stays : before.contains key = true → d.contains key = true) (value : α) :
    before.Reshaped owned (d.insert key value) where
  order := reshaped.order.insert stays value
  others := by
    intro other notOwned
    have differs : other ≠ key := fun same => notOwned (same ▸ own)
    rw [get?_insert_of_ne d value differs, reshaped.others other notOwned]

theorem of_insert (own : key ∈ owned) (value : α) : d.Reshaped owned (d.insert key value) :=
  (refl owned d).insert own (fun there => there) value

theorem erase (reshaped : before.Reshaped owned d) (own : key ∈ owned) (distinct : d.keys.Nodup) :
    before.Reshaped owned (d.erase key) where
  order := reshaped.order.erase distinct key
  others := by
    intro other notOwned
    have differs : other ≠ key := fun same => notOwned (same ▸ own)
    rw [get?_erase_of_ne d differs, reshaped.others other notOwned]

end Reshaped

end ManifestMigration.Dict
