import ManifestMigration.Proofs.Walk.Settled

/-! # Walks keep keys distinct

No rule puts a key twice into a mapping, and the walk itself puts back what it took out. So a walk
leaves a well keyed document well keyed, also when it is refused on the way.
-/

namespace ManifestMigration.Node

variable {rules : List Rule}

theorem keys_left_walkEntries (path : Path) (entries : List (String × Node)) :
    (walkEntries rules path entries).left.map (·.1) = entries.map (·.1) := by
  induction entries with
  | nil => rw [walkEntries]; rfl
  | cons entry rest ih =>
      rw [walkEntries, Walked.andThen]
      split
      · rfl
      · exact congrArg (entry.1 :: ·) ih

/-- What a walk leaves of a well keyed part of a document is well keyed, refused or not. -/
theorem wellKeyed_left_walk (path : Path) {node : Node} (keyed : node.WellKeyed) :
    (walk rules path node).left.WellKeyed := by
  revert keyed
  refine (walk.mutual_induct rules
    (fun path node => node.WellKeyed → (walk rules path node).left.WellKeyed)
    (fun path entries => (∀ entry ∈ entries, entry.2.WellKeyed) →
      ∀ entry ∈ (walkEntries rules path entries).left, entry.2.WellKeyed)
    (fun path index items => (∀ item ∈ items, item.WellKeyed) →
      ∀ item ∈ (walkItems rules path index items).left, item.WellKeyed)
    ?scalar ?sequence ?refused ?mapping ?noEntry ?entry ?noItem ?item).1 path node
  case scalar =>
    intro path value keyed
    rwa [walk]
  case sequence =>
    intro path items ih keyed
    rw [walk]
    exact wellKeyed_sequence.mpr (ih (wellKeyed_sequence.mp keyed))
  case refused =>
    intro path m applied e refused keyed
    have here : (Rule.applyAllAt path rules m).refusal? = some e := refused
    rw [walk]
    simp only [Walked.after, here, Walked.left_map, Rule.left_applyAllAt]
    exact Rule.wellKeyed_left_applyAll keyed
  case mapping =>
    intro path m applied accepted ih keyed
    have here : (Rule.applyAllAt path rules m).refusal? = none := accepted
    have same : applied.left = (Rule.applyAll rules m).left := Rule.left_applyAllAt path rules m
    have kept : (Rule.applyAll rules m).left.WellKeyed := Rule.wellKeyed_left_applyAll keyed
    obtain ⟨distinct, inside⟩ := wellKeyed_mapping.mp kept
    rw [walk]
    simp only [Walked.after, here, Walked.left_map]
    rw [show (Rule.applyAllAt path rules m).left = applied.left from rfl]
    refine wellKeyed_mapping.mpr ⟨?_, ih (same ▸ inside)⟩
    rw [Dict.keys, keys_left_walkEntries, same]
    exact distinct
  case noEntry =>
    intro path _
    rw [walkEntries]
    exact List.forall_mem_nil _
  case entry =>
    intro path key value rest ihValue ihRest keyed
    obtain ⟨first, others⟩ := List.forall_mem_cons.mp keyed
    rw [walkEntries, Walked.andThen]
    split
    · exact List.forall_mem_cons.mpr ⟨ihValue first, others⟩
    · exact List.forall_mem_cons.mpr ⟨ihValue first, ihRest others⟩
  case noItem =>
    intro path index _
    rw [walkItems]
    exact List.forall_mem_nil _
  case item =>
    intro path index item rest ihItem ihRest keyed
    obtain ⟨first, others⟩ := List.forall_mem_cons.mp keyed
    rw [walkItems, Walked.andThen]
    split
    · exact List.forall_mem_cons.mpr ⟨ihItem first, others⟩
    · exact List.forall_mem_cons.mpr ⟨ihItem first, ihRest others⟩

theorem wellKeyed_left_transform {document : Node} (keyed : document.WellKeyed) :
    (document.transform rules).left.WellKeyed :=
  wellKeyed_left_walk [] keyed

end ManifestMigration.Node
