import ManifestMigration.Proofs.Dict.Lookup

/-! # The mappings of a document

A property of mappings holds throughout a document when every mapping in it has the property, at
every depth. Being well keyed is such a property, and storing or erasing a field keeps it.
-/

namespace ManifestMigration.Node

mutual

/-- Every mapping in the tree has the property. -/
def EveryMapping (P : Mapping → Prop) : Node → Prop
  | .mapping ⟨entries⟩ => P ⟨entries⟩ ∧ EveryMappingEntries P entries
  | .sequence items => EveryMappingItems P items
  | .scalar _ => True

def EveryMappingEntries (P : Mapping → Prop) : List (String × Node) → Prop
  | [] => True
  | (_, value) :: rest => value.EveryMapping P ∧ EveryMappingEntries P rest

def EveryMappingItems (P : Mapping → Prop) : List Node → Prop
  | [] => True
  | item :: rest => item.EveryMapping P ∧ EveryMappingItems P rest

end

variable {P Q : Mapping → Prop}

theorem everyMappingEntries_iff {entries : List (String × Node)} :
    EveryMappingEntries P entries ↔ ∀ entry ∈ entries, entry.2.EveryMapping P := by
  induction entries with
  | nil => simp [EveryMappingEntries]
  | cons entry rest ih => simp [EveryMappingEntries, ih]

theorem everyMappingItems_iff {items : List Node} :
    EveryMappingItems P items ↔ ∀ item ∈ items, item.EveryMapping P := by
  induction items with
  | nil => simp [EveryMappingItems]
  | cons item rest ih => simp [EveryMappingItems, ih]

@[simp] theorem everyMapping_mapping {m : Mapping} :
    (Node.mapping m).EveryMapping P ↔ P m ∧ ∀ entry ∈ m.entries, entry.2.EveryMapping P := by
  obtain ⟨entries⟩ := m
  rw [EveryMapping, everyMappingEntries_iff]

@[simp] theorem everyMapping_sequence {items : List Node} :
    (Node.sequence items).EveryMapping P ↔ ∀ item ∈ items, item.EveryMapping P := by
  rw [EveryMapping, everyMappingItems_iff]

@[simp] theorem everyMapping_scalar (value : Scalar) : (Node.scalar value).EveryMapping P := by
  rw [EveryMapping]
  trivial

/-- What holds of a node when it holds of its parts holds of every node. -/
theorem parts_induction {P : Node → Prop} (scalar : ∀ value, P (.scalar value))
    (sequence : ∀ items, (∀ item ∈ items, P item) → P (.sequence items))
    (mapping : ∀ m : Mapping, (∀ entry ∈ m.entries, P entry.2) → P (.mapping m)) (node : Node) :
    P node := by
  match node with
  | .scalar value => exact scalar value
  | .sequence items =>
      refine sequence items fun item member => ?_
      have smaller := List.sizeOf_lt_of_mem member
      exact parts_induction scalar sequence mapping item
  | .mapping ⟨entries⟩ =>
      refine mapping ⟨entries⟩ fun entry member => ?_
      have smaller : sizeOf entry.2 < sizeOf entries := by
        have inside : sizeOf entry < sizeOf entries := List.sizeOf_lt_of_mem member
        rw [Prod.mk.sizeOf_spec] at inside
        omega
      exact parts_induction scalar sequence mapping entry.2
termination_by sizeOf node
decreasing_by all_goals simp_wf; omega

theorem EveryMapping.mono {node : Node} (every : node.EveryMapping P) (implies : ∀ m, P m → Q m) :
    node.EveryMapping Q := by
  induction node using parts_induction with
  | scalar value => exact everyMapping_scalar value
  | sequence items ih =>
      rw [everyMapping_sequence] at every ⊢
      intro item member
      exact ih item member (every item member)
  | mapping m ih =>
      rw [everyMapping_mapping] at every ⊢
      constructor
      · exact implies m every.1
      · intro entry member
        exact ih entry member (every.2 entry member)

theorem everyMapping_congr (same : ∀ m, P m ↔ Q m) (node : Node) :
    node.EveryMapping P ↔ node.EveryMapping Q :=
  ⟨fun every => every.mono fun m => (same m).mp, fun every => every.mono fun m => (same m).mpr⟩

mutual

def decEveryMapping [DecidablePred P] : (node : Node) → Decidable (node.EveryMapping P)
  | .mapping ⟨entries⟩ =>
    have := decEveryMappingEntries entries
    decidable_of_iff (P ⟨entries⟩ ∧ EveryMappingEntries P entries) (by rw [EveryMapping])
  | .sequence items =>
    have := decEveryMappingItems items
    decidable_of_iff (EveryMappingItems P items) (by rw [EveryMapping])
  | .scalar value => .isTrue (everyMapping_scalar value)

def decEveryMappingEntries [DecidablePred P] :
    (entries : List (String × Node)) → Decidable (EveryMappingEntries P entries)
  | [] => .isTrue (by simp only [EveryMappingEntries])
  | (key, value) :: rest =>
    have := decEveryMapping value
    have := decEveryMappingEntries rest
    decidable_of_iff (value.EveryMapping P ∧ EveryMappingEntries P rest)
      (by rw [EveryMappingEntries])

def decEveryMappingItems [DecidablePred P] :
    (items : List Node) → Decidable (EveryMappingItems P items)
  | [] => .isTrue (by simp only [EveryMappingItems])
  | item :: rest =>
    have := decEveryMapping item
    have := decEveryMappingItems rest
    decidable_of_iff (item.EveryMapping P ∧ EveryMappingItems P rest) (by rw [EveryMappingItems])

end

instance [DecidablePred P] (node : Node) : Decidable (node.EveryMapping P) := decEveryMapping node

/-! ## Distinct keys -/

mutual

theorem wellKeyed_iff_everyMapping (node : Node) :
    node.WellKeyed ↔ node.EveryMapping fun m => m.keys.Nodup := by
  match node with
  | .mapping ⟨entries⟩ =>
      simp only [WellKeyed, EveryMapping, wellKeyedEntries_iff entries, Dict.keys]
  | .sequence items => simp only [WellKeyed, EveryMapping, wellKeyedItems_iff items]
  | .scalar _ => simp only [WellKeyed, EveryMapping]
termination_by sizeOf node

private theorem wellKeyedEntries_iff (entries : List (String × Node)) :
    WellKeyedEntries entries ↔ EveryMappingEntries (fun m => m.keys.Nodup) entries := by
  match entries with
  | [] => simp only [WellKeyedEntries, EveryMappingEntries]
  | (_, value) :: rest =>
      simp only [WellKeyedEntries, EveryMappingEntries, wellKeyed_iff_everyMapping value,
        wellKeyedEntries_iff rest]
termination_by sizeOf entries

private theorem wellKeyedItems_iff (items : List Node) :
    WellKeyedItems items ↔ EveryMappingItems (fun m => m.keys.Nodup) items := by
  match items with
  | [] => simp only [WellKeyedItems, EveryMappingItems]
  | item :: rest =>
      simp only [WellKeyedItems, EveryMappingItems, wellKeyed_iff_everyMapping item,
        wellKeyedItems_iff rest]
termination_by sizeOf items

end

theorem wellKeyed_mapping {m : Mapping} :
    (Node.mapping m).WellKeyed ↔ m.keys.Nodup ∧ ∀ entry ∈ m.entries, entry.2.WellKeyed := by
  simp only [wellKeyed_iff_everyMapping, everyMapping_mapping]

theorem wellKeyed_sequence {items : List Node} :
    (Node.sequence items).WellKeyed ↔ ∀ item ∈ items, item.WellKeyed := by
  simp only [wellKeyed_iff_everyMapping, everyMapping_sequence]

theorem wellKeyed_scalar (value : Scalar) : (Node.scalar value).WellKeyed := by
  rw [WellKeyed]
  trivial

end ManifestMigration.Node

namespace ManifestMigration.Dict

open Node

/-- The kind of a mapping stands in one of its fields. -/
theorem hasKind_congr {m m' : Mapping} (same : m'.string? "kind" = m.string? "kind") (name : String) :
    m'.hasKind name = m.hasKind name := by
  rw [hasKind, same, hasKind]

theorem string?_congr {m m' : Mapping} {key : String} (same : m'.get? key = m.get? key) :
    m'.string? key = m.string? key := by
  rw [string?, same, string?]

theorem string?_eq_some_iff {m : Mapping} {key text : String} :
    m.string? key = some text ↔ m.get? key = some (.string text) := by
  unfold string?
  cases m.get? key with
  | none => simp
  | some value =>
      cases value with
      | scalar leaf => cases leaf <;> simp [Node.string?]
      | _ => simp [Node.string?]

/-- The fields of a mapping that may stand in a well keyed document. -/
def WellKeyed (m : Mapping) : Prop := (Node.mapping m).WellKeyed

theorem wellKeyed_iff {m : Mapping} :
    m.WellKeyed ↔ m.keys.Nodup ∧ ∀ entry ∈ m.entries, entry.2.WellKeyed :=
  wellKeyed_mapping

namespace WellKeyed

variable {m : Mapping} {key : String} {value : Node}

theorem nodup (keyed : m.WellKeyed) : m.keys.Nodup :=
  (wellKeyed_iff.mp keyed).1

theorem of_mem (keyed : m.WellKeyed) {entry : String × Node} (member : entry ∈ m.entries) :
    entry.2.WellKeyed :=
  (wellKeyed_iff.mp keyed).2 entry member

theorem of_get? (keyed : m.WellKeyed) (found : m.get? key = some value) : value.WellKeyed :=
  keyed.of_mem (mem_of_get? found)

theorem empty : (Dict.empty : Mapping).WellKeyed := by
  rw [wellKeyed_iff]
  simp [Dict.empty, keys]

theorem insert (keyed : m.WellKeyed) (key : String) (stored : value.WellKeyed) :
    (m.insert key value).WellKeyed := by
  refine wellKeyed_iff.mpr ⟨nodup_keys_insert keyed.nodup key value, ?_⟩
  intro entry member
  rcases mem_entries_insert member with old | rfl
  · exact keyed.of_mem old
  · exact stored

theorem erase (keyed : m.WellKeyed) (key : String) : (m.erase key).WellKeyed := by
  refine wellKeyed_iff.mpr ⟨nodup_keys_erase keyed.nodup key, ?_⟩
  intro entry member
  exact keyed.of_mem (mem_entries_erase member)

theorem child (keyed : m.WellKeyed) (key : String) : (m.child key).WellKeyed := by
  unfold Dict.child
  split
  · next fields found => exact keyed.of_get? found
  · exact empty

end WellKeyed

end ManifestMigration.Dict
