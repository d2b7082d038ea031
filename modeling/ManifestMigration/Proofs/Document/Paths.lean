import Mathlib.Data.List.Nodup
import ManifestMigration.Document.Path
import ManifestMigration.Proofs.Document.Mappings

/-! # The places of mappings

The paths of all mappings of a document, from the root down. In a well keyed document the list names
every mapping, and it names each of them once.
-/

namespace ManifestMigration

namespace Node

mutual

/-- The paths of the mappings of a document, each before those below it, in the order of keys and
    items. -/
def mappingPaths : Node → List Path
  | .mapping ⟨entries⟩ => [] :: mappingPathsEntries entries
  | .sequence items => mappingPathsItems 0 items
  | .scalar _ => []

def mappingPathsEntries : List (String × Node) → List Path
  | [] => []
  | (key, value) :: rest => value.mappingPaths.map (.key key :: ·) ++ mappingPathsEntries rest

/-- The paths of the mappings in the items from an index on. -/
def mappingPathsItems (index : Nat) : List Node → List Path
  | [] => []
  | item :: rest => item.mappingPaths.map (.index index :: ·) ++ mappingPathsItems (index + 1) rest

end

theorem mappingPathsEntries_eq (entries : List (String × Node)) :
    mappingPathsEntries entries =
      entries.flatMap fun entry => entry.2.mappingPaths.map (.key entry.1 :: ·) := by
  induction entries with
  | nil => rfl
  | cons entry rest ih => rw [mappingPathsEntries, ih, List.flatMap_cons]

theorem mappingPathsItems_eq (index : Nat) (items : List Node) :
    mappingPathsItems index items =
      (items.zipIdx index).flatMap fun item => item.1.mappingPaths.map (.index item.2 :: ·) := by
  induction items generalizing index with
  | nil => rfl
  | cons item rest ih => rw [mappingPathsItems, ih, List.zipIdx_cons, List.flatMap_cons]

@[simp] theorem mappingPaths_mapping (m : Mapping) :
    (Node.mapping m).mappingPaths =
      [] :: m.entries.flatMap fun entry => entry.2.mappingPaths.map (.key entry.1 :: ·) := by
  rw [mappingPaths, mappingPathsEntries_eq]

@[simp] theorem mappingPaths_sequence (items : List Node) :
    (Node.sequence items).mappingPaths =
      items.zipIdx.flatMap fun item => item.1.mappingPaths.map (.index item.2 :: ·) := by
  rw [mappingPaths, mappingPathsItems_eq]

@[simp] theorem mappingPaths_scalar (value : Scalar) : (Node.scalar value).mappingPaths = [] := by
  rw [mappingPaths]

/-! ## What a path leads to -/

@[simp] theorem at?_nil (node : Node) : node.at? [] = some node := by
  rw [at?]

theorem at?_key (m : Mapping) (name : String) (rest : Path) :
    (Node.mapping m).at? (.key name :: rest) = (m.get? name).bind (·.at? rest) := by
  rw [at?]
  cases m.get? name <;> rfl

theorem at?_field (m : Mapping) (name : String) :
    (Node.mapping m).at? [.key name] = m.get? name := by
  simp [at?_key]

theorem at?_index (items : List Node) (i : Nat) (rest : Path) :
    (Node.sequence items).at? (.index i :: rest) = items[i]?.bind (·.at? rest) := by
  rw [at?]
  cases items[i]? <;> rfl

theorem at?_append (node : Node) (path rest : Path) :
    node.at? (path ++ rest) = (node.at? path).bind (·.at? rest) := by
  induction path generalizing node with
  | nil => simp
  | cons step path ih =>
      cases node with
      | mapping m =>
          cases step with
          | key name =>
              rw [List.cons_append, at?_key, at?_key]
              cases m.get? name with
              | none => rfl
              | some value => exact ih value
          | index i => simp [at?]
      | sequence items =>
          cases step with
          | key name => simp [at?]
          | index i =>
              rw [List.cons_append, at?_index, at?_index]
              cases items[i]? with
              | none => rfl
              | some item => exact ih item
      | scalar value => cases step <;> simp [at?]

theorem key_mem_mappingPaths {m : Mapping} {name : String} {rest : Path} :
    .key name :: rest ∈ (Node.mapping m).mappingPaths ↔
      ∃ value, (name, value) ∈ m.entries ∧ rest ∈ value.mappingPaths := by
  simp only [mappingPaths_mapping, List.mem_cons, reduceCtorEq, false_or, List.mem_flatMap,
    List.mem_map, List.cons.injEq, Step.key.injEq]
  constructor
  · rintro ⟨⟨k, value⟩, member, path, inside, rfl, rfl⟩
    exact ⟨value, member, inside⟩
  · rintro ⟨value, member, inside⟩
    exact ⟨(name, value), member, rest, inside, rfl, rfl⟩

theorem index_mem_mappingPaths {items : List Node} {i : Nat} {rest : Path} :
    .index i :: rest ∈ (Node.sequence items).mappingPaths ↔
      ∃ item, items[i]? = some item ∧ rest ∈ item.mappingPaths := by
  simp only [mappingPaths_sequence, List.mem_flatMap, List.mem_map, List.cons.injEq,
    Step.index.injEq]
  constructor
  · rintro ⟨⟨item, j⟩, member, path, inside, rfl, rfl⟩
    exact ⟨item, List.mem_zipIdx_iff_getElem?.mp member, inside⟩
  · rintro ⟨item, found, inside⟩
    exact ⟨(item, i), List.mem_zipIdx_iff_getElem?.mpr found, rest, inside, rfl, rfl⟩

theorem mem_mappingPaths_iff {node : Node} (keyed : node.WellKeyed) (path : Path) :
    path ∈ node.mappingPaths ↔ ∃ m, node.at? path = some (.mapping m) := by
  induction path generalizing node with
  | nil => cases node <;> simp
  | cons step rest ih =>
      cases node with
      | mapping m =>
          obtain ⟨distinct, inside⟩ := wellKeyed_mapping.mp keyed
          cases step with
          | index i => simp [at?]
          | key name =>
              rw [key_mem_mappingPaths, at?_key]
              constructor
              · rintro ⟨value, member, below⟩
                rw [Dict.get?_of_mem distinct member]
                exact (ih (inside _ member)).mp below
              · rintro ⟨below, found⟩
                obtain ⟨value, stored, found⟩ := Option.bind_eq_some_iff.mp found
                have member := Dict.mem_of_get? stored
                exact ⟨value, member, (ih (inside _ member)).mpr ⟨below, found⟩⟩
      | sequence items =>
          cases step with
          | key name => simp [at?]
          | index i =>
              rw [index_mem_mappingPaths, at?_index]
              constructor
              · rintro ⟨item, found, below⟩
                rw [found]
                have inside := wellKeyed_sequence.mp keyed item (List.mem_of_getElem? found)
                exact (ih inside).mp below
              · rintro ⟨below, found⟩
                obtain ⟨item, stored, found⟩ := Option.bind_eq_some_iff.mp found
                have inside := wellKeyed_sequence.mp keyed item (List.mem_of_getElem? stored)
                exact ⟨item, stored, (ih inside).mpr ⟨below, found⟩⟩
      | scalar value => cases step <;> simp [at?]

/-! ## Distinct places -/

/-- Paths below different first steps differ. -/
theorem disjoint_below {first second : Step} (differs : first ≠ second) (xs ys : List Path) :
    (xs.map (first :: ·)).Disjoint (ys.map (second :: ·)) := by
  intro path inFirst inSecond
  obtain ⟨_, _, rfl⟩ := List.mem_map.mp inFirst
  obtain ⟨_, _, same⟩ := List.mem_map.mp inSecond
  exact differs (List.cons.inj same).1.symm

theorem nodup_below (step : Step) {paths : List Path} (distinct : paths.Nodup) :
    (paths.map (step :: ·)).Nodup :=
  distinct.map fun _ _ same => (List.cons.inj same).2

theorem nodup_mappingPaths {node : Node} (keyed : node.WellKeyed) : node.mappingPaths.Nodup := by
  induction node using parts_induction with
  | scalar value => simp
  | sequence items ih =>
      have inside := wellKeyed_sequence.mp keyed
      rw [mappingPaths_sequence, List.nodup_flatMap]
      constructor
      · intro item member
        have found : item.1 ∈ items := List.fst_mem_of_mem_zipIdx member
        exact nodup_below _ (ih item.1 found (inside item.1 found))
      · have indices : (items.zipIdx.map (·.2)).Nodup := by
          rw [List.zipIdx_map_snd]
          exact List.nodup_range'
        refine (List.pairwise_map.mp indices).imp fun differs => ?_
        exact disjoint_below (fun same => differs (Step.index.inj same)) _ _
  | mapping m ih =>
      obtain ⟨distinct, inside⟩ := wellKeyed_mapping.mp keyed
      rw [mappingPaths_mapping, List.nodup_cons, List.nodup_flatMap]
      refine ⟨by simp, ?_, ?_⟩
      · intro entry member
        exact nodup_below _ (ih entry member (inside entry member))
      · refine (List.pairwise_map.mp distinct).imp fun differs => ?_
        exact disjoint_below (fun same => differs (Step.key.inj same)) _ _

end Node

end ManifestMigration
