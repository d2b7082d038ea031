import ManifestMigration.Proofs.Walk.Application

/-! # A walk and the walks through its parts

What a walk does to a part of a document does not depend on where the part stands: it is what the
walk through the part alone does, with longer paths (`walk_append`). So the walk through a sequence
is made of the walks through its items, and the walk through a mapping is made of one application of
the rules and of the walks through the values that they leave.
-/

namespace ManifestMigration

/-- The mapping with what walks leave of its values. -/
def Dict.descend (rules : List Rule) (m : Mapping) : Mapping :=
  m.mapValues fun value => (value.transform rules).left

/-- What a walk that nothing refuses leaves of a mapping. -/
def Dict.walked (rules : List Rule) (m : Mapping) : Mapping :=
  (Rule.applyAll rules m).left.descend rules

namespace Node

variable {rules : List Rule}

/-- A walk further down is the same walk, seen from above. -/
theorem walk_append (rules : List Rule) (above path : Path) (node : Node) :
    walk rules (above ++ path) node = (walk rules path node).below above := by
  refine (walk.mutual_induct rules
    (fun path node => walk rules (above ++ path) node = (walk rules path node).below above)
    (fun path entries =>
      walkEntries rules (above ++ path) entries = (walkEntries rules path entries).below above)
    (fun path index items =>
      walkItems rules (above ++ path) index items = (walkItems rules path index items).below above)
    ?scalar ?sequence ?refused ?mapping ?noEntry ?entry ?noItem ?item).1 path node
  case scalar =>
    intro path value
    rw [walk, walk]
    rfl
  case sequence =>
    intro path items ih
    rw [walk, walk, ih, Walked.below_map]
  case refused =>
    intro path m applied e refused
    have here : (Rule.applyAllAt path rules m).refusal? = some e := refused
    rw [walk, walk, Rule.applyAllAt_append]
    simp only [Walked.after, Walked.below, here, Option.map_some, Walked.map, List.map_append]
    rfl
  case mapping =>
    intro path m applied accepted ih
    have here : (Rule.applyAllAt path rules m).refusal? = none := accepted
    rw [walk, walk, Rule.applyAllAt_append]
    simp only [Walked.after, Walked.below, here, Option.map_none, Walked.map, List.map_append]
    rw [show (Rule.applyAllAt path rules m).left = applied.left from rfl, ih]
    rfl
  case noEntry =>
    intro path
    rw [walkEntries, walkEntries]
    rfl
  case entry =>
    intro path key value rest ihValue ihRest
    rw [walkEntries, walkEntries, List.append_assoc, ihValue, ihRest, Walked.below_andThen]
    rfl
  case noItem =>
    intro path index
    rw [walkItems, walkItems]
    rfl
  case item =>
    intro path index item rest ihItem ihRest
    rw [walkItems, walkItems, List.append_assoc, ihItem, ihRest, Walked.below_andThen]
    rfl

theorem walk_eq_below (rules : List Rule) (path : Path) (node : Node) :
    walk rules path node = (node.transform rules).below path := by
  have moved := walk_append rules path [] node
  rwa [List.append_nil] at moved

/-! ## Items and entries -/

theorem refusal?_walkItems_eq_none {path : Path} {index : Nat} {items : List Node} :
    (walkItems rules path index items).refusal? = none ↔
      ∀ item ∈ items, (item.transform rules).refusal? = none := by
  induction items generalizing index with
  | nil => simp [walkItems, Walked.still]
  | cons item rest ih =>
      rw [walkItems, Walked.refusal?_andThen_eq_none, Walked.refusal?_map, ih, walk_eq_below,
        Walked.refusal?_below_eq_none, List.forall_mem_cons]

theorem left_walkItems {path : Path} {index : Nat} {items : List Node}
    (accepted : ∀ item ∈ items, (item.transform rules).refusal? = none) :
    (walkItems rules path index items).left = items.map fun item => (item.transform rules).left := by
  induction items generalizing index with
  | nil => rw [walkItems]; rfl
  | cons item rest ih =>
      obtain ⟨first, others⟩ := List.forall_mem_cons.mp accepted
      rw [walkItems, walk_eq_below, Walked.left_andThen (by simpa using first), Walked.left_map,
        ih others]
      rfl

theorem changed_walkItems {path : Path} {index : Nat} {items : List Node}
    (accepted : ∀ item ∈ items, (item.transform rules).refusal? = none) :
    (walkItems rules path index items).changed =
      items.any fun item => (item.transform rules).changed := by
  induction items generalizing index with
  | nil => rw [walkItems]; rfl
  | cons item rest ih =>
      obtain ⟨first, others⟩ := List.forall_mem_cons.mp accepted
      rw [walkItems, walk_eq_below, Walked.changed_andThen (by simpa using first),
        Walked.changed_map, ih others, Walked.changed_below]
      rfl

theorem refusal?_walkEntries_eq_none {path : Path} {entries : List (String × Node)} :
    (walkEntries rules path entries).refusal? = none ↔
      ∀ entry ∈ entries, (entry.2.transform rules).refusal? = none := by
  induction entries with
  | nil => simp [walkEntries, Walked.still]
  | cons entry rest ih =>
      rw [walkEntries, Walked.refusal?_andThen_eq_none, Walked.refusal?_map, ih, walk_eq_below,
        Walked.refusal?_below_eq_none, List.forall_mem_cons]

theorem left_walkEntries {path : Path} {entries : List (String × Node)}
    (accepted : ∀ entry ∈ entries, (entry.2.transform rules).refusal? = none) :
    (walkEntries rules path entries).left =
      entries.map fun entry => (entry.1, (entry.2.transform rules).left) := by
  induction entries with
  | nil => rw [walkEntries]; rfl
  | cons entry rest ih =>
      obtain ⟨first, others⟩ := List.forall_mem_cons.mp accepted
      rw [walkEntries, walk_eq_below, Walked.left_andThen (by simpa using first), Walked.left_map,
        ih others]
      rfl

theorem changed_walkEntries {path : Path} {entries : List (String × Node)}
    (accepted : ∀ entry ∈ entries, (entry.2.transform rules).refusal? = none) :
    (walkEntries rules path entries).changed =
      entries.any fun entry => (entry.2.transform rules).changed := by
  induction entries with
  | nil => rw [walkEntries]; rfl
  | cons entry rest ih =>
      obtain ⟨first, others⟩ := List.forall_mem_cons.mp accepted
      rw [walkEntries, walk_eq_below, Walked.changed_andThen (by simpa using first),
        Walked.changed_map, ih others, Walked.changed_below]
      rfl

/-! ## Documents -/

theorem transform_scalar (rules : List Rule) (value : Scalar) :
    (Node.scalar value).transform rules = .still (.scalar value) := by
  rw [transform, walk]

theorem refusal?_transform_sequence {items : List Node} :
    ((Node.sequence items).transform rules).refusal? = none ↔
      ∀ item ∈ items, (item.transform rules).refusal? = none := by
  rw [transform, walk, Walked.refusal?_map, refusal?_walkItems_eq_none]

theorem left_transform_sequence {items : List Node}
    (accepted : ((Node.sequence items).transform rules).refusal? = none) :
    ((Node.sequence items).transform rules).left =
      .sequence (items.map fun item => (item.transform rules).left) := by
  rw [transform, walk, Walked.left_map, left_walkItems (refusal?_transform_sequence.mp accepted)]

theorem changed_transform_sequence {items : List Node}
    (accepted : ((Node.sequence items).transform rules).refusal? = none) :
    ((Node.sequence items).transform rules).changed =
      items.any fun item => (item.transform rules).changed := by
  rw [transform, walk, Walked.changed_map,
    changed_walkItems (refusal?_transform_sequence.mp accepted)]

/-- The walk through a mapping whose rules refuse nothing. -/
theorem transform_mapping_of_ok {m : Mapping} {changed : Bool}
    (done : (Rule.applyAll rules m).outcome = .ok changed) :
    (Node.mapping m).transform rules =
      ((walkEntries rules [] (Rule.applyAll rules m).left.entries).map fun entries =>
        .mapping ⟨entries⟩).after (.visited [] :: (Rule.applyAllAt [] rules m).events) := by
  obtain ⟨accepted, -⟩ := Rule.applyAllAt_of_ok [] done
  rw [transform, walk]
  simp only [Walked.after, accepted, Rule.left_applyAllAt]
  rfl

theorem refusal?_transform_mapping {m : Mapping} :
    ((Node.mapping m).transform rules).refusal? = none ↔
      (∃ changed, (Rule.applyAll rules m).outcome = .ok changed) ∧
        ∀ entry ∈ (Rule.applyAll rules m).left.entries,
          (entry.2.transform rules).refusal? = none := by
  cases outcome : (Rule.applyAll rules m).outcome with
  | error e =>
      obtain ⟨rule, -, -, refused⟩ := Rule.applyAllAt_of_error [] outcome
      rw [transform, walk]
      simp [Walked.after, refused, Walked.map]
  | ok changed =>
      rw [transform_mapping_of_ok outcome]
      simp only [Walked.after, Walked.refusal?_map, refusal?_walkEntries_eq_none]
      simp

theorem left_transform_mapping {m : Mapping}
    (accepted : ((Node.mapping m).transform rules).refusal? = none) :
    ((Node.mapping m).transform rules).left = .mapping (m.walked rules) := by
  obtain ⟨⟨changed, done⟩, inside⟩ := refusal?_transform_mapping.mp accepted
  rw [transform_mapping_of_ok done]
  simp only [Walked.after, Walked.left_map, left_walkEntries inside]
  rfl

theorem changed_transform_mapping {m : Mapping} {changed : Bool}
    (accepted : ((Node.mapping m).transform rules).refusal? = none)
    (done : (Rule.applyAll rules m).outcome = .ok changed) :
    ((Node.mapping m).transform rules).changed =
      (changed || (Rule.applyAll rules m).left.entries.any fun entry =>
        (entry.2.transform rules).changed) := by
  obtain ⟨-, inside⟩ := refusal?_transform_mapping.mp accepted
  have fired := (Rule.applyAllAt_of_ok [] done).2
  rw [transform_mapping_of_ok done, Walked.changed_after, Walked.changed_map,
    changed_walkEntries inside]
  exact congrArg (· || _) fired

/-! ## Induction along a walk -/

/-- What holds of a mapping when it holds of the values that the rules leave there, and of a sequence
    when it holds of its items, holds of every document. -/
theorem transform_induction {P : Node → Prop} (rules : List Rule)
    (scalar : ∀ value, P (.scalar value))
    (sequence : ∀ items, (∀ item ∈ items, P item) → P (.sequence items))
    (mapping : ∀ m, ((∃ changed, (Rule.applyAll rules m).outcome = .ok changed) →
      ∀ entry ∈ (Rule.applyAll rules m).left.entries, P entry.2) → P (.mapping m))
    (node : Node) : P node := by
  refine (walk.mutual_induct rules (fun _ node => P node)
    (fun _ entries => ∀ entry ∈ entries, P entry.2) (fun _ _ items => ∀ item ∈ items, P item)
    ?_ ?_ ?refused ?mapping ?_ ?_ ?_ ?_).1 [] node
  case refused =>
    intro path m applied e refused
    refine mapping m fun ⟨changed, done⟩ => ?_
    have here : (Rule.applyAllAt path rules m).refusal? = some e := refused
    cases here.symm.trans (Rule.applyAllAt_of_ok path done).1
  case mapping =>
    intro path m applied accepted ih
    refine mapping m fun _ => ?_
    rw [← Rule.left_applyAllAt path]
    exact ih
  · exact fun _ => scalar
  · exact fun _ => sequence
  · simp
  · exact fun _ key value rest ihValue ihRest => List.forall_mem_cons.mpr ⟨ihValue, ihRest⟩
  · simp
  · exact fun _ _ item rest ihItem ihRest => List.forall_mem_cons.mpr ⟨ihItem, ihRest⟩

end Node

end ManifestMigration
