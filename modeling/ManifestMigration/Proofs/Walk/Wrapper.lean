import ManifestMigration.Proofs.Rule.Triggers
import ManifestMigration.Proofs.Walk.Origin

/-! # Documents in a list

Documents may stand together in one document, as the items of a sequence in a mapping that holds
nothing but leaves beside it. No rule changes such a wrapper, and a walk comes to each item with
nothing left over from those before, so it does to the items what the walks through them do
(`Dict.Wraps.walksAsItems`). Only the path of a refusal tells that the document was an item.
-/

namespace ManifestMigration

variable {rules : List Rule} {m : Mapping} {key : String} {items : List Node}

/-- The mapping stores documents as the items of a sequence. Beside it are only leaves, and nothing in
    the mapping itself is for a rule to look at. -/
structure Dict.Wraps (m : Mapping) (key : String) (items : List Node) : Prop where
  distinct : m.keys.Nodup
  stored : m.get? key = some (.sequence items)
  leaves : ∀ other value, m.get? other = some value → other ≠ key → ∃ leaf, value = .scalar leaf
  notCheck : m.hasKind "MachineHealthCheck" = false
  notPlane : m.hasKind "KubeadmControlPlane" = false
  plain : ∀ other ∈ ["extraArgs", "kubeletExtraArgs", "infrastructureRef", "controlPlaneRef",
    "configRef", "controlPlaneEndpoint"], m.contains other = false

/-- The walk through an item is refused, and no walk through an item before it is. -/
structure Node.FirstRefused (rules : List Rule) (items : List Node) (i : Nat)
    (own : TransformError) : Prop where
  refused : ∃ item, items[i]? = some item ∧ (item.transform rules).outcome = .error own
  before : ∀ earlier ∈ items.take i, ∃ changed, (earlier.transform rules).outcome = .ok changed

/-- A walk through a mapping does to the items that it stores what walks through the items alone do. -/
structure Dict.WalksAsItems (rules : List Rule) (m : Mapping) (key : String) (items : List Node) :
    Prop where
  accepted_iff : (∃ changed, ((Node.mapping m).transform rules).outcome = .ok changed) ↔
    ∀ item ∈ items, ∃ changed, (item.transform rules).outcome = .ok changed
  /-- The items are left as their walks leave them, and everything else as it was. -/
  left : ∀ changed, ((Node.mapping m).transform rules).outcome = .ok changed →
    ∃ after : Mapping, ((Node.mapping m).transform rules).left = .mapping after ∧
      after.keys = m.keys ∧
      after.get? key = some (.sequence (items.map fun item => (item.transform rules).left)) ∧
      ∀ other, other ≠ key → after.get? other = m.get? other
  /-- There is a change when there is one in an item. -/
  changed_iff : ∀ changed, ((Node.mapping m).transform rules).outcome = .ok changed →
    (changed = true ↔ ∃ item ∈ items, (item.transform rules).outcome = .ok true)
  /-- A refusal is that of the first item that is refused, with the way to the item before its path. -/
  refused : ∀ e, ((Node.mapping m).transform rules).outcome = .error e →
    ∃ i own, Node.FirstRefused rules items i own ∧ e.rule = own.rule ∧ e.cause = own.cause ∧
      e.path = .key key :: .index i :: own.path ∧
      ∃ rest, own.path.render = "$" ++ rest ∧
        e.path.render = "$." ++ key ++ "[" ++ toString i ++ "]" ++ rest

theorem Path.render_append (above path : Path) :
    Path.render (above ++ path) = above.render ++ String.join (path.map Step.render) := by
  rw [Path.render, Path.render, List.map_append, String.join_append, String.append_assoc]

theorem Path.render_item (key : String) (i : Nat) :
    Path.render [.key key, .index i] = "$." ++ key ++ "[" ++ toString i ++ "]" := by
  have dollar : "$" ++ "." = "$." := by decide
  simp only [Path.render, Step.render, List.map_cons, List.map_nil, String.join_cons,
    String.join_nil, String.append_empty, ← dollar, String.append_assoc]

namespace Walked

variable {α : Type} {x : Walked α}

theorem outcome_eq_error_iff {e : TransformError} :
    x.outcome = .error e ↔ x.refusal? = some e := by
  unfold outcome
  cases x.refusal? <;> simp

theorem exists_outcome_eq_ok_iff :
    (∃ changed, x.outcome = .ok changed) ↔ x.refusal? = none := by
  simp [outcome_eq_ok_iff]

end Walked

namespace Dict.Wraps

variable (wraps : m.Wraps key items)

include wraps

/-- No rule touches the mapping itself. -/
theorem applyAll (rules : List Rule) : Rule.applyAll rules m = .unchanged m :=
  Rule.settling.run_of_settled fun _ _ =>
    (Rule.overlooks_of_plain wraps.plain wraps.notCheck wraps.notPlane).settled

theorem outcome_applyAll (rules : List Rule) : (Rule.applyAll rules m).outcome = .ok false :=
  congrArg Revision.outcome (wraps.applyAll rules)

theorem mem_entries : (key, .sequence items) ∈ m.entries :=
  Dict.mem_of_get? wraps.stored

theorem of_mem {entry : String × Node} (member : entry ∈ m.entries) :
    entry = (key, .sequence items) ∨ ∃ leaf, entry.2 = .scalar leaf := by
  obtain ⟨other, value⟩ := entry
  have found : m.get? other = some value := Dict.get?_of_mem wraps.distinct member
  by_cases same : other = key
  · subst same
    cases wraps.stored.symm.trans found
    exact .inl rfl
  · exact .inr (wraps.leaves other value found same)

/-! ## A walk that nothing refuses -/

theorem refusal?_eq_none :
    ((Node.mapping m).transform rules).refusal? = none ↔
      ∀ item ∈ items, (item.transform rules).refusal? = none := by
  rw [Node.refusal?_transform_mapping, wraps.applyAll rules]
  constructor
  · rintro ⟨-, inside⟩
    exact Node.refusal?_transform_sequence.mp (inside _ wraps.mem_entries)
  · intro accepted
    refine ⟨⟨false, rfl⟩, fun entry member => ?_⟩
    rcases wraps.of_mem member with rfl | ⟨leaf, isLeaf⟩
    · exact Node.refusal?_transform_sequence.mpr accepted
    · rw [isLeaf, Node.transform_scalar]
      rfl

theorem left (accepted : ((Node.mapping m).transform rules).refusal? = none) :
    ((Node.mapping m).transform rules).left = .mapping (m.descend rules) := by
  rw [Node.left_transform_mapping accepted, Dict.walked, wraps.applyAll rules]
  rfl

theorem get?_descend_self (accepted : ((Node.mapping m).transform rules).refusal? = none) :
    (m.descend rules).get? key =
      some (.sequence (items.map fun item => (item.transform rules).left)) := by
  have inside := Node.refusal?_transform_sequence.mpr (wraps.refusal?_eq_none.mp accepted)
  rw [Dict.descend, Dict.get?_mapValues, wraps.stored, Option.map_some,
    Node.left_transform_sequence inside]

theorem get?_descend_of_ne {other : String} (differs : other ≠ key) :
    (m.descend rules).get? other = m.get? other := by
  rw [Dict.descend, Dict.get?_mapValues]
  cases stored : m.get? other with
  | none => rfl
  | some value =>
      obtain ⟨leaf, rfl⟩ := wraps.leaves other value stored differs
      rw [Option.map_some, Node.transform_scalar]
      rfl

theorem changed_iff (accepted : ((Node.mapping m).transform rules).refusal? = none) :
    ((Node.mapping m).transform rules).changed = true ↔
      ∃ item ∈ items, (item.transform rules).changed = true := by
  have inside := Node.refusal?_transform_sequence.mpr (wraps.refusal?_eq_none.mp accepted)
  have sequence : ((Node.sequence items).transform rules).changed = true ↔
      ∃ item ∈ items, (item.transform rules).changed = true := by
    rw [Node.changed_transform_sequence inside, List.any_eq_true]
  rw [Node.changed_transform_mapping accepted (wraps.outcome_applyAll rules),
    wraps.applyAll rules, Bool.false_or, List.any_eq_true, ← sequence]
  constructor
  · rintro ⟨entry, member, changed⟩
    rcases wraps.of_mem member with rfl | ⟨leaf, isLeaf⟩
    · exact changed
    · rw [isLeaf, Node.transform_scalar] at changed
      cases changed
  · intro changed
    exact ⟨_, wraps.mem_entries, changed⟩

/-! ## A walk that is refused -/

theorem refused {e : TransformError}
    (refused : ((Node.mapping m).transform rules).refusal? = some e) :
    ∃ i own, Node.FirstRefused rules items i own ∧ e = own.below [.key key, .index i] := by
  rw [Node.transform_mapping_of_ok (wraps.outcome_applyAll rules), wraps.applyAll rules] at refused
  obtain ⟨other, value, inner, member, found, rfl, -⟩ := Node.refused_walkEntries refused
  rcases wraps.of_mem member with same | ⟨leaf, isLeaf⟩
  · cases same
    obtain ⟨i, item, own, -, stored, itemRefused, rfl, -, -, before⟩ :=
      Node.refused_transform_sequence found
    refine ⟨i, own, ⟨⟨item, stored, Walked.outcome_eq_error_iff.mpr itemRefused⟩, ?_⟩, rfl⟩
    exact fun earlier member => Walked.exists_outcome_eq_ok_iff.mpr (before earlier member)
  · rw [show value = .scalar leaf from isLeaf, Node.transform_scalar] at found
    cases found

/-- A walk does to documents in a list what the walks through them do. -/
theorem walksAsItems (rules : List Rule) : m.WalksAsItems rules key items where
  accepted_iff := by
    simp only [Walked.exists_outcome_eq_ok_iff]
    exact wraps.refusal?_eq_none
  left := by
    intro changed done
    have accepted := (Walked.outcome_eq_ok_iff.mp done).1
    exact ⟨m.descend rules, wraps.left accepted, Dict.keys_mapValues _ m,
      wraps.get?_descend_self accepted, fun _ differs => wraps.get?_descend_of_ne differs⟩
  changed_iff := by
    intro changed done
    obtain ⟨accepted, rfl⟩ := Walked.outcome_eq_ok_iff.mp done
    rw [wraps.changed_iff accepted]
    refine exists_congr fun item => and_congr_right fun member => ?_
    rw [Walked.outcome_eq_ok_iff, and_iff_right (wraps.refusal?_eq_none.mp accepted item member)]
  refused := by
    intro e refused
    obtain ⟨i, own, first, rfl⟩ := wraps.refused (Walked.outcome_eq_error_iff.mp refused)
    refine ⟨i, own, first, rfl, rfl, rfl, String.join (own.path.map Step.render), rfl, ?_⟩
    rw [TransformError.below, Path.render_append, Path.render_item]

end Dict.Wraps

/-- The first document of this list changes, and the path of the refusal leads into the second one. -/
theorem Dict.Wraps.walksAsItems_list :
    let first := Node.mapping ⟨[("extraArgs", .mapping ⟨[("v", .string "2")]⟩)]⟩
    let second := Node.mapping ⟨[("spec", .mapping ⟨[("extraArgs", .string "x")]⟩)]⟩
    let m : Mapping := ⟨[("apiVersion", .string "v1"), ("kind", .string "List"),
      ("items", .sequence [first, second])]⟩
    m.Wraps "items" [first, second] ∧ m.WalksAsItems Rule.all "items" [first, second] ∧
      (first.transform Rule.all).outcome = .ok true ∧
      (second.transform Rule.all).refusal?.map (·.path.render) = some "$.spec" ∧
      ((Node.mapping m).transform Rule.all).refusal?.map (·.path.render) =
        some "$.items[1].spec" := by
  intro first second m
  have wraps : m.Wraps "items" [first, second] := by
    refine ⟨by decide, rfl, fun other value stored differs => ?_, by decide, by decide, by decide⟩
    rcases List.mem_cons.mp (Dict.mem_of_get? stored) with eq | inside
    · exact ⟨_, congrArg Prod.snd eq⟩
    · rcases List.mem_cons.mp inside with eq | last
      · exact ⟨_, congrArg Prod.snd eq⟩
      · exact absurd (congrArg Prod.fst (List.mem_singleton.mp last)) differs
  have walks : m.WalksAsItems Rule.all "items" [first, second] := wraps.walksAsItems Rule.all
  have firstDone : (first.transform Rule.all).outcome = .ok true :=
    (Node.transform_of_settled_values (by decide +kernel) (by decide +kernel)).1
  let spec := Node.mapping ⟨[("extraArgs", .string "x")]⟩
  have specRefused : (spec.transform Rule.all).refusal? =
      some ⟨.argumentList, [], ⟨"extraArgs", .string⟩⟩ := by
    rw [Node.transform, Node.walk]
    decide +kernel
  have only : (Rule.applyAll Rule.all ⟨[("spec", spec)]⟩).left.entries = [("spec", spec)] := by
    decide +kernel
  have secondRefused : (second.transform Rule.all).refusal? =
      some ⟨.argumentList, [.key "spec"], ⟨"extraArgs", .string⟩⟩ :=
    Node.refusal?_transform_mapping_of_value [] (show _ = Except.ok false by decide +kernel) only
      (List.forall_mem_nil _) specRefused
  refine ⟨wraps, walks, firstDone, by rw [secondRefused]; rfl, ?_⟩
  cases outcome : ((Node.mapping m).transform Rule.all).outcome with
  | ok changed =>
      obtain ⟨_, done⟩ := walks.accepted_iff.mp ⟨changed, outcome⟩ second (by simp)
      cases secondRefused.symm.trans (Walked.outcome_eq_ok_iff.mp done).1
  | error e =>
      obtain ⟨i, own, ⟨⟨item, stored, refused⟩, -⟩, -, -, path, -⟩ := walks.refused e outcome
      rw [Walked.outcome_eq_error_iff.mp outcome, Option.map_some, path]
      rcases i with _ | _ | i
      · cases stored
        cases refused.symm.trans firstDone
      · cases stored
        cases (Walked.outcome_eq_error_iff.mp refused).symm.trans secondRefused
        decide +kernel
      · cases stored

end ManifestMigration
