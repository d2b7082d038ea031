import ManifestMigration.Proofs.Walk.Descent

/-! # Walks settle documents

A document is settled when every mapping in it is, at every depth and for every rule of the list. A
walk that nothing refuses leaves such a document, and it finds nothing to do in one. Both go by
induction along the walk: a mapping is settled by the rules before the walk goes on with its values,
and what the walk does there keeps it settled. Only well keyed documents can be settled in this way,
since a rule that drops a key drops it once; all documents that are made by storing fields are well
keyed.
-/

namespace ManifestMigration

theorem Rule.wellKeyed_left_applyAll {rules : List Rule} {m : Mapping} (keyed : m.WellKeyed) :
    (Rule.applyAll rules m).left.WellKeyed :=
  Revision.run_invariant (fun _ _ _ => Rule.wellKeyed_left_apply) keyed

namespace Node

variable {rules : List Rule}

/-- Every mapping in the document is settled for every rule of a list. -/
def Settled (rules : List Rule) (node : Node) : Prop :=
  node.EveryMapping fun m => ∀ rule ∈ rules, rule.Settled m

instance (node : Node) : Decidable (node.Settled rules) :=
  inferInstanceAs (Decidable (node.EveryMapping fun m => ∀ rule ∈ rules, rule.Settled m))

theorem settled_left_transform {node : Node} (keyed : node.WellKeyed)
    (accepted : (node.transform rules).refusal? = none) :
    (node.transform rules).left.Settled rules := by
  induction node using transform_induction rules with
  | scalar value =>
      rw [transform_scalar]
      exact everyMapping_scalar value
  | sequence items ih =>
      rw [left_transform_sequence accepted, Settled, everyMapping_sequence]
      intro item member
      obtain ⟨old, oldMember, rfl⟩ := List.mem_map.mp member
      exact ih old oldMember (wellKeyed_sequence.mp keyed old oldMember)
        (refusal?_transform_sequence.mp accepted old oldMember)
  | mapping m ih =>
      obtain ⟨⟨changed, done⟩, inside⟩ := refusal?_transform_mapping.mp accepted
      have kept : (Rule.applyAll rules m).left.WellKeyed := Rule.wellKeyed_left_applyAll keyed
      rw [left_transform_mapping accepted, Settled, everyMapping_mapping]
      constructor
      · intro rule member
        -- The rules settle the mapping first; the walks through its values come after that.
        have settled : rule.Settled (Rule.applyAll rules m).left :=
          Rule.settling.run_settles keyed done rule member
        exact Rule.settled_descend inside settled
      · intro entry member
        obtain ⟨old, oldMember, rfl⟩ := List.mem_map.mp member
        exact ih ⟨changed, done⟩ old oldMember (kept.of_mem oldMember) (inside old oldMember)

/-- Where the rules leave values in which nothing happens, the walk ends with them. -/
theorem transform_mapping_of_still {m : Mapping} {changed : Bool}
    (done : (Rule.applyAll rules m).outcome = .ok changed)
    (still : ∀ entry ∈ (Rule.applyAll rules m).left.entries,
      (entry.2.transform rules).outcome = .ok false ∧ (entry.2.transform rules).left = entry.2) :
    ((Node.mapping m).transform rules).outcome = .ok changed ∧
      ((Node.mapping m).transform rules).left = .mapping (Rule.applyAll rules m).left := by
  have values := fun entry member => Walked.outcome_eq_ok_iff.mp (still entry member).1
  have accepted : ((Node.mapping m).transform rules).refusal? = none :=
    refusal?_transform_mapping.mpr ⟨⟨changed, done⟩, fun entry member => (values entry member).1⟩
  have none : ((Rule.applyAll rules m).left.entries.any fun entry =>
      (entry.2.transform rules).changed) = false :=
    List.any_eq_false.mpr fun entry member => by simp [(values entry member).2]
  have kept : (Rule.applyAll rules m).left.descend rules = (Rule.applyAll rules m).left :=
    Dict.mapValues_eq_self fun entry member => (still entry member).2
  rw [Walked.outcome_eq_ok_iff, left_transform_mapping accepted, Dict.walked, kept,
    changed_transform_mapping accepted done, none, Bool.or_false]
  exact ⟨⟨accepted, rfl⟩, rfl⟩

/-- A walk through a settled document is not refused and leaves it as it is. -/
theorem transform_of_settled {node : Node} (settled : node.Settled rules) :
    (node.transform rules).outcome = .ok false ∧ (node.transform rules).left = node := by
  induction node using transform_induction rules with
  | scalar value =>
      rw [transform_scalar]
      exact ⟨rfl, rfl⟩
  | sequence items ih =>
      rw [Settled, everyMapping_sequence] at settled
      have still := fun item member => ih item member (settled item member)
      have values := fun item member => Walked.outcome_eq_ok_iff.mp (still item member).1
      have accepted : ((Node.sequence items).transform rules).refusal? = none :=
        refusal?_transform_sequence.mpr fun item member => (values item member).1
      have same : items.map (fun item => (item.transform rules).left) = items.map id :=
        List.map_congr_left fun item member => (still item member).2
      rw [Walked.outcome_eq_ok_iff, left_transform_sequence accepted, same, List.map_id,
        changed_transform_sequence accepted]
      refine ⟨⟨accepted, ?_⟩, rfl⟩
      exact List.any_eq_false.mpr fun item member => by simp [(values item member).2]
  | mapping m ih =>
      rw [Settled, everyMapping_mapping] at settled
      have unchanged : Rule.applyAll rules m = .unchanged m :=
        Rule.settling.run_of_settled settled.1
      have done : (Rule.applyAll rules m).outcome = .ok false := by rw [unchanged]; rfl
      have left : (Rule.applyAll rules m).left = m := by rw [unchanged]; rfl
      have still := transform_mapping_of_still done fun entry member =>
        ih ⟨false, done⟩ entry member (settled.2 entry (left ▸ member))
      rwa [left] at still

/-- A walk that changes nothing has gone through a settled document. -/
theorem settled_of_transform {node : Node} (still : (node.transform rules).outcome = .ok false) :
    node.Settled rules := by
  obtain ⟨accepted, unchanged⟩ := Walked.outcome_eq_ok_iff.mp still
  clear still
  induction node using transform_induction rules with
  | scalar value => exact everyMapping_scalar value
  | sequence items ih =>
      rw [changed_transform_sequence accepted, List.any_eq_false] at unchanged
      rw [Settled, everyMapping_sequence]
      intro item member
      exact ih item member (refusal?_transform_sequence.mp accepted item member)
        (by simpa using unchanged item member)
  | mapping m ih =>
      obtain ⟨⟨changed, done⟩, inside⟩ := refusal?_transform_mapping.mp accepted
      rw [changed_transform_mapping accepted done, Bool.or_eq_false_iff, List.any_eq_false]
        at unchanged
      obtain ⟨rfl, stillInside⟩ := unchanged
      have settled : ∀ rule ∈ rules, rule.Settled m := Rule.settling.settled_of_run done
      have left : (Rule.applyAll rules m).left = m := by
        rw [Rule.applyAll, Rule.settling.run_of_settled settled]
        rfl
      rw [Settled, everyMapping_mapping]
      refine ⟨settled, ?_⟩
      intro entry member
      rw [left] at inside stillInside ih
      exact ih ⟨false, done⟩ entry member (inside entry member)
        (by simpa using stillInside entry member)

theorem transform_still_iff {node : Node} :
    (node.transform rules).outcome = .ok false ↔ node.Settled rules :=
  ⟨settled_of_transform, fun settled => (transform_of_settled settled).1⟩

theorem transform_of_settled_values {m : Mapping} {changed : Bool}
    (done : (Rule.applyAll rules m).outcome = .ok changed)
    (settled : ∀ entry ∈ (Rule.applyAll rules m).left.entries, entry.2.Settled rules) :
    ((Node.mapping m).transform rules).outcome = .ok changed ∧
      ((Node.mapping m).transform rules).left = .mapping (Rule.applyAll rules m).left :=
  transform_mapping_of_still done fun entry member => transform_of_settled (settled entry member)

/-! ## Walking again -/

/-- A second walk with the same rules is not refused and changes nothing. -/
theorem transform_idempotent {document : Node} (keyed : document.WellKeyed) {changed : Bool}
    (done : (document.transform rules).outcome = .ok changed) :
    ((document.transform rules).left.transform rules).outcome = .ok false ∧
      ((document.transform rules).left.transform rules).left = (document.transform rules).left := by
  have accepted : (document.transform rules).refusal? = none :=
    (Walked.outcome_eq_ok_iff.mp done).1
  exact transform_of_settled (settled_left_transform keyed accepted)

theorem transform_idempotent_threshold :
    let rules : List Rule := [.healthCheck, .groupReference]
    let document := Node.mapping ⟨[("kind", .string "MachineHealthCheck"),
      ("spec", .mapping ⟨[("maxUnhealthy", .string "40%")]⟩)]⟩
    document.WellKeyed ∧ (document.transform rules).outcome = .ok true ∧
      ((document.transform rules).left.transform rules).outcome = .ok false := by
  intro rules document
  have keyed : document.WellKeyed := by
    simp [document, wellKeyed_mapping, Dict.keys, wellKeyed_scalar]
  have done : (document.transform rules).outcome = .ok true :=
    (transform_of_settled_values (by decide +kernel) (by decide +kernel)).1
  exact ⟨keyed, done, (transform_idempotent keyed done).1⟩

/-- A walk reports a change exactly when it leaves another document. -/
theorem changed_iff_left_ne {document : Node} (keyed : document.WellKeyed) {changed : Bool}
    (done : (document.transform rules).outcome = .ok changed) :
    changed = true ↔ (document.transform rules).left ≠ document := by
  have accepted : (document.transform rules).refusal? = none :=
    (Walked.outcome_eq_ok_iff.mp done).1
  constructor
  · rintro rfl same
    -- What a walk leaves is settled, and in a settled document nothing fires.
    have settled : document.Settled rules := same ▸ settled_left_transform keyed accepted
    cases done.symm.trans (transform_of_settled settled).1
  · intro differs
    cases changed with
    | true => rfl
    | false => exact absurd (transform_of_settled (settled_of_transform done)).2 differs

theorem changed_iff_left_ne_endpoint :
    let document := Node.mapping ⟨[("controlPlaneEndpoint", .mapping ⟨[("host", .string " ")]⟩)]⟩
    document.WellKeyed ∧ (document.transform [.emptyEndpoint]).outcome = .ok true ∧
      (document.transform [.emptyEndpoint]).left ≠ document := by
  intro document
  have keyed : document.WellKeyed := by
    simp [document, wellKeyed_mapping, Dict.keys, wellKeyed_scalar]
  have done : (document.transform [.emptyEndpoint]).outcome = .ok true :=
    (transform_of_settled_values (by decide +kernel) (by decide +kernel)).1
  exact ⟨keyed, done, (changed_iff_left_ne keyed done).mp rfl⟩

/-! ## The built-in rules -/

theorem settled_all_iff {node : Node} : node.Settled Rule.all ↔ node.EveryMapping Migrated :=
  everyMapping_congr (fun _ => migrated_iff.symm) node

/-- The built-in rules leave every mapping in its migrated shape, and they leave alone exactly the
    documents in which every mapping has that shape. -/
theorem transform_migrates {document : Node} (keyed : document.WellKeyed) :
    (∀ changed, (document.transform Rule.all).outcome = .ok changed →
      (document.transform Rule.all).left.EveryMapping Migrated) ∧
      ((document.transform Rule.all).outcome = .ok false ↔ document.EveryMapping Migrated) := by
  constructor
  · intro changed done
    have accepted : (document.transform Rule.all).refusal? = none :=
      (Walked.outcome_eq_ok_iff.mp done).1
    exact settled_all_iff.mp (settled_left_transform keyed accepted)
  · rw [transform_still_iff, settled_all_iff]

theorem transform_migrates_template :
    let document := Node.mapping ⟨[("kind", .string "KubeadmControlPlane"),
      ("spec", .mapping ⟨[("machineTemplate", .mapping ⟨[("infrastructureRef", .mapping ⟨[]⟩)]⟩)]⟩)]⟩
    document.WellKeyed ∧ (document.transform Rule.all).outcome = .ok true ∧
      (document.transform Rule.all).left.EveryMapping Migrated ∧
      ¬ document.EveryMapping Migrated := by
  intro document
  have keyed : document.WellKeyed := by
    simp [document, wellKeyed_mapping, Dict.keys, wellKeyed_scalar]
  have done : (document.transform Rule.all).outcome = .ok true :=
    (transform_of_settled_values (by decide +kernel) (by decide +kernel)).1
  obtain ⟨completes, still⟩ := transform_migrates keyed
  refine ⟨keyed, done, completes true done, ?_⟩
  intro migrated
  cases done.symm.trans (still.mpr migrated)

end Node

end ManifestMigration
