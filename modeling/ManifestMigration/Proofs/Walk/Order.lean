import ManifestMigration.Proofs.Rule.Order
import ManifestMigration.Proofs.Walk.Settled

/-! # Walks with the same rules

A walk comes to the same document and the same flag, or to the same refusal, whatever the order of
its rules is and however often they are listed. On one mapping this is what commuting rules give.
From there it goes up by induction along the walk: the same values are left in the same places, so
both walks go on with the same parts, and the first part that one of them is refused in is the first
one for the other.
-/

namespace ManifestMigration

namespace Walked

variable {α β : Type}

/-- What a walk leaves and whether it changed something, unless it was refused. -/
def verdict (x : Walked α) : Except TransformError (α × Bool) :=
  match x.refusal? with
  | some e => .error e
  | none => .ok (x.left, x.changed)

theorem verdict_of_refused {x : Walked α} {e : TransformError} (refused : x.refusal? = some e) :
    x.verdict = .error e := by
  rw [verdict, refused]

theorem verdict_of_accepted {x : Walked α} (accepted : x.refusal? = none) :
    x.verdict = .ok (x.left, x.changed) := by
  rw [verdict, accepted]

theorem outcome_eq_map_verdict (x : Walked α) : x.outcome = x.verdict.map (·.2) := by
  unfold outcome verdict
  cases x.refusal? <;> rfl

theorem result_eq_map_verdict (x : Walked α) : x.result = x.verdict.map (·.1) := by
  unfold result verdict
  cases x.refusal? <;> rfl

theorem verdict_map (f : α → β) (x : Walked α) :
    (x.map f).verdict = x.verdict.map fun done => (f done.1, done.2) := by
  unfold verdict
  rw [refusal?_map]
  cases x.refusal? <;> rfl

theorem verdict_below (above : Path) (x : Walked α) :
    (x.below above).verdict = x.verdict.mapError (·.below above) := by
  unfold verdict
  rw [changed_below, left_below]
  cases refused : x.refusal? <;> simp only [below, refused] <;> rfl

theorem verdict_after (events : List Event) (x : Walked α) :
    (x.after events).verdict = x.verdict.map fun done =>
      (done.1, !(events.filterMap Event.firedRule?).isEmpty || done.2) := by
  unfold verdict
  rw [changed_after]
  cases refused : x.refusal? <;> simp only [after, refused] <;> rfl

/-- Only the verdict of a first part matters. -/
theorem verdict_andThen (x : Walked α) (stop : α → β) (go : α → Walked β) :
    (x.andThen stop go).verdict =
      x.verdict.bind fun done => (go done.1).verdict.map fun later => (later.1, done.2 || later.2) := by
  cases refused : x.refusal? with
  | some e =>
      rw [verdict_of_refused refused, andThen, refused]
      rfl
  | none =>
      rw [verdict_of_accepted refused]
      cases later : (go x.left).refusal? with
      | some e =>
          have stopped : (x.andThen stop go).refusal? = some e := by
            simp only [andThen, refused, after, later]
          simp only [verdict_of_refused stopped, Except.bind, verdict_of_refused later]
          rfl
      | none =>
          have accepted : (x.andThen stop go).refusal? = none :=
            refusal?_andThen_eq_none.mpr ⟨refused, later⟩
          rw [verdict_of_accepted accepted, left_andThen refused, changed_andThen refused]
          simp only [Except.bind, verdict_of_accepted later]
          rfl

end Walked

namespace Node

variable {rules rules' : List Rule}

/-- Rules on a mapping first, and then the walk through the values that they leave. -/
theorem verdict_transform_mapping (m : Mapping) :
    ((Node.mapping m).transform rules).verdict =
      match (Rule.applyAll rules m).result with
      | .error e => .error ⟨.argumentList, [], e⟩
      | .ok (left, changed) => (walkEntries rules [] left.entries).verdict.map fun walked =>
          (.mapping ⟨walked.1⟩, changed || walked.2) := by
  cases outcome : (Rule.applyAll rules m).outcome with
  | error e =>
      obtain ⟨rule, -, ⟨before, cause⟩, refused⟩ := Rule.applyAllAt_of_error [] outcome
      obtain rfl := Rule.eq_argumentList_of_error cause
      rw [Revision.result_of_error outcome]
      refine Walked.verdict_of_refused ?_
      rw [transform, walk]
      simp [Walked.after, refused, Walked.map]
  | ok changed =>
      have fired : (!((.visited [] :: (Rule.applyAllAt [] rules m).events).filterMap
          Event.firedRule?).isEmpty) = changed := (Rule.applyAllAt_of_ok [] outcome).2
      rw [Revision.result_of_ok outcome, transform_mapping_of_ok outcome, Walked.verdict_after, fired,
        Walked.verdict_map]
      dsimp only
      cases (walkEntries rules [] (Rule.applyAll rules m).left.entries).verdict <;> rfl

/-- Walks agree on a list of entries when they agree on the values. -/
theorem verdict_walkEntries_congr (path : Path) {entries : List (String × Node)}
    (same : ∀ entry ∈ entries,
      (entry.2.transform rules).verdict = (entry.2.transform rules').verdict) :
    (walkEntries rules path entries).verdict = (walkEntries rules' path entries).verdict := by
  induction entries with
  | nil => rw [walkEntries, walkEntries]
  | cons entry rest ih =>
      obtain ⟨key, value⟩ := entry
      obtain ⟨first, others⟩ := List.forall_mem_cons.mp same
      rw [walkEntries, walkEntries]
      simp only [walk_eq_below, Walked.verdict_andThen, Walked.verdict_below, Walked.verdict_map,
        first, ih others]

theorem verdict_walkItems_congr (path : Path) (index : Nat) {items : List Node}
    (same : ∀ item ∈ items, (item.transform rules).verdict = (item.transform rules').verdict) :
    (walkItems rules path index items).verdict = (walkItems rules' path index items).verdict := by
  induction items generalizing index with
  | nil => rw [walkItems, walkItems]
  | cons item rest ih =>
      obtain ⟨first, others⟩ := List.forall_mem_cons.mp same
      rw [walkItems, walkItems]
      simp only [walk_eq_below, Walked.verdict_andThen, Walked.verdict_below, Walked.verdict_map,
        first, ih (index + 1) others]

theorem verdict_transform_of_same (same : ∀ rule, rule ∈ rules ↔ rule ∈ rules') {document : Node}
    (keyed : document.WellKeyed) :
    (document.transform rules).verdict = (document.transform rules').verdict := by
  induction document using transform_induction rules with
  | scalar value => rw [transform_scalar, transform_scalar]
  | sequence items ih =>
      have inside := verdict_walkItems_congr [] 0 fun item member =>
        ih item member (wellKeyed_sequence.mp keyed item member)
      rw [transform, transform, walk, walk, Walked.verdict_map, Walked.verdict_map, inside]
  | mapping m ih =>
      have applied : (Rule.applyAll rules m).result = (Rule.applyAll rules' m).result :=
        Rule.result_run_of_same keyed same
      have kept : (Rule.applyAll rules m).left.WellKeyed := Rule.wellKeyed_left_applyAll keyed
      rw [verdict_transform_mapping, verdict_transform_mapping, ← applied]
      cases outcome : (Rule.applyAll rules m).outcome with
      | error e => rw [Revision.result_of_error outcome]
      | ok changed =>
          rw [Revision.result_of_ok outcome]
          have inside := verdict_walkEntries_congr [] fun entry member =>
            ih ⟨changed, outcome⟩ entry member (kept.of_mem member)
          exact congrArg (Except.map _) inside

/-- Two lists of the same rules, in whatever order and however often they name a rule, come to the
    same flag and the same document, or to the same refusal. -/
theorem transform_of_same_rules (same : ∀ rule, rule ∈ rules ↔ rule ∈ rules') {document : Node}
    (keyed : document.WellKeyed) :
    (document.transform rules).outcome = (document.transform rules').outcome ∧
      (document.transform rules).result = (document.transform rules').result := by
  have verdicts := verdict_transform_of_same same keyed
  rw [Walked.outcome_eq_map_verdict, Walked.outcome_eq_map_verdict, Walked.result_eq_map_verdict,
    Walked.result_eq_map_verdict, verdicts]
  exact ⟨rfl, rfl⟩

theorem transform_of_same_rules_health :
    let rules : List Rule := [.emptyEndpoint, .healthCheck, .emptyEndpoint]
    let rules' : List Rule := [.healthCheck, .emptyEndpoint]
    let document := Node.mapping ⟨[("controlPlaneEndpoint", .mapping ⟨[]⟩),
      ("kind", .string "MachineHealthCheck"),
      ("spec", .mapping ⟨[("maxUnhealthy", .string "40%")]⟩)]⟩
    (∀ rule, rule ∈ rules ↔ rule ∈ rules') ∧ document.WellKeyed ∧
      (document.transform rules).outcome = .ok true ∧
      (document.transform rules').outcome = .ok true ∧
      (document.transform rules).result = (document.transform rules').result := by
  intro rules rules' document
  have same : ∀ rule, rule ∈ rules ↔ rule ∈ rules' := by
    intro rule
    cases rule <;> decide
  have keyed : document.WellKeyed := by
    simp [document, wellKeyed_mapping, Dict.keys, wellKeyed_scalar]
  have done : (document.transform rules).outcome = .ok true :=
    (transform_of_settled_values (by decide +kernel) (by decide +kernel)).1
  obtain ⟨outcomes, results⟩ := transform_of_same_rules same keyed
  exact ⟨same, keyed, done, outcomes ▸ done, results⟩

end Node

end ManifestMigration
