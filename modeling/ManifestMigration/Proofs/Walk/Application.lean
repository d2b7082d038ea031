import ManifestMigration.Proofs.Dict.Lookup
import ManifestMigration.Proofs.Rule.Steps
import ManifestMigration.Walk

/-! # Applying rules during a walk

Walks seen from above, and what the rules of a walk do to one mapping: they leave of it what
`Rule.applyAll` leaves, and they are refused where it is.
-/

namespace ManifestMigration

def Event.below (above : Path) : Event → Event
  | .visited path => .visited (above ++ path)
  | .noted note => .noted note
  | .fired rule path => .fired rule (above ++ path)

def TransformError.below (above : Path) (e : TransformError) : TransformError :=
  { e with path := above ++ e.path }

namespace Walked

variable {α β : Type}

/-- Whether a walk changed something, unless it was refused. -/
def outcome (x : Walked α) : Except TransformError Bool :=
  match x.refusal? with
  | some e => .error e
  | none => .ok x.changed

theorem outcome_eq_ok_iff {x : Walked α} {changed : Bool} :
    x.outcome = .ok changed ↔ x.refusal? = none ∧ x.changed = changed := by
  unfold outcome
  cases x.refusal? <;> simp

def below (above : Path) (x : Walked α) : Walked α :=
  ⟨x.events.map (·.below above), x.left, x.refusal?.map (·.below above)⟩

theorem below_map (above : Path) (f : α → β) (x : Walked α) :
    (x.map f).below above = (x.below above).map f := rfl

theorem below_andThen (above : Path) (x : Walked α) (stop : α → β) (go : α → Walked β) :
    (x.andThen stop go).below above =
      (x.below above).andThen stop fun left => (go left).below above := by
  cases refused : x.refusal? with
  | none => simp only [andThen, below, refused, after, Option.map_none, List.map_append]
  | some e => simp only [andThen, below, refused, Option.map_some]

@[simp] theorem left_below (above : Path) (x : Walked α) : (x.below above).left = x.left := rfl

@[simp] theorem refusal?_below_eq_none (above : Path) (x : Walked α) :
    (x.below above).refusal? = none ↔ x.refusal? = none := by
  simp [below]

theorem firedRule?_below (above : Path) (event : Event) :
    (event.below above).firedRule? = event.firedRule? := by
  cases event <;> rfl

@[simp] theorem changed_below (above : Path) (x : Walked α) :
    (x.below above).changed = x.changed := by
  simp only [changed, fired, below, List.filterMap_map, Function.comp_def, firedRule?_below]

@[simp] theorem left_map (f : α → β) (x : Walked α) : (x.map f).left = f x.left := rfl

@[simp] theorem refusal?_map (f : α → β) (x : Walked α) : (x.map f).refusal? = x.refusal? := rfl

@[simp] theorem changed_map (f : α → β) (x : Walked α) : (x.map f).changed = x.changed := rfl

theorem changed_after (events : List Event) (x : Walked α) :
    (x.after events).changed = (!(events.filterMap Event.firedRule?).isEmpty || x.changed) := by
  simp only [changed, fired, after, List.filterMap_append]
  cases events.filterMap Event.firedRule? <;> rfl

/-- A walk in two parts that nothing refuses. -/
theorem refusal?_andThen_eq_none {x : Walked α} {stop : α → β} {go : α → Walked β} :
    (x.andThen stop go).refusal? = none ↔ x.refusal? = none ∧ (go x.left).refusal? = none := by
  cases refused : x.refusal? with
  | none => simp [andThen, refused, after]
  | some e => simp [andThen, refused]

theorem left_andThen {x : Walked α} {stop : α → β} {go : α → Walked β}
    (accepted : x.refusal? = none) : (x.andThen stop go).left = (go x.left).left := by
  simp only [andThen, accepted, after]

theorem changed_andThen {x : Walked α} {stop : α → β} {go : α → Walked β}
    (accepted : x.refusal? = none) :
    (x.andThen stop go).changed = (x.changed || (go x.left).changed) := by
  simp only [andThen, accepted, changed_after]
  rfl

end Walked

/-! ## Rules on one mapping -/

namespace Rule

/-- What a list of rules makes of a mapping. -/
def applyAll (rules : List Rule) : Mapping → Revision := Revision.run apply rules

theorem applyAt_append (above path : Path) (rule : Rule) (m : Mapping) :
    rule.applyAt (above ++ path) m = (rule.applyAt path m).below above := by
  have notes : ((rule.notes m).map Event.noted).map (·.below above) =
      (rule.notes m).map Event.noted := by
    simp [Event.below]
  unfold applyAt
  split
  · simp only [Walked.below, notes]
    rfl
  · next left fired _ =>
      simp only [Walked.below, List.map_append, notes]
      cases fired <;> rfl

theorem applyAllAt_append (above path : Path) (rules : List Rule) (m : Mapping) :
    applyAllAt (above ++ path) rules m = (applyAllAt path rules m).below above := by
  induction rules generalizing m with
  | nil => rfl
  | cons rule rest ih =>
      have later : applyAllAt (above ++ path) rest = fun left => (applyAllAt path rest left).below above :=
        funext ih
      rw [applyAllAt, applyAllAt, Walked.below_andThen, applyAt_append, later]

theorem applyAt_of_ok (path : Path) {rule : Rule} {m : Mapping} {changed : Bool}
    (done : (rule.apply m).outcome = .ok changed) :
    (rule.applyAt path m).refusal? = none ∧ (rule.applyAt path m).changed = changed := by
  have quiet : ((rule.notes m).map Event.noted).filterMap Event.firedRule? = [] := by
    simp [Event.firedRule?]
  unfold applyAt
  split
  · next left cause refused =>
      rw [refused] at done
      cases done
  · next left fired revised =>
      rw [revised] at done
      cases done
      refine ⟨rfl, ?_⟩
      simp only [Walked.changed, Walked.fired, List.filterMap_append, quiet]
      cases changed <;> rfl

theorem applyAt_of_error (path : Path) {rule : Rule} {m : Mapping} {e : ShapeError}
    (refused : (rule.apply m).outcome = .error e) :
    (rule.applyAt path m).refusal? = some ⟨rule, path, e⟩ := by
  unfold applyAt
  split
  · next left cause revised =>
      rw [revised] at refused
      cases refused
      rfl
  · next left fired revised =>
      rw [revised] at refused
      cases refused

theorem left_applyAllAt (path : Path) (rules : List Rule) (m : Mapping) :
    (applyAllAt path rules m).left = (applyAll rules m).left := by
  induction rules generalizing m with
  | nil => rfl
  | cons rule rest ih =>
      cases outcome : (rule.apply m).outcome with
      | error e =>
          have refused := applyAt_of_error path outcome
          rw [applyAll, Revision.run, Revision.andThen_of_error outcome, applyAllAt, Walked.andThen,
            refused]
          exact left_applyAt path rule m
      | ok b =>
          have accepted := (applyAt_of_ok path outcome).1
          rw [applyAll, Revision.run, Revision.andThen_of_ok outcome, applyAllAt,
            Walked.left_andThen accepted, left_applyAt]
          exact ih _

theorem applyAllAt_of_ok (path : Path) {rules : List Rule} {m : Mapping} {changed : Bool}
    (done : (applyAll rules m).outcome = .ok changed) :
    (applyAllAt path rules m).refusal? = none ∧ (applyAllAt path rules m).changed = changed := by
  induction rules generalizing m changed with
  | nil => exact ⟨rfl, Except.ok.inj done⟩
  | cons rule rest ih =>
      obtain ⟨first, second, firstDone, restDone, rfl, -⟩ := Revision.outcome_andThen_eq_ok done
      obtain ⟨accepted, fired⟩ := applyAt_of_ok path firstDone
      obtain ⟨restAccepted, restFired⟩ := ih restDone
      rw [applyAllAt, Walked.refusal?_andThen_eq_none, Walked.changed_andThen accepted,
        left_applyAt, fired, restFired]
      exact ⟨⟨accepted, restAccepted⟩, rfl⟩

/-- The rule that refuses a mapping is one of the list, and it refuses what the others left. -/
theorem applyAllAt_of_error (path : Path) {rules : List Rule} {m : Mapping} {e : ShapeError}
    (refused : (applyAll rules m).outcome = .error e) :
    ∃ rule ∈ rules, (∃ before, (rule.apply before).outcome = .error e) ∧
      (applyAllAt path rules m).refusal? = some ⟨rule, path, e⟩ := by
  induction rules generalizing m with
  | nil => cases refused
  | cons rule rest ih =>
      cases outcome : (rule.apply m).outcome with
      | error e' =>
          rw [applyAll, Revision.run, Revision.andThen_of_error outcome] at refused
          cases refused
          refine ⟨rule, List.mem_cons_self, ⟨m, outcome⟩, ?_⟩
          simp only [applyAllAt, Walked.andThen, applyAt_of_error path outcome]
      | ok b =>
          have restRefused : (applyAll rest (rule.apply m).left).outcome = .error e := by
            rw [applyAll, Revision.run, Revision.andThen_of_ok outcome] at refused
            rw [applyAll]
            cases later : (Revision.run apply rest (rule.apply m).left).outcome with
            | error e' => simpa [later, Except.map] using refused
            | ok c => simp [later, Except.map] at refused
          obtain ⟨culprit, member, cause, found⟩ := ih restRefused
          refine ⟨culprit, List.mem_cons_of_mem _ member, cause, ?_⟩
          simp only [applyAllAt, Walked.andThen, (applyAt_of_ok path outcome).1,
            Walked.after, left_applyAt, found]

end Rule

end ManifestMigration
