import Mathlib.Data.List.Forall2
import ManifestMigration.Proofs.Rule.Containers

/-! # What the checks of a health check hold

The startup timeout and the conditions of a health check move into its checks, times as seconds and
conditions one by one. What becomes of a time, of a condition and of the whole spec is said here by
relations that do not mention how the rule goes about it; the rule makes what they say
(`checks_moved`).
-/

namespace ManifestMigration

namespace HealthCheck

variable {m spec after condition fields : Mapping}

/-! ## Times -/

/-- What becomes of a time: a short duration becomes the number of its seconds, and any other value
    is carried over. -/
inductive TimeBecomes : Node → Node → Prop where
  | seconds {text : String} {seconds : Int64} :
    Duration.seconds? text = some seconds → TimeBecomes (.string text) (.integer seconds)
  | kept {value : Node} :
    (∀ text, value = .string text → Duration.seconds? text = none) → TimeBecomes value value

/-- A value is read as a duration when it is a string that is one. -/
theorem string?_bind_seconds?_eq_some_iff {value : Node} {seconds : Int64} :
    value.string?.bind Duration.seconds? = some seconds ↔
      ∃ text, value = .string text ∧ Duration.seconds? text = some seconds := by
  rw [Option.bind_eq_some_iff]
  refine exists_congr fun text => and_congr_left fun _ => ?_
  unfold Node.string?
  split
  · simp
  · next other => exact iff_of_false nofun (other text)

theorem timeBecomes_iff {old new : Node} : TimeBecomes old new ↔ new = inSeconds old := by
  unfold inSeconds
  constructor
  · intro becomes
    cases becomes with
    | seconds read => simp [Node.string?, read]
    | kept unread =>
        split
        · next seconds read =>
            obtain ⟨text, rfl, read⟩ := string?_bind_seconds?_eq_some_iff.mp read
            cases (unread text rfl).symm.trans read
        · rfl
  · intro same
    split at same
    · next seconds read =>
        obtain ⟨text, rfl, read⟩ := string?_bind_seconds?_eq_some_iff.mp read
        exact same ▸ .seconds read
    · next unread =>
        subst same
        refine .kept ?_
        rintro text rfl
        exact unread

/-! ## Conditions -/

/-- Something of the condition is kept: it is a mapping, and it has a type, a status, or a timeout
    that is not null. -/
def Convertible (condition : Node) : Prop :=
  ∃ fields, condition = .mapping fields ∧
    (fields.contains "type" = true ∨ fields.contains "status" = true ∨
      ∃ timeout, fields.get? "timeout" = some timeout ∧ timeout ≠ .null)

/-- What becomes of the fields of a condition: its type and its status stay, a timeout that is not
    null becomes seconds, and there is nothing else. -/
structure FieldsBecome (old new : Mapping) : Prop where
  names : new.keys.Sublist ["type", "status", "timeoutSeconds"]
  type : new.get? "type" = old.get? "type"
  status : new.get? "status" = old.get? "status"
  timeout : ∀ value, new.get? "timeoutSeconds" = some value ↔
    ∃ timeout, old.get? "timeout" = some timeout ∧ timeout ≠ .null ∧ TimeBecomes timeout value

/-- What becomes of a condition of which something is kept. -/
def ConditionBecomes (old new : Node) : Prop :=
  ∃ fields fields', old = .mapping fields ∧ new = .mapping fields' ∧ FieldsBecome fields fields'

theorem isNull_eq_true_iff {value : Node} : value.isNull = true ↔ value = .null := by
  unfold Node.isNull
  split
  · simp
  · next other => exact iff_of_false (by decide) other

theorem timeoutSeconds?_eq_some_iff {value : Node} :
    timeoutSeconds? condition = some value ↔
      ∃ timeout, condition.get? "timeout" = some timeout ∧ timeout ≠ .null ∧
        TimeBecomes timeout value := by
  unfold timeoutSeconds?
  cases condition.get? "timeout" with
  | none => simp
  | some timeout =>
      by_cases isNull : timeout = .null
      · simp [isNull, Node.isNull]
      · have notNull : timeout.isNull = false := by
          rw [← Bool.not_eq_true, isNull_eq_true_iff]
          exact isNull
        simp [isNull, notNull, timeBecomes_iff, eq_comm]

theorem keys_insertSome_sublist {key : String} {value : Option Node} {names : List String}
    (among : m.keys.Sublist names) : (insertSome key value m).keys.Sublist (names ++ [key]) := by
  cases value with
  | none => exact among.trans (List.sublist_append_left names [key])
  | some v =>
      rw [insertSome, Dict.keys_insert]
      split
      · exact among.trans (List.sublist_append_left names [key])
      · exact among.append (List.Sublist.refl [key])

theorem fieldsBecome_conditionFields (condition : Mapping) :
    FieldsBecome condition (conditionFields condition) where
  names :=
    keys_insertSome_sublist (keys_insertSome_sublist
      (keys_insertSome_sublist (show (Dict.empty : Mapping).keys.Sublist [] from .slnil)))
  type := by simp [get?_conditionFields]
  status := by simp [get?_conditionFields]
  timeout := fun value => by
    rw [get?_conditionFields, if_pos rfl]
    exact timeoutSeconds?_eq_some_iff

theorem convertible_iff :
    Convertible (.mapping condition) ↔ (conditionFields condition).isEmpty = false := by
  rw [Dict.isEmpty_eq_false_iff]
  constructor
  · rintro ⟨fields, same, kept⟩
    cases same
    rcases kept with type | status | ⟨timeout, stored, notNull⟩
    · obtain ⟨value, stored⟩ := Dict.contains_eq_true_iff.mp type
      exact ⟨"type", value, by simp [get?_conditionFields, stored]⟩
    · obtain ⟨value, stored⟩ := Dict.contains_eq_true_iff.mp status
      exact ⟨"status", value, by simp [get?_conditionFields, stored]⟩
    · refine ⟨"timeoutSeconds", inSeconds timeout, ?_⟩
      rw [get?_conditionFields, if_pos rfl, timeoutSeconds?_eq_some_iff]
      exact ⟨timeout, stored, notNull, timeBecomes_iff.mpr rfl⟩
  · rintro ⟨key, value, found⟩
    refine ⟨condition, rfl, ?_⟩
    rw [get?_conditionFields] at found
    split at found
    · obtain ⟨timeout, stored, notNull, -⟩ := timeoutSeconds?_eq_some_iff.mp found
      exact .inr (.inr ⟨timeout, stored, notNull⟩)
    · split at found
      · exact .inr (.inl (Dict.contains_eq_true_iff.mpr ⟨value, found⟩))
      · split at found
        · exact .inl (Dict.contains_eq_true_iff.mpr ⟨value, found⟩)
        · cases found

theorem not_convertible {condition : Node} (shape : condition.mapping? = none) :
    ¬ Convertible condition := by
  rintro ⟨fields, rfl, -⟩
  cases shape

theorem isSome_convertCondition?_iff {condition : Node} :
    (convertCondition? condition).isSome = true ↔ Convertible condition := by
  cases condition with
  | mapping fields =>
      rw [convertible_iff, convertCondition?]
      cases (conditionFields fields).isEmpty <;> simp
  | sequence items => exact iff_of_false Bool.false_ne_true (not_convertible rfl)
  | scalar leaf => exact iff_of_false Bool.false_ne_true (not_convertible rfl)

instance (condition : Node) : Decidable (Convertible condition) :=
  decidable_of_iff _ isSome_convertCondition?_iff

/-- The converted conditions are those of which something is kept, one by one and in their order. -/
theorem forall₂_conditionBecomes (conditions : List Node) :
    List.Forall₂ ConditionBecomes (conditions.filter (Convertible ·))
      (conditions.filterMap convertCondition?) := by
  induction conditions with
  | nil => exact .nil
  | cons condition rest ih =>
      cases done : convertCondition? condition with
      | none =>
          have dropped : ¬ Convertible condition := by simp [← isSome_convertCondition?_iff, done]
          rw [List.filter_cons_of_neg (by simpa using dropped), List.filterMap_cons_none done]
          exact ih
      | some converted =>
          have kept : Convertible condition := by simp [← isSome_convertCondition?_iff, done]
          obtain ⟨fields, rfl, rfl⟩ := convertCondition?_eq_some done
          rw [List.filter_cons_of_pos (by simpa using kept), List.filterMap_cons_some done]
          exact .cons ⟨fields, _, rfl, rfl, fieldsBecome_conditionFields fields⟩ ih

/-! ## The checks -/

/-- The spec has conditions, and of one of them something is kept. -/
def KeepsConditions (spec : Mapping) : Prop :=
  ∃ conditions, spec.get? "unhealthyConditions" = some (.sequence conditions) ∧
    ∃ condition ∈ conditions, Convertible condition

/-- What becomes of a spec whose timeouts and conditions move into its checks. -/
structure ChecksMoved (spec after : Mapping) : Prop where
  timeoutGone : after.get? "nodeStartupTimeout" = none
  conditionsGone : after.get? "unhealthyConditions" = none
  /-- The checks are there when they were or when something has moved there. -/
  there : after.contains "checks" = true ↔ spec.contains "checks" = true ∨
    spec.contains "nodeStartupTimeout" = true ∨ KeepsConditions spec
  block : after.AbsentOrMapping "checks"
  timeout : ∀ timeout, spec.get? "nodeStartupTimeout" = some timeout →
    ∃ seconds, (after.child "checks").get? "nodeStartupTimeoutSeconds" = some seconds ∧
      TimeBecomes timeout seconds
  timeoutKept : spec.get? "nodeStartupTimeout" = none →
    (after.child "checks").get? "nodeStartupTimeoutSeconds" =
      (spec.child "checks").get? "nodeStartupTimeoutSeconds"
  conditions : ∀ conditions, spec.get? "unhealthyConditions" = some (.sequence conditions) →
    (∃ condition ∈ conditions, Convertible condition) →
      ∃ converted, (after.child "checks").get? "unhealthyNodeConditions" =
          some (.sequence converted) ∧
        List.Forall₂ ConditionBecomes (conditions.filter (Convertible ·)) converted
  conditionsKept : ¬ KeepsConditions spec →
    (after.child "checks").get? "unhealthyNodeConditions" =
      (spec.child "checks").get? "unhealthyNodeConditions"
  others : ∀ key, key ≠ "nodeStartupTimeoutSeconds" → key ≠ "unhealthyNodeConditions" →
    (after.child "checks").get? key = (spec.child "checks").get? key

theorem keepsConditions_iff : KeepsConditions spec ↔ HasConditions spec := by
  simp only [KeepsConditions, HasConditions, isSome_convertCondition?_iff]

theorem child_checks_moved (spec : Mapping) : (moved spec).child "checks" = newChecks spec :=
  Dict.child_of_stored (get?_checks_moved spec)

theorem checksMoved_moved (keyed : spec.WellKeyed) (block : spec.AbsentOrMapping "checks") :
    ChecksMoved spec (moved spec) where
  timeoutGone := get?_moved_of_legacy keyed (by decide)
  conditionsGone := get?_moved_of_legacy keyed (by decide)
  there := by
    rw [keepsConditions_iff]
    exact Dict.contains_of_stored (get?_checks_moved spec) block isEmpty_newChecks_iff
  block := Dict.absentOrMapping_of_stored (get?_checks_moved spec) block
  timeout := by
    intro timeout stored
    refine ⟨inSeconds timeout, ?_, timeBecomes_iff.mpr rfl⟩
    simp [child_checks_moved, get?_newChecks, stored]
  timeoutKept := by
    intro absent
    simp [child_checks_moved, get?_newChecks, absent]
  conditions := by
    intro conditions stored
    rintro ⟨condition, member, convertible⟩
    refine ⟨_, ?_, forall₂_conditionBecomes conditions⟩
    have made := newConditions?_of_mem stored member (isSome_convertCondition?_iff.mpr convertible)
    simp [child_checks_moved, get?_newChecks, made]
  conditionsKept := by
    intro nothing
    have none := newConditions?_eq_none_iff.mpr (mt keepsConditions_iff.mpr nothing)
    simp [child_checks_moved, get?_newChecks, none]
  others := by
    intro key notTimeout notConditions
    rw [child_checks_moved, get?_newChecks, if_neg notConditions, if_neg notTimeout]

/-- The timeout and the conditions of a health check move into its checks, converted; of the checks
    nothing else changes, and there are none where nothing was and nothing moves. -/
theorem checks_moved (keyed : m.WellKeyed) (isCheck : m.hasKind kind = true)
    (hasSpec : m.get? "spec" = some (.mapping spec)) (block : spec.AbsentOrMapping "checks") :
    ∃ changed after, (Rule.healthCheck.apply m).outcome = .ok changed ∧
      (Rule.healthCheck.apply m).left.get? "spec" = some (.mapping after) ∧
        ChecksMoved spec after := by
  have inside : spec.WellKeyed := keyed.of_get? hasSpec
  have restructured := restructure_of_spec? (spec?_eq_some_iff.mpr ⟨isCheck, hasSpec⟩)
  refine ⟨(restructure m).2, moved spec, rfl, ?_, checksMoved_moved inside block⟩
  change (restructure m).1.get? "spec" = _
  rw [restructured, Dict.get?_insert_self]

theorem checks_moved_startup :
    let spec : Mapping := ⟨[("checks", .mapping ⟨[("nodeStartupTimeoutSeconds", .integer 1)]⟩),
      ("nodeStartupTimeout", .string "10m"),
      ("unhealthyConditions", .sequence [.mapping ⟨[]⟩, .string "Ready",
        .mapping ⟨[("status", .string "False"), ("timeout", .null), ("type", .string "Ready")]⟩])]⟩
    let m : Mapping := ⟨[("kind", .string "MachineHealthCheck"), ("spec", .mapping spec)]⟩
    m.WellKeyed ∧ m.hasKind kind = true ∧ m.get? "spec" = some (.mapping spec) ∧
      spec.AbsentOrMapping "checks" ∧
        ∃ changed after, (Rule.healthCheck.apply m).outcome = .ok changed ∧
          (Rule.healthCheck.apply m).left.get? "spec" = some (.mapping after) ∧
            ChecksMoved spec after ∧
              (after.child "checks").get? "nodeStartupTimeoutSeconds" = some (.integer 600) := by
  intro spec m
  have keyed : m.WellKeyed := by
    simp [m, spec, Dict.WellKeyed, Node.wellKeyed_mapping, Node.wellKeyed_sequence, Dict.keys,
      Node.wellKeyed_scalar]
  have block : spec.AbsentOrMapping "checks" := fun value stored => ⟨_, (Option.some.inj stored).symm⟩
  refine ⟨keyed, rfl, rfl, block, ?_⟩
  obtain ⟨changed, after, done, left, checks⟩ := checks_moved keyed rfl rfl block
  obtain ⟨seconds, stored, becomes⟩ := checks.timeout (.string "10m") rfl
  have read : inSeconds (.string "10m") = .integer 600 := rfl
  exact ⟨changed, after, done, left, checks, by rw [stored, timeBecomes_iff.mp becomes, read]⟩

end HealthCheck

end ManifestMigration
