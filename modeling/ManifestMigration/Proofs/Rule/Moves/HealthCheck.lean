import ManifestMigration.Proofs.Rule.Moves.Basic

/-! # What moves in a health check

The timeout, the fields of the conditions that are kept, the threshold and the fields that the
reference takes from the template. A threshold and a field of the template move only where their
place is free; the other two kinds replace what was in their place.
-/

namespace ManifestMigration.HealthCheck

variable {m spec : Mapping} {e : ShapeError} {path rest : Path}

/-! ## The moves -/

def timeoutMoves (spec : Mapping) : List Move :=
  if spec.contains "nodeStartupTimeout" then
    [⟨[.key "nodeStartupTimeout"], [.key "checks", .key "nodeStartupTimeoutSeconds"]⟩]
  else []

/-- The fields of a condition, in their old and in their new form. -/
def conditionKeys : List (String × String) :=
  [("type", "type"), ("status", "status"), ("timeout", "timeoutSeconds")]

/-- The conditions that are kept, each with its old index. -/
def keptConditions (conditions : List Node) : List (Node × Nat) :=
  conditions.zipIdx.filter fun entry => (convertCondition? entry.1).isSome

def conditionMoves (spec : Mapping) : List Move :=
  match spec.get? "unhealthyConditions" with
  | some (.sequence conditions) =>
    (keptConditions conditions).zipIdx.flatMap fun ((_, old), new) =>
      conditionKeys.map fun (key, key') =>
        ⟨[.key "unhealthyConditions", .index old, .key key],
          [.key "checks", .key "unhealthyNodeConditions", .index new, .key key']⟩
  | _ => []

/-- The threshold moves where there is none. -/
def thresholdMoves (spec : Mapping) : List Move :=
  if spec.contains "maxUnhealthy" &&
      !((spec.child "remediation").child "triggerIf").contains "unhealthyLessThanOrEqualTo" then
    [⟨[.key "maxUnhealthy"],
      [.key "remediation", .key "triggerIf", .key "unhealthyLessThanOrEqualTo"]⟩]
  else []

/-- The fields of the template move that the reference lacks. -/
def templateMoves (spec : Mapping) : List Move :=
  match spec.get? "remediationTemplate" with
  | some (.mapping template) =>
    (templateKeys.filter fun key => template.contains key &&
        !((spec.child "remediation").child "templateRef").contains key).map fun key =>
      ⟨[.key "remediationTemplate", .key key], [.key "remediation", .key "templateRef", .key key]⟩
  | _ => []

def specMoves (spec : Mapping) : List Move :=
  timeoutMoves spec ++ conditionMoves spec ++ thresholdMoves spec ++ templateMoves spec

def moves (m : Mapping) : List Move :=
  match spec? m with
  | some spec => (specMoves spec).map (.below (.key "spec"))
  | none => []

theorem mem_timeoutMoves {move : Move} :
    move ∈ timeoutMoves spec ↔ (∃ timeout, spec.get? "nodeStartupTimeout" = some timeout) ∧
      move = ⟨[.key "nodeStartupTimeout"], [.key "checks", .key "nodeStartupTimeoutSeconds"]⟩ := by
  unfold timeoutMoves
  rw [← Dict.contains_eq_true_iff]
  split
  · next there => simp [there]
  · next absent => simp [absent]

theorem mem_conditionMoves {move : Move} :
    move ∈ conditionMoves spec ↔ ∃ conditions,
      spec.get? "unhealthyConditions" = some (.sequence conditions) ∧
        ∃ condition old new, (keptConditions conditions)[new]? = some (condition, old) ∧
          ∃ key key', (key, key') ∈ conditionKeys ∧
            move = ⟨[.key "unhealthyConditions", .index old, .key key],
              [.key "checks", .key "unhealthyNodeConditions", .index new, .key key']⟩ := by
  unfold conditionMoves
  split
  · next conditions found =>
      simp only [found, List.mem_flatMap, List.mem_map, Prod.exists, List.mem_zipIdx_iff_getElem?,
        Option.some.injEq, Node.sequence.injEq, exists_eq_left', eq_comm]
  · next other =>
      refine iff_of_false List.not_mem_nil ?_
      rintro ⟨conditions, found, -⟩
      exact other conditions found

theorem mem_thresholdMoves {move : Move} :
    move ∈ thresholdMoves spec ↔ (∃ threshold, spec.get? "maxUnhealthy" = some threshold) ∧
      ((spec.child "remediation").child "triggerIf").get? "unhealthyLessThanOrEqualTo" = none ∧
        move = ⟨[.key "maxUnhealthy"],
          [.key "remediation", .key "triggerIf", .key "unhealthyLessThanOrEqualTo"]⟩ := by
  unfold thresholdMoves
  rw [← Dict.contains_eq_true_iff, ← Dict.contains_eq_false_iff]
  split
  · next free =>
      obtain ⟨there, free⟩ := (Bool.and_eq_true _ _).mp free
      simp only [Bool.not_eq_true'] at free
      simp [there, free]
  · next taken =>
      simp only [Bool.and_eq_true, Bool.not_eq_true', not_and] at taken
      simp only [List.not_mem_nil, false_iff, not_and]
      exact fun there free => absurd free (taken there)

theorem mem_templateMoves {move : Move} :
    move ∈ templateMoves spec ↔ ∃ template,
      spec.get? "remediationTemplate" = some (.mapping template) ∧
        ∃ key ∈ templateKeys, (∃ value, template.get? key = some value) ∧
          ((spec.child "remediation").child "templateRef").get? key = none ∧
            move = ⟨[.key "remediationTemplate", .key key],
              [.key "remediation", .key "templateRef", .key key]⟩ := by
  unfold templateMoves
  split
  · next template found =>
      simp only [found, List.mem_map, List.mem_filter, Bool.and_eq_true, Bool.not_eq_true',
        Dict.contains_eq_true_iff, Dict.contains_eq_false_iff, Option.some.injEq,
        Node.mapping.injEq, exists_eq_left', and_assoc, eq_comm (a := move)]
  · next other =>
      refine iff_of_false List.not_mem_nil ?_
      rintro ⟨template, found, -⟩
      exact other template found

theorem mem_specMoves {move : Move} :
    move ∈ specMoves spec ↔ move ∈ timeoutMoves spec ∨ move ∈ conditionMoves spec ∨
      move ∈ thresholdMoves spec ∨ move ∈ templateMoves spec := by
  simp only [specMoves, List.mem_append, or_assoc]

theorem specMoves_down : ∀ move ∈ specMoves spec, move.source.length < move.target.length := by
  intro move member
  rcases mem_specMoves.mp member with inTimeout | inConditions | inThreshold | inTemplate
  · obtain ⟨-, rfl⟩ := mem_timeoutMoves.mp inTimeout
    decide
  · obtain ⟨conditions, -, condition, old, new, -, key, key', -, rfl⟩ :=
      mem_conditionMoves.mp inConditions
    exact Nat.lt_succ_self 3
  · obtain ⟨-, -, rfl⟩ := mem_thresholdMoves.mp inThreshold
    decide
  · obtain ⟨template, -, key, -, -, -, rfl⟩ := mem_templateMoves.mp inTemplate
    exact Nat.lt_succ_self 2

/-! ## Converted values -/

theorem liesAt_of_inSeconds {value : Node} (lies : e.LiesAt (inSeconds value) path) :
    e.LiesAt value path := by
  unfold inSeconds at lies
  split at lies
  · exact absurd lies ShapeError.not_liesAt_scalar
  · exact lies

/-- A converted condition has no other fields than those of `conditionKeys`, and under each of them
    lies what lay in the condition. -/
theorem liesAt_conditionFields {condition : Mapping} (named : e.key ∈ ArgumentList.keys)
    (lies : e.LiesAt (.mapping (conditionFields condition)) path) :
    ∃ key key' rest, (key, key') ∈ conditionKeys ∧ path = .key key' :: rest ∧
      e.LiesAt (.mapping condition) (.key key :: rest) := by
  rcases lies.exists_key with rfl | ⟨other, rest, rfl⟩
  · obtain ⟨leaf, found, -⟩ := ShapeError.liesAt_nil.mp lies
    rw [get?_conditionFields, if_neg (e.key_ne named (by decide)),
      if_neg (e.key_ne named (by decide)), if_neg (e.key_ne named (by decide))] at found
    cases found
  · obtain ⟨value, found, inside⟩ := ShapeError.liesAt_key.mp lies
    rw [get?_conditionFields] at found
    split at found
    · next isTimeout =>
        unfold timeoutSeconds? at found
        split at found
        · cases found
        · next timeout stored =>
            split at found
            · cases found
            · cases found
              exact ⟨"timeout", other, rest, by simp [isTimeout, conditionKeys], rfl,
                ShapeError.liesAt_key.mpr ⟨timeout, stored, liesAt_of_inSeconds inside⟩⟩
    · split at found
      · next isStatus =>
          exact ⟨"status", other, rest, by simp [isStatus, conditionKeys], rfl,
            ShapeError.liesAt_key.mpr ⟨value, found, inside⟩⟩
      · split at found
        · next isType =>
            exact ⟨"type", other, rest, by simp [isType, conditionKeys], rfl,
              ShapeError.liesAt_key.mpr ⟨value, found, inside⟩⟩
        · cases found

/-- The converted conditions are the kept ones, in their order. -/
theorem filterMap_convertCondition? (conditions : List Node) :
    conditions.filterMap convertCondition? =
      (keptConditions conditions).filterMap fun entry => convertCondition? entry.1 := by
  have whole : conditions.zipIdx.map (·.1) = conditions := List.zipIdx_map_fst 0 conditions
  calc
    conditions.filterMap convertCondition?
      = (conditions.zipIdx.map (·.1)).filterMap convertCondition? := by rw [whole]
    _ = conditions.zipIdx.filterMap fun entry => convertCondition? entry.1 := by
        rw [List.filterMap_map]
        rfl
    _ = (keptConditions conditions).filterMap fun entry => convertCondition? entry.1 := by
        rw [keptConditions, List.filterMap_filter]
        refine List.filterMap_congr fun entry _ => ?_
        cases convertCondition? entry.1 <;> rfl

theorem getElem?_filterMap_of_isSome {α β : Type} {f : α → Option β} {xs : List α}
    (all : ∀ x ∈ xs, (f x).isSome) (i : Nat) : (xs.filterMap f)[i]? = xs[i]?.bind f := by
  induction xs generalizing i with
  | nil => rfl
  | cons x rest ih =>
      obtain ⟨first, others⟩ := List.forall_mem_cons.mp all
      obtain ⟨y, done⟩ := Option.isSome_iff_exists.mp first
      rw [List.filterMap_cons_some done]
      cases i with
      | zero => simp [done]
      | succ i => simpa using ih others i

/-- A converted condition comes from the kept one with its index. -/
theorem getElem?_converted {conditions : List Node} {new : Nat} {converted : Node}
    (found : (conditions.filterMap convertCondition?)[new]? = some converted) :
    ∃ fields old, (keptConditions conditions)[new]? = some (.mapping fields, old) ∧
      converted = .mapping (conditionFields fields) := by
  have all : ∀ entry ∈ keptConditions conditions, (convertCondition? entry.1).isSome :=
    fun entry member => (List.mem_filter.mp member).2
  rw [filterMap_convertCondition?, getElem?_filterMap_of_isSome all] at found
  obtain ⟨⟨condition, old⟩, kept, done⟩ := Option.bind_eq_some_iff.mp found
  obtain ⟨fields, rfl, rfl⟩ := convertCondition?_eq_some done
  exact ⟨fields, old, kept, rfl⟩

theorem getElem?_of_kept {conditions : List Node} {new old : Nat} {condition : Node}
    (kept : (keptConditions conditions)[new]? = some (condition, old)) :
    conditions[old]? = some condition :=
  List.mem_zipIdx_iff_getElem?.mp (List.mem_of_mem_filter (List.mem_of_getElem? kept))

/-- What lies in the converted conditions lay in the conditions, in the fields that they keep. -/
theorem liesAt_converted {conditions : List Node} (named : e.key ∈ ArgumentList.keys)
    (lies : e.LiesAt (.sequence (conditions.filterMap convertCondition?)) path) :
    ∃ condition old new key key' rest, (keptConditions conditions)[new]? = some (condition, old) ∧
      (key, key') ∈ conditionKeys ∧ path = .index new :: .key key' :: rest ∧
        e.LiesAt (.sequence conditions) (.index old :: .key key :: rest) := by
  obtain ⟨new, below, rfl⟩ := lies.exists_index
  obtain ⟨converted, found, insideItem⟩ := ShapeError.liesAt_index.mp lies
  obtain ⟨fields, old, kept, rfl⟩ := getElem?_converted found
  obtain ⟨key, key', rest, pair, rfl, inside⟩ := liesAt_conditionFields named insideItem
  exact ⟨_, old, new, key, key', rest, kept, pair, rfl,
    ShapeError.liesAt_index.mpr ⟨_, getElem?_of_kept kept, inside⟩⟩

/-! ## What has moved -/

theorem liesAt_of_timeout {timeout : Node} (found : spec.get? "nodeStartupTimeout" = some timeout)
    (lies : e.LiesAt (.mapping (moved spec))
      ([.key "checks", .key "nodeStartupTimeoutSeconds"] ++ rest)) :
    e.LiesAt (.mapping spec) ([.key "nodeStartupTimeout"] ++ rest) := by
  have inside : (newChecks spec).get? "nodeStartupTimeoutSeconds" = some (inSeconds timeout) := by
    simp [get?_newChecks, found]
  have inChecks := (ShapeError.liesAt_key_of_get? (get?_checks_moved_of_get? inside)).mp lies
  have below := (ShapeError.liesAt_key_of_get? inside).mp inChecks
  exact (ShapeError.liesAt_key_of_get? found).mpr (liesAt_of_inSeconds below)

theorem liesAt_of_condition (named : e.key ∈ ArgumentList.keys) {conditions : List Node}
    {condition : Node} {old new : Nat} {key key' : String}
    (found : spec.get? "unhealthyConditions" = some (.sequence conditions))
    (kept : (keptConditions conditions)[new]? = some (condition, old))
    (pair : (key, key') ∈ conditionKeys)
    (lies : e.LiesAt (.mapping (moved spec))
      ([.key "checks", .key "unhealthyNodeConditions", .index new, .key key'] ++ rest)) :
    e.LiesAt (.mapping spec) ([.key "unhealthyConditions", .index old, .key key] ++ rest) := by
  have inside : (newChecks spec).get? "unhealthyNodeConditions" =
      some (.sequence (conditions.filterMap convertCondition?)) := by
    have converts := (List.mem_filter.mp (List.mem_of_getElem? kept)).2
    have member := List.mem_of_getElem? (getElem?_of_kept kept)
    simp [get?_newChecks, newConditions?_of_mem found member converts]
  have inChecks := (ShapeError.liesAt_key_of_get? (get?_checks_moved_of_get? inside)).mp lies
  have below := (ShapeError.liesAt_key_of_get? inside).mp inChecks
  obtain ⟨condition', old', new', other, other', rest', kept', pair', same, lay⟩ :=
    liesAt_converted named below
  cases same
  cases kept.symm.trans kept'
  -- No two fields of a condition have one new key.
  obtain rfl : key = other := by
    simp only [conditionKeys, List.mem_cons, Prod.mk.injEq, List.not_mem_nil, or_false]
      at pair pair'
    rcases pair with ⟨rfl, rfl⟩ | ⟨rfl, rfl⟩ | ⟨rfl, rfl⟩ <;> simpa [eq_comm] using pair'
  exact (ShapeError.liesAt_key_of_get? found).mpr lay

theorem liesAt_of_threshold {threshold : Node} (found : spec.get? "maxUnhealthy" = some threshold)
    (free : ((spec.child "remediation").child "triggerIf").get? "unhealthyLessThanOrEqualTo" = none)
    (lies : e.LiesAt (.mapping (moved spec))
      ([.key "remediation", .key "triggerIf", .key "unhealthyLessThanOrEqualTo"] ++ rest)) :
    e.LiesAt (.mapping spec) ([.key "maxUnhealthy"] ++ rest) := by
  have inside : (newRemediation spec).get? "triggerIf" = some (.mapping
      (insertNew "unhealthyLessThanOrEqualTo" threshold
        ((spec.child "remediation").child "triggerIf"))) := by
    rw [get?_triggerIf_newRemediation, found]
    exact Dict.get?_insert_self _ _ _
  have inRemediation :=
    (ShapeError.liesAt_key_of_get? (get?_remediation_moved_of_get? inside)).mp lies
  have inTrigger := (ShapeError.liesAt_key_of_get? inside).mp inRemediation
  obtain ⟨value, stored, below⟩ := ShapeError.liesAt_key.mp inTrigger
  rw [get?_insertNew, if_pos rfl, free] at stored
  cases stored
  exact (ShapeError.liesAt_key_of_get? found).mpr below

theorem liesAt_of_template {template : Mapping} {key : String}
    (found : spec.get? "remediationTemplate" = some (.mapping template))
    (free : ((spec.child "remediation").child "templateRef").get? key = none)
    (lies : e.LiesAt (.mapping (moved spec))
      ([.key "remediation", .key "templateRef", .key key] ++ rest)) :
    e.LiesAt (.mapping spec) ([.key "remediationTemplate", .key key] ++ rest) := by
  have inside : (newRemediation spec).get? "templateRef" = some (.mapping
      (fillFrom template templateKeys ((spec.child "remediation").child "templateRef"))) := by
    rw [get?_templateRef_newRemediation, found]
    exact Dict.get?_insert_self _ _ _
  have inRemediation :=
    (ShapeError.liesAt_key_of_get? (get?_remediation_moved_of_get? inside)).mp lies
  have inReference := (ShapeError.liesAt_key_of_get? inside).mp inRemediation
  obtain ⟨value, stored, below⟩ := ShapeError.liesAt_key.mp inReference
  rw [get?_fillFrom, free, Option.none_or] at stored
  split at stored
  · refine (ShapeError.liesAt_key_of_get? found).mpr ?_
    exact (ShapeError.liesAt_key_of_get? stored).mpr below
  · cases stored

/-! ## What has stayed -/

theorem liesAt_of_stayed_checks (named : e.key ∈ ArgumentList.keys)
    (lies : e.LiesAt (.mapping (newChecks spec)) rest)
    (apart : ∀ move ∈ specMoves spec, ¬ move.target <+: .key "checks" :: rest) :
    e.LiesAt (.mapping spec) (.key "checks" :: rest) := by
  refine ShapeError.LiesAt.of_child ?_
  rcases lies.exists_key with rfl | ⟨other, below, rfl⟩
  · rwa [ShapeError.liesAt_nil, get?_newChecks, if_neg (e.key_ne named (by decide)),
      if_neg (e.key_ne named (by decide)), ← ShapeError.liesAt_nil] at lies
  · obtain ⟨value, stored, inside⟩ := ShapeError.liesAt_key.mp lies
    refine ShapeError.liesAt_key.mpr ⟨value, ?_, inside⟩
    rw [get?_newChecks] at stored
    split at stored
    · next isConditions =>
        subst isConditions
        cases made : newConditions? spec with
        | none => rwa [made, Option.none_or] at stored
        | some conditions =>
            obtain ⟨items, found, rfl⟩ := newConditions?_eq_some made
            rw [made] at stored
            cases stored
            obtain ⟨condition, old, new, key, key', rest, kept, pair, rfl, -⟩ :=
              liesAt_converted named inside
            have moves := mem_conditionMoves.mpr
              ⟨items, found, condition, old, new, kept, key, key', pair, rfl⟩
            exact absurd (List.prefix_append _ rest)
              (apart _ (mem_specMoves.mpr (.inr (.inl moves))))
    · split at stored
      · next isTimeout =>
          subst isTimeout
          cases found : spec.get? "nodeStartupTimeout" with
          | none => rwa [found, Option.map_none, Option.none_or] at stored
          | some timeout =>
              have moves := mem_timeoutMoves.mpr ⟨⟨timeout, found⟩, rfl⟩
              exact absurd (List.prefix_append _ below) (apart _ (mem_specMoves.mpr (.inl moves)))
      · exact stored

theorem liesAt_of_stayed_triggerIf (named : e.key ∈ ArgumentList.keys)
    (lies : e.LiesAt (.mapping (newRemediation spec)) (.key "triggerIf" :: rest))
    (apart : ∀ move ∈ specMoves spec,
      ¬ move.target <+: .key "remediation" :: .key "triggerIf" :: rest) :
    e.LiesAt (.mapping (spec.child "remediation")) (.key "triggerIf" :: rest) := by
  obtain ⟨trigger, stored, inside⟩ := ShapeError.liesAt_key.mp lies
  rw [get?_triggerIf_newRemediation] at stored
  cases found : spec.get? "maxUnhealthy" with
  | none =>
      rw [found] at stored
      exact ShapeError.liesAt_key.mpr ⟨trigger, stored, inside⟩
  | some threshold =>
      rw [found] at stored
      cases (Dict.get?_insert_self _ _ _).symm.trans stored
      refine ShapeError.LiesAt.of_child ?_
      rcases inside.exists_key with rfl | ⟨other, below, rfl⟩
      · rwa [ShapeError.liesAt_nil, get?_insertNew, if_neg (e.key_ne named (by decide)),
          ← ShapeError.liesAt_nil] at inside
      · obtain ⟨value, stored, inside⟩ := ShapeError.liesAt_key.mp inside
        refine ShapeError.liesAt_key.mpr ⟨value, ?_, inside⟩
        rw [get?_insertNew] at stored
        split at stored
        · next isThreshold =>
            subst isThreshold
            cases free : ((spec.child "remediation").child "triggerIf").get?
                "unhealthyLessThanOrEqualTo" with
            | some old => rwa [free] at stored
            | none =>
                have moves := mem_thresholdMoves.mpr ⟨⟨threshold, found⟩, free, rfl⟩
                exact absurd (List.prefix_append _ below)
                  (apart _ (mem_specMoves.mpr (.inr (.inr (.inl moves)))))
        · exact stored

theorem liesAt_of_stayed_templateRef (named : e.key ∈ ArgumentList.keys)
    (lies : e.LiesAt (.mapping (newRemediation spec)) (.key "templateRef" :: rest))
    (apart : ∀ move ∈ specMoves spec,
      ¬ move.target <+: .key "remediation" :: .key "templateRef" :: rest) :
    e.LiesAt (.mapping (spec.child "remediation")) (.key "templateRef" :: rest) := by
  obtain ⟨reference, stored, inside⟩ := ShapeError.liesAt_key.mp lies
  rw [get?_templateRef_newRemediation] at stored
  unfold withTemplate at stored
  split at stored
  · next template found =>
      cases (Dict.get?_insert_self _ _ _).symm.trans stored
      refine ShapeError.LiesAt.of_child ?_
      rcases inside.exists_key with rfl | ⟨other, below, rfl⟩
      · have outside : e.key ∉ templateKeys := by
          intro member
          revert named member
          generalize e.key = key
          simp only [ArgumentList.keys, Rule.triggers, templateKeys, List.mem_cons,
            List.not_mem_nil, or_false]
          rintro (rfl | rfl) <;> decide
        rwa [ShapeError.liesAt_nil, get?_fillFrom, if_neg outside, Option.or_none,
          ← ShapeError.liesAt_nil] at inside
      · obtain ⟨value, stored, inside⟩ := ShapeError.liesAt_key.mp inside
        refine ShapeError.liesAt_key.mpr ⟨value, ?_, inside⟩
        rw [get?_fillFrom] at stored
        cases free : ((spec.child "remediation").child "templateRef").get? other with
        | some old => rwa [free, Option.some_or] at stored
        | none =>
            rw [free, Option.none_or] at stored
            split at stored
            · next member =>
                have moves := mem_templateMoves.mpr
                  ⟨template, found, other, member, ⟨value, stored⟩, free, rfl⟩
                exact absurd (List.prefix_append _ below)
                  (apart _ (mem_specMoves.mpr (.inr (.inr (.inr moves)))))
            · cases stored
  · exact ShapeError.liesAt_key.mpr ⟨reference, stored, inside⟩

theorem liesAt_of_stayed_remediation (named : e.key ∈ ArgumentList.keys)
    (lies : e.LiesAt (.mapping (newRemediation spec)) rest)
    (apart : ∀ move ∈ specMoves spec, ¬ move.target <+: .key "remediation" :: rest) :
    e.LiesAt (.mapping spec) (.key "remediation" :: rest) := by
  refine ShapeError.LiesAt.of_child ?_
  rcases lies.exists_key with rfl | ⟨other, below, rfl⟩
  · rwa [ShapeError.liesAt_nil, get?_newRemediation_of_ne (e.key_ne named (by decide))
      (e.key_ne named (by decide)), ← ShapeError.liesAt_nil] at lies
  · by_cases isTrigger : other = "triggerIf"
    · subst isTrigger
      exact liesAt_of_stayed_triggerIf named lies apart
    · by_cases isTemplate : other = "templateRef"
      · subst isTemplate
        exact liesAt_of_stayed_templateRef named lies apart
      · obtain ⟨value, stored, inside⟩ := ShapeError.liesAt_key.mp lies
        rw [get?_newRemediation_of_ne isTrigger isTemplate] at stored
        exact ShapeError.liesAt_key.mpr ⟨value, stored, inside⟩

theorem liesAt_of_stayed (keyed : spec.WellKeyed) (named : e.key ∈ ArgumentList.keys)
    (lies : e.LiesAt (.mapping (moved spec)) path)
    (apart : ∀ move ∈ specMoves spec, ¬ move.target <+: path) : e.LiesAt (.mapping spec) path := by
  have untouched : ∀ key ∈ touchedKeys, e.key ≠ key := by
    intro key member
    refine e.key_ne named fun argument => ?_
    revert member argument
    simp only [ArgumentList.keys, Rule.triggers, List.mem_cons, List.not_mem_nil, or_false]
    rintro touched (rfl | rfl) <;> revert touched <;> decide
  rcases lies.exists_key with rfl | ⟨other, below, rfl⟩
  · have outside : e.key ∉ touchedKeys := fun member => untouched _ member rfl
    rwa [ShapeError.liesAt_nil, get?_moved_of_notMem outside, ← ShapeError.liesAt_nil] at lies
  · obtain ⟨value, stored, inside⟩ := ShapeError.liesAt_key.mp lies
    by_cases touched : other ∈ touchedKeys
    · simp only [touchedKeys, List.mem_append, List.mem_cons, List.not_mem_nil, or_false] at touched
      rcases touched with legacy | rfl | rfl
      · cases stored.symm.trans (get?_moved_of_legacy keyed legacy)
      · rw [get?_checks_moved] at stored
        split at stored
        · cases stored
          exact liesAt_of_stayed_checks named inside apart
        · exact ShapeError.liesAt_key.mpr ⟨value, stored, inside⟩
      · rw [get?_remediation_moved] at stored
        split at stored
        · cases stored
          exact liesAt_of_stayed_remediation named inside apart
        · exact ShapeError.liesAt_key.mpr ⟨value, stored, inside⟩
    · rw [get?_moved_of_notMem touched] at stored
      exact ShapeError.liesAt_key.mpr ⟨value, stored, inside⟩

/-! ## The rule -/

theorem liesAt_undo_specMoves (keyed : spec.WellKeyed) (named : e.key ∈ ArgumentList.keys)
    (lies : e.LiesAt (.mapping (moved spec)) path) :
    e.LiesAt (.mapping spec) (Move.undo (specMoves spec) path) := by
  refine Move.undo_induction ?_ fun apart => liesAt_of_stayed keyed named lies apart
  rintro move member rest rfl
  rcases mem_specMoves.mp member with inTimeout | inConditions | inThreshold | inTemplate
  · obtain ⟨⟨timeout, found⟩, rfl⟩ := mem_timeoutMoves.mp inTimeout
    exact liesAt_of_timeout found lies
  · obtain ⟨conditions, found, condition, old, new, kept, key, key', pair, rfl⟩ :=
      mem_conditionMoves.mp inConditions
    exact liesAt_of_condition named found kept pair lies
  · obtain ⟨⟨threshold, found⟩, free, rfl⟩ := mem_thresholdMoves.mp inThreshold
    exact liesAt_of_threshold found free lies
  · obtain ⟨template, found, key, -, -, free, rfl⟩ := mem_templateMoves.mp inTemplate
    exact liesAt_of_template found free lies

theorem liesAt_undo_moves (keyed : m.WellKeyed) (named : e.key ∈ ArgumentList.keys)
    (lies : e.LiesAt (.mapping (restructure m).1) path) :
    e.LiesAt (.mapping m) (Move.undo (moves m) path) := by
  cases found : spec? m with
  | none =>
      rw [restructure_of_no_spec found] at lies
      rwa [moves, found]
  | some spec =>
      have stored := (spec?_eq_some_iff.mp found).2
      rw [restructure_of_spec? found] at lies
      rw [moves, found]
      rcases lies.of_insert (e.key_ne named (by decide)) with ⟨rest, rfl, inside⟩ | ⟨other, before⟩
      · rw [Move.undo_below]
        exact ShapeError.liesAt_key.mpr
          ⟨_, stored, liesAt_undo_specMoves (keyed.of_get? stored) named inside⟩
      · rwa [Move.undo_below_of_ne other]

end ManifestMigration.HealthCheck
