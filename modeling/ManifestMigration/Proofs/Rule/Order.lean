import ManifestMigration.Proofs.Rule.Settled

/-! # Rules in any order

Two steps commute when it does not matter which of them comes first: the same mapping is left, or
the same refusal ends both sequences. Steps that commute and settle their parts may then be run in
any order and any number of times. The rules are such steps. Each looks at a few fields and changes
no other, most have their fields for themselves, and of the two that share a field one does nothing.
-/

namespace ManifestMigration

namespace Revision

variable {ι : Type} {step : ι → Mapping → Revision} {m : Mapping}

/-- The mapping that a revision leaves and whether it changed something, unless it refuses. -/
def result (r : Revision) : Except ShapeError (Mapping × Bool) := r.outcome.map (r.left, ·)

theorem result_of_ok {r : Revision} {changed : Bool} (done : r.outcome = .ok changed) :
    r.result = .ok (r.left, changed) := by
  rw [result, done]
  rfl

theorem result_of_error {r : Revision} {e : ShapeError} (refused : r.outcome = .error e) :
    r.result = .error e := by
  rw [result, refused]
  rfl

theorem result_eq_ok_iff {r : Revision} {left : Mapping} {changed : Bool} :
    r.result = .ok (left, changed) ↔ r.outcome = .ok changed ∧ r.left = left := by
  cases outcome : r.outcome with
  | error e => simp [result_of_error outcome]
  | ok b => simp [result_of_ok outcome, and_comm]

theorem result_eq_error_iff {r : Revision} {e : ShapeError} :
    r.result = .error e ↔ r.outcome = .error e := by
  cases outcome : r.outcome with
  | error e' => simp [result_of_error outcome]
  | ok b => simp [result_of_ok outcome]

/-- What a revision goes on with matters only where it gets to. -/
theorem result_andThen_congr {r : Revision} {f g : Mapping → Revision}
    (same : (f r.left).result = (g r.left).result) :
    (r.andThen f).result = (r.andThen g).result := by
  cases outcome : r.outcome with
  | error e => rw [andThen_of_error outcome, andThen_of_error outcome]
  | ok b =>
      rw [andThen_of_ok outcome, andThen_of_ok outcome]
      cases first : (f r.left).outcome with
      | error e =>
          rw [result_of_error first] at same
          have second := result_eq_error_iff.mp same.symm
          simp only [result, second, Except.map]
      | ok c =>
          rw [result_of_ok first] at same
          obtain ⟨second, left⟩ := result_eq_ok_iff.mp same.symm
          simp only [result, second, Except.map, left]

/-- Of a first part only its result matters. -/
theorem result_andThen_congr_left {r s : Revision} (same : r.result = s.result)
    (f : Mapping → Revision) : (r.andThen f).result = (s.andThen f).result := by
  cases outcome : r.outcome with
  | error e =>
      rw [result_of_error outcome] at same
      have refused := result_eq_error_iff.mp same.symm
      rw [andThen_of_error outcome, andThen_of_error refused]
      rfl
  | ok b =>
      rw [result_of_ok outcome] at same
      obtain ⟨done, left⟩ := result_eq_ok_iff.mp same.symm
      rw [andThen_of_ok outcome, andThen_of_ok done, left]

theorem andThen_assoc (r : Revision) (f g : Mapping → Revision) :
    (r.andThen f).andThen g = r.andThen fun left => (f left).andThen g := by
  cases first : r.outcome with
  | error e =>
      rw [andThen_of_error first, andThen_of_error first]
      rfl
  | ok b =>
      rw [andThen_of_ok first, andThen_of_ok first]
      cases second : (f r.left).outcome with
      | error e => simp only [andThen, second, Except.map]
      | ok c =>
          simp only [andThen, second, Except.map]
          cases (g (f r.left).left).outcome <;> simp only [Bool.or_assoc]

/-- It does not matter which of two steps comes first. -/
def Commute (first second : Mapping → Revision) (m : Mapping) : Prop :=
  ((first m).andThen second).result = ((second m).andThen first).result

theorem Commute.symm {first second : Mapping → Revision} (commute : Commute first second m) :
    Commute second first m :=
  Eq.symm commute

namespace Settling

variable {Good : Mapping → Prop} {Settled : ι → Mapping → Prop} {steps steps' : List ι}
  (settling : Settling Good step Settled)

include settling

/-- A step that is settled commutes with every other one. -/
theorem commute_of_settled {i j : ι} (settled : Settled j m) : Commute (step i) (step j) m := by
  have after : step j (step i m).left = .unchanged (step i m).left :=
    settling.still (settling.keeps_all settled)
  rw [Commute, settling.still settled, unchanged_andThen]
  cases outcome : (step i m).outcome with
  | error e => rw [andThen_of_error outcome, result_of_error rfl, result_of_error outcome]
  | ok b =>
      rw [andThen_of_ok outcome, after, result_of_ok outcome]
      simp [result, unchanged, Except.map]

/-- The second of two same steps does nothing. -/
theorem result_twice (good : Good m) (i : ι) :
    ((step i m).andThen (step i)).result = (step i m).result := by
  cases outcome : (step i m).outcome with
  | error e => rw [andThen_of_error outcome, result_of_error rfl, result_of_error outcome]
  | ok b =>
      rw [andThen_of_ok outcome, settling.still (settling.settles good outcome),
        result_of_ok outcome]
      simp [result, unchanged, Except.map]

variable (commute : ∀ {i j m}, Good m → Commute (step i) (step j) m)

include commute

theorem result_run_perm (good : Good m) (perm : steps.Perm steps') :
    (run step steps m).result = (run step steps' m).result := by
  induction perm generalizing m with
  | nil => rfl
  | cons i _ ih => exact result_andThen_congr (ih (settling.good good))
  | swap i j rest =>
      have pair := result_andThen_congr_left (commute (i := j) (j := i) good) (run step rest)
      rwa [andThen_assoc, andThen_assoc] at pair
  | trans _ _ ih ih' => exact (ih good).trans (ih' good)

/-- A step that comes later may as well not come now. -/
theorem result_run_cons_of_mem (good : Good m) {i : ι} (member : i ∈ steps) :
    (run step (i :: steps) m).result = (run step steps m).result := by
  obtain ⟨before, after, rfl⟩ := List.append_of_mem member
  have front : (before ++ i :: after).Perm (i :: (before ++ after)) := List.perm_middle
  calc
    (run step (i :: (before ++ i :: after)) m).result
      = (run step (i :: i :: (before ++ after)) m).result :=
        settling.result_run_perm commute good (front.cons i)
    _ = (((step i m).andThen (step i)).andThen (run step (before ++ after))).result := by
        rw [andThen_assoc]
        rfl
    _ = ((step i m).andThen (run step (before ++ after))).result :=
        result_andThen_congr_left (settling.result_twice good i) _
    _ = (run step (before ++ i :: after) m).result :=
        settling.result_run_perm commute good front.symm

theorem result_run_append_of_subset (good : Good m) (subset : steps ⊆ steps') :
    (run step (steps ++ steps') m).result = (run step steps' m).result := by
  induction steps with
  | nil => rfl
  | cons i rest ih =>
      obtain ⟨member, subsetRest⟩ := List.cons_subset.mp subset
      rw [List.cons_append, settling.result_run_cons_of_mem commute good
        (List.mem_append_right rest member)]
      exact ih subsetRest

/-- Neither the order of steps nor how often they come matters. -/
theorem result_run_of_same (good : Good m) (same : ∀ i, i ∈ steps ↔ i ∈ steps') :
    (run step steps m).result = (run step steps' m).result := by
  calc
    (run step steps m).result = (run step (steps' ++ steps) m).result :=
      (settling.result_run_append_of_subset commute good fun i => (same i).mpr).symm
    _ = (run step (steps ++ steps') m).result :=
      settling.result_run_perm commute good List.perm_append_comm
    _ = (run step steps' m).result :=
      settling.result_run_append_of_subset commute good fun i => (same i).mp

end Settling

/-- Steps that look at one key each do the same to mappings that agree on the keys. -/
theorem run_congr {step : String → Mapping → Revision} {keys all : List String} {m' : Mapping}
    (frame : ∀ {key other m}, other ≠ key → (step key m).left.get? other = m.get? other)
    (focus : ∀ {key m m'}, m'.get? key = m.get? key →
      (step key m').outcome = (step key m).outcome ∧
        (step key m').left.get? key = (step key m).left.get? key)
    (among : keys ⊆ all) (same : ∀ key ∈ all, m'.get? key = m.get? key) :
    (run step keys m').outcome = (run step keys m).outcome ∧
      ∀ key ∈ all, (run step keys m').left.get? key = (run step keys m).left.get? key := by
  induction keys generalizing m m' with
  | nil => exact ⟨rfl, same⟩
  | cons key rest ih =>
      obtain ⟨member, amongRest⟩ := List.cons_subset.mp among
      obtain ⟨outcomes, stored⟩ := focus (same key member)
      have lefts : ∀ other ∈ all, (step key m').left.get? other = (step key m).left.get? other := by
        intro other otherMember
        by_cases here : other = key
        · exact here ▸ stored
        · rw [frame here, frame here]
          exact same other otherMember
      cases outcome : (step key m).outcome with
      | error e =>
          rw [run, run, andThen_of_error outcome, andThen_of_error (outcomes.trans outcome)]
          exact ⟨rfl, lefts⟩
      | ok b =>
          obtain ⟨restOutcomes, restLefts⟩ := ih amongRest lefts
          rw [run, run, andThen_of_ok outcome, andThen_of_ok (outcomes.trans outcome)]
          exact ⟨by rw [restOutcomes], restLefts⟩

/-- A run of steps that refuse nothing does to a key what the step of this key does. -/
theorem get?_left_run_of_mem {step : String → Mapping → Revision} {keys : List String}
    {key : String}
    (frame : ∀ {key other m}, other ≠ key → (step key m).left.get? other = m.get? other)
    (focus : ∀ {m m' : Mapping}, m'.get? key = m.get? key →
      (step key m').left.get? key = (step key m).left.get? key)
    (accepts : ∀ key m, ∃ changed, (step key m).outcome = .ok changed) (distinct : keys.Nodup)
    (member : key ∈ keys) : (run step keys m).left.get? key = (step key m).left.get? key := by
  induction keys generalizing m with
  | nil => cases member
  | cons first rest ih =>
      obtain ⟨fresh, distinctRest⟩ := List.nodup_cons.mp distinct
      obtain ⟨changed, done⟩ := accepts first m
      rw [run, andThen_of_ok done]
      rcases List.mem_cons.mp member with rfl | inRest
      · exact get?_left_run_of_notMem frame fresh
      · have differs : key ≠ first := fun same => fresh (same ▸ inRest)
        rw [ih distinctRest inRest]
        exact focus (frame differs)

/-- A run keeps the keys that its steps keep. -/
theorem keys_left_run {step : String → Mapping → Revision} {keys : List String}
    (kept : ∀ {key m}, (step key m).left.keys = m.keys) : (run step keys m).left.keys = m.keys :=
  run_invariant (P := fun m' => m'.keys = m.keys) (fun _ _ _ same => kept.trans same) rfl

end Revision

/-! ## Fields that decide -/

theorem Dict.keys_insert_of_get? {m : Mapping} {key : String} {old : Node} (value : Node)
    (found : m.get? key = some old) : (m.insert key value).keys = m.keys := by
  have member : key ∈ m.keys :=
    (Dict.contains_iff_mem_keys m key).mp (Dict.contains_eq_true_iff.mpr ⟨old, found⟩)
  rw [Dict.keys_insert, if_pos member]

section Fields

variable {key : String} {m m' : Mapping}

theorem ArgumentList.convertAt_congr (same : m'.get? key = m.get? key) :
    (convertAt key m').outcome = (convertAt key m).outcome ∧
      (convertAt key m').left.get? key = (convertAt key m).left.get? key := by
  unfold convertAt
  rw [same]
  cases m.get? key with
  | none => exact ⟨rfl, same⟩
  | some value =>
      cases value with
      | mapping arguments =>
          refine ⟨rfl, ?_⟩
          simp only [Dict.get?_insert_self]
      | sequence items => exact ⟨rfl, same⟩
      | scalar leaf => exact ⟨rfl, same⟩

theorem ArgumentList.keys_left_convertAt : (convertAt key m).left.keys = m.keys := by
  unfold convertAt
  split
  · rfl
  · next arguments found => exact Dict.keys_insert_of_get? _ found
  · rfl
  · rfl

theorem GroupReference.stepAt_congr (same : m'.get? key = m.get? key) :
    (stepAt key m').outcome = (stepAt key m).outcome ∧
      (stepAt key m').left.get? key = (stepAt key m).left.get? key := by
  unfold stepAt normalizeAt
  rw [same]
  cases m.get? key with
  | none => exact ⟨rfl, same⟩
  | some value =>
      cases value with
      | mapping reference =>
          refine ⟨rfl, ?_⟩
          simp only [Revision.settled, Dict.get?_insert_self]
      | sequence items => exact ⟨rfl, same⟩
      | scalar leaf => exact ⟨rfl, same⟩

theorem GroupReference.keys_left_stepAt : (stepAt key m).left.keys = m.keys := by
  unfold stepAt normalizeAt
  split
  · next reference found => exact Dict.keys_insert_of_get? _ found
  · rfl

theorem Endpoint.prune_congr (keyed : m.WellKeyed) (keyed' : m'.WellKeyed)
    (same : m'.get? Endpoint.key = m.get? Endpoint.key) :
    (prune m').2 = (prune m).2 ∧
      (prune m').1.get? Endpoint.key = (prune m).1.get? Endpoint.key := by
  have prunable : isPrunable m' = isPrunable m := by rw [isPrunable, same, isPrunable]
  unfold prune
  rw [prunable]
  split
  · exact ⟨rfl,
      (Dict.get?_erase_self keyed'.nodup _).trans (Dict.get?_erase_self keyed.nodup _).symm⟩
  · exact ⟨rfl, same⟩

theorem HealthCheck.restructure_congr (kind : m'.get? "kind" = m.get? "kind")
    (same : m'.get? "spec" = m.get? "spec") :
    (restructure m').2 = (restructure m).2 ∧
      (restructure m').1.get? "spec" = (restructure m).1.get? "spec" := by
  have specs : spec? m' = spec? m := by
    rw [spec?, Dict.hasKind_congr (Dict.string?_congr kind), same, spec?]
  cases found : spec? m with
  | none =>
      rw [restructure_of_no_spec found, restructure_of_no_spec (specs.trans found)]
      exact ⟨rfl, same⟩
  | some spec =>
      rw [restructure_of_spec? found, restructure_of_spec? (specs.trans found)]
      simp only [Dict.get?_insert_self, and_self]

theorem TemplateReference.move_congr (kind : m'.get? "kind" = m.get? "kind")
    (same : m'.get? "spec" = m.get? "spec") :
    (move m').2 = (move m).2 ∧ (move m').1.get? "spec" = (move m).1.get? "spec" := by
  have templates : template? m' = template? m := by
    rw [template?, Dict.hasKind_congr (Dict.string?_congr kind), same, template?]
  unfold move
  rw [templates]
  cases template? m with
  | none => exact ⟨rfl, same⟩
  | some parts =>
      cases moving : moveInTemplate? parts.2 with
      | none => simp [moving, same]
      | some moved => simp [moving]

end Fields

namespace Rule

variable {rule other : Rule} {m m' : Mapping}

/-- A rule does the same to mappings that agree on the fields that it looks at. -/
theorem apply_congr (keyed : m.WellKeyed) (keyed' : m'.WellKeyed)
    (same : ∀ key ∈ rule.reads, m'.get? key = m.get? key) :
    (rule.apply m').outcome = (rule.apply m).outcome ∧
      ∀ key ∈ rule.reads, (rule.apply m').left.get? key = (rule.apply m).left.get? key := by
  cases rule with
  | argumentList =>
      simp only [apply, ArgumentList.convert, ArgumentList.convertKeys_eq_run]
      exact Revision.run_congr ArgumentList.get?_left_convertAt_of_ne ArgumentList.convertAt_congr
        (List.Subset.refl _) same
  | groupReference =>
      have revised (m : Mapping) : apply .groupReference m = Revision.run _ _ m :=
        GroupReference.revise_eq_run m
      rw [revised, revised]
      exact Revision.run_congr GroupReference.get?_normalizeAt_of_ne GroupReference.stepAt_congr
        (List.Subset.refl _) same
  | emptyEndpoint =>
      obtain ⟨pruned, left⟩ := Endpoint.prune_congr keyed keyed' (same _ List.mem_cons_self)
      exact ⟨congrArg Except.ok pruned, List.forall_mem_singleton.mpr left⟩
  | healthCheck =>
      have kind := same "kind" (by decide)
      obtain ⟨moved, left⟩ := HealthCheck.restructure_congr kind (same "spec" (by decide))
      refine ⟨congrArg Except.ok moved,
        List.forall_mem_cons.mpr ⟨?_, List.forall_mem_singleton.mpr left⟩⟩
      simpa only [apply, Revision.settled,
        HealthCheck.get?_restructure_of_ne (show "kind" ≠ "spec" by decide)] using kind
  | templateReference =>
      have kind := same "kind" (by decide)
      obtain ⟨moved, left⟩ := TemplateReference.move_congr kind (same "spec" (by decide))
      refine ⟨congrArg Except.ok moved,
        List.forall_mem_cons.mpr ⟨?_, List.forall_mem_singleton.mpr left⟩⟩
      simpa only [apply, Revision.settled,
        TemplateReference.get?_move_of_ne (show "kind" ≠ "spec" by decide)] using kind

/-- A rule may take keys out of a mapping. It puts none in, and it moves none. -/
theorem keys_left_apply (rule : Rule) (m : Mapping) : (rule.apply m).left.keys.Sublist m.keys := by
  have of_eq : ∀ {m' : Mapping}, m'.keys = m.keys → m'.keys.Sublist m.keys := fun same =>
    same ▸ List.Sublist.refl _
  cases rule with
  | argumentList =>
      refine of_eq ?_
      simp only [apply, ArgumentList.convert, ArgumentList.convertKeys_eq_run]
      exact Revision.keys_left_run ArgumentList.keys_left_convertAt
  | groupReference =>
      refine of_eq ?_
      rw [show apply .groupReference m = Revision.run _ _ m from GroupReference.revise_eq_run m]
      exact Revision.keys_left_run GroupReference.keys_left_stepAt
  | emptyEndpoint =>
      simp only [apply, Revision.settled, Endpoint.prune]
      split
      · rw [Dict.keys_erase]
        exact List.erase_sublist
      · exact List.Sublist.refl _
  | healthCheck =>
      simp only [apply, Revision.settled]
      refine of_eq ?_
      cases found : HealthCheck.spec? m with
      | none => rw [HealthCheck.restructure_of_no_spec found]
      | some spec =>
          rw [HealthCheck.restructure_of_spec? found,
            Dict.keys_insert_of_get? _ (HealthCheck.spec?_eq_some_iff.mp found).2]
  | templateReference =>
      simp only [apply, Revision.settled]
      refine of_eq ?_
      rcases TemplateReference.move_cases m with ⟨still, -⟩ | ⟨spec, template, moved, found, -, fires⟩
      · rw [still]
      · rw [fires, Dict.keys_insert_of_get? _ (TemplateReference.template?_eq_some_iff.mp found).2.1]

/-- Only one rule refuses mappings. -/
theorem eq_argumentList_of_error {e : ShapeError} (refused : (rule.apply m).outcome = .error e) :
    rule = .argumentList := by
  cases rule with
  | argumentList => rfl
  | groupReference | emptyEndpoint | healthCheck | templateReference => cases refused

/-! ## Rules that commute -/

/-- Rules that look at none of the fields that the other one changes. -/
def Apart (rule other : Rule) : Prop :=
  (∀ key ∈ rule.reads, key ∉ other.writes) ∧ ∀ key ∈ other.reads, key ∉ rule.writes

instance : Decidable (rule.Apart other) := inferInstanceAs (Decidable (_ ∧ _))

theorem mem_reads {key : String} (member : key ∈ rule.writes) : key ∈ rule.reads := by
  cases rule <;> revert key <;> decide

/-- What a rule does is the same before and after a rule apart from it. -/
theorem apply_left_apply (keyed : m.WellKeyed) (apart : ∀ key ∈ rule.reads, key ∉ other.writes) :
    (rule.apply (other.apply m).left).outcome = (rule.apply m).outcome ∧
      ∀ key ∈ rule.reads,
        (rule.apply (other.apply m).left).left.get? key = (rule.apply m).left.get? key :=
  apply_congr keyed (wellKeyed_left_apply keyed) fun key member =>
    get?_left_apply_of_notMem (apart key member)

theorem left_apply_comm (keyed : m.WellKeyed) (apart : rule.Apart other) :
    (other.apply (rule.apply m).left).left = (rule.apply (other.apply m).left).left := by
  refine Dict.ext_of_sublist keyed.nodup
    ((keys_left_apply _ _).trans (keys_left_apply rule m))
    ((keys_left_apply _ _).trans (keys_left_apply other m)) fun key => ?_
  -- A field is changed by one of the rules at most.
  by_cases mine : key ∈ rule.writes
  · have notOther : key ∉ other.writes := apart.1 key (mem_reads mine)
    rw [get?_left_apply_of_notMem notOther, (apply_left_apply keyed apart.1).2 key (mem_reads mine)]
  · rw [get?_left_apply_of_notMem (m := (other.apply m).left) mine]
    by_cases theirs : key ∈ other.writes
    · exact (apply_left_apply keyed apart.2).2 key (mem_reads theirs)
    · rw [get?_left_apply_of_notMem theirs, get?_left_apply_of_notMem mine,
        get?_left_apply_of_notMem theirs]

theorem commute_of_apart (keyed : m.WellKeyed) (differs : rule ≠ other)
    (apart : rule.Apart other) : Revision.Commute rule.apply other.apply m := by
  have mine := (apply_left_apply keyed apart.1).1
  have theirs := (apply_left_apply keyed apart.2).1
  rw [Revision.Commute]
  cases first : (rule.apply m).outcome with
  | error e =>
      cases second : (other.apply m).outcome with
      | error e' =>
          exact absurd ((eq_argumentList_of_error first).trans
            (eq_argumentList_of_error second).symm) differs
      | ok c =>
          rw [Revision.andThen_of_error first, Revision.andThen_of_ok second, mine, first]
          rfl
  | ok b =>
      cases second : (other.apply m).outcome with
      | error e =>
          rw [Revision.andThen_of_ok first, Revision.andThen_of_error second, theirs, second]
          rfl
      | ok c =>
          rw [Revision.andThen_of_ok first, Revision.andThen_of_ok second, mine, theirs, first,
            second, left_apply_comm keyed apart]
          simp only [Revision.result, Except.map, Bool.or_comm]

theorem commute (keyed : m.WellKeyed) : Revision.Commute rule.apply other.apply m := by
  by_cases same : rule = other
  · subst same
    rfl
  by_cases apart : rule.Apart other
  · exact commute_of_apart keyed same apart
  · -- The two rules that are left share the spec, and a mapping has at most one of their kinds.
    have kinds : (rule = .healthCheck ∧ other = .templateReference) ∨
        (rule = .templateReference ∧ other = .healthCheck) := by
      cases rule <;> cases other <;> revert same apart <;> decide
    have pair : Revision.Commute (apply .healthCheck) (apply .templateReference) m := by
      by_cases isPlane : m.hasKind TemplateReference.kind = true
      · exact (settling.commute_of_settled (healthCheck_settled_of_hasKind isPlane)).symm
      · have settled : Settled .templateReference m := fun isOne => absurd isOne isPlane
        exact settling.commute_of_settled settled
    rcases kinds with ⟨rfl, rfl⟩ | ⟨rfl, rfl⟩
    · exact pair
    · exact pair.symm

/-- Lists of the same rules do the same to a mapping. -/
theorem result_run_of_same {rules rules' : List Rule} (keyed : m.WellKeyed)
    (same : ∀ rule, rule ∈ rules ↔ rule ∈ rules') :
    (Revision.run apply rules m).result = (Revision.run apply rules' m).result :=
  settling.result_run_of_same commute keyed same

theorem kind_notMem_writes (rule : Rule) : "kind" ∉ rule.writes := by
  cases rule <;> decide

/-- A rule that does not look at the kind has its fields for itself. -/
theorem notMem_writes_of_ne (noKind : "kind" ∉ rule.reads) (differs : other ≠ rule) :
    ∀ key ∈ rule.reads, key ∉ other.writes := by
  cases rule <;> cases other <;> revert noKind differs <;> decide

/-- Where no other rule changes what a rule looks at, a list of rules leaves there what this rule
    makes of the mapping. -/
theorem get?_left_run_of_reads {rules : List Rule} {key : String} (keyed : m.WellKeyed)
    (member : rule ∈ rules)
    (quiet : ∀ other ≠ rule, (∀ key ∈ rule.reads, key ∉ other.writes) ∨
      ∀ left : Mapping, left.get? "kind" = m.get? "kind" → other.Settled left)
    {changed : Bool} (done : (Revision.run apply rules m).outcome = .ok changed)
    (read : key ∈ rule.reads) :
    (Revision.run apply rules m).left.get? key = (rule.apply m).left.get? key := by
  -- The rule may as well come first, and then it is settled for the rest of the list.
  have front : (Revision.run apply (rule :: rules) m).result = (Revision.run apply rules m).result :=
    settling.result_run_cons_of_mem commute keyed member
  rw [Revision.result_of_ok done] at front
  obtain ⟨frontDone, frontLeft⟩ := Revision.result_eq_ok_iff.mp front
  obtain ⟨first, -, firstDone, -, -, restLeft⟩ := Revision.outcome_andThen_eq_ok frontDone
  have settled : rule.Settled (rule.apply m).left := settled_left_apply keyed firstDone
  rw [← frontLeft, Revision.run, restLeft]
  refine (Revision.run_invariant (P := fun left => left.get? "kind" = m.get? "kind" ∧
    ∀ key ∈ rule.reads, left.get? key = (rule.apply m).left.get? key) ?_
      ⟨get?_left_apply_of_notMem (kind_notMem_writes rule), fun _ _ => rfl⟩).2 key read
  rintro other - left ⟨kind, same⟩
  refine ⟨(get?_left_apply_of_notMem (kind_notMem_writes other)).trans kind, ?_⟩
  by_cases itself : other = rule
  · subst itself
    rw [apply_of_settled (settled.congr same)]
    exact same
  · rcases quiet other itself with apart | settles
    · intro key member
      rw [get?_left_apply_of_notMem (apart key member), same key member]
    · rw [apply_of_settled (settles left kind)]
      exact same

end Rule

end ManifestMigration
