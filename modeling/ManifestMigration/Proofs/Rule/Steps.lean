import ManifestMigration.Rule.Basic

/-! # Revising step by step

A rule that looks at several keys, and a list of rules, revise a mapping in steps. Each step brings
something into its migrated shape and leaves alone what the other steps have brought into theirs.
`Settling` names these conditions. After a run of such steps everything that they look after is
settled, and a run on what is settled already changes nothing.
-/

namespace ManifestMigration.Revision

variable {ι : Type} {step : ι → Mapping → Revision} {steps : List ι} {m : Mapping}

/-- Revise by one step after the other, until one refuses. -/
def run (step : ι → Mapping → Revision) : List ι → Mapping → Revision
  | [], m => .unchanged m
  | i :: rest, m => (step i m).andThen (run step rest)

theorem andThen_of_ok {r : Revision} {f : Mapping → Revision} {changed : Bool}
    (done : r.outcome = .ok changed) :
    r.andThen f = ⟨(f r.left).left, (f r.left).outcome.map (changed || ·)⟩ := by
  simp only [andThen, done]

theorem andThen_of_error {r : Revision} {f : Mapping → Revision} {e : ShapeError}
    (refused : r.outcome = .error e) : r.andThen f = ⟨r.left, .error e⟩ := by
  simp only [andThen, refused]

@[simp] theorem unchanged_andThen (m : Mapping) (f : Mapping → Revision) :
    (unchanged m).andThen f = f m := by
  simp only [unchanged, andThen]
  cases f m with
  | mk left outcome => cases outcome <;> rfl

/-- A sequence that refuses nothing is made of two parts that refuse nothing. -/
theorem outcome_andThen_eq_ok {r : Revision} {f : Mapping → Revision} {changed : Bool}
    (done : (r.andThen f).outcome = .ok changed) :
    ∃ first second, r.outcome = .ok first ∧ (f r.left).outcome = .ok second ∧
      changed = (first || second) ∧ (r.andThen f).left = (f r.left).left := by
  cases first : r.outcome with
  | error e =>
      rw [andThen_of_error first] at done
      cases done
  | ok b =>
      rw [andThen_of_ok first] at done ⊢
      cases second : (f r.left).outcome with
      | error e =>
          rw [second] at done
          cases done
      | ok c =>
          rw [second] at done
          cases done
          exact ⟨b, c, rfl, rfl, rfl, rfl⟩

/-- What every step keeps, refusing or not, a run keeps. -/
theorem run_invariant {P : Mapping → Prop}
    (kept : ∀ i ∈ steps, ∀ m, P m → P (step i m).left) (start : P m) :
    P (run step steps m).left := by
  induction steps generalizing m with
  | nil => exact start
  | cons i rest ih =>
      have first : P (step i m).left := kept i List.mem_cons_self m start
      cases outcome : (step i m).outcome with
      | error e =>
          rw [run, andThen_of_error outcome]
          exact first
      | ok b =>
          rw [run, andThen_of_ok outcome]
          exact ih (fun j member => kept j (List.mem_cons_of_mem _ member)) first

/-- A run over keys reaches no field but those of its keys, if its steps do not. -/
theorem get?_left_run_of_notMem {step : String → Mapping → Revision} {keys : List String}
    {other : String}
    (frame : ∀ {key m}, other ≠ key → (step key m).left.get? other = m.get? other)
    (outside : other ∉ keys) : (run step keys m).left.get? other = m.get? other := by
  refine run_invariant (P := fun m' => m'.get? other = m.get? other) ?_ rfl
  intro key member m' same
  have differs : other ≠ key := by
    rintro rfl
    exact outside member
  rw [frame differs, same]

/-- Steps with what they settle. On a good mapping a step that does not refuse settles its part; it
    does nothing where its part is settled, and it unsettles nothing else. -/
structure Settling (Good : Mapping → Prop) (step : ι → Mapping → Revision)
    (Settled : ι → Mapping → Prop) : Prop where
  good : ∀ {i m}, Good m → Good (step i m).left
  still : ∀ {i m}, Settled i m → step i m = .unchanged m
  settled_of_still : ∀ {i m}, (step i m).outcome = .ok false → Settled i m
  settles : ∀ {i m changed}, Good m → (step i m).outcome = .ok changed → Settled i (step i m).left
  keeps : ∀ {i j m}, i ≠ j → Settled i m → Settled i (step j m).left

namespace Settling

variable {Good : Mapping → Prop} {Settled : ι → Mapping → Prop}

theorem keeps_all (settling : Settling Good step Settled) {i j : ι} (settled : Settled i m) :
    Settled i (step j m).left := by
  by_cases same : i = j
  · subst same
    rw [settling.still settled]
    exact settled
  · exact settling.keeps same settled

theorem run_of_settled (settling : Settling Good step Settled)
    (settled : ∀ i ∈ steps, Settled i m) : run step steps m = .unchanged m := by
  induction steps with
  | nil => rfl
  | cons i rest ih =>
      rw [run, settling.still (settled i List.mem_cons_self), unchanged_andThen]
      exact ih fun j member => settled j (List.mem_cons_of_mem _ member)

theorem settled_of_run (settling : Settling Good step Settled)
    (still : (run step steps m).outcome = .ok false) : ∀ i ∈ steps, Settled i m := by
  induction steps with
  | nil => simp
  | cons i rest ih =>
      obtain ⟨first, second, firstDone, restDone, none, -⟩ := outcome_andThen_eq_ok still
      obtain ⟨rfl, rfl⟩ : first = false ∧ second = false := by simpa using none.symm
      have head : Settled i m := settling.settled_of_still firstDone
      rw [settling.still head] at restDone
      intro j member
      rcases List.mem_cons.mp member with rfl | inRest
      · exact head
      · exact ih restDone j inRest

theorem run_settles (settling : Settling Good step Settled) (good : Good m) {changed : Bool}
    (done : (run step steps m).outcome = .ok changed) :
    ∀ i ∈ steps, Settled i (run step steps m).left := by
  induction steps generalizing m changed with
  | nil => simp
  | cons i rest ih =>
      obtain ⟨first, second, firstDone, restDone, -, left⟩ := outcome_andThen_eq_ok done
      intro j member
      rw [run, left]
      rcases List.mem_cons.mp member with rfl | inRest
      -- The first step settles its part, and all that follow keep it settled.
      · exact run_invariant (fun _ _ _ settled => settling.keeps_all settled)
          (settling.settles good firstDone)
      · exact ih (settling.good good) restDone j inRest

end Settling

end ManifestMigration.Revision
