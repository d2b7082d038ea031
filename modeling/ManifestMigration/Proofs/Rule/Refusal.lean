import ManifestMigration.Proofs.Document.Paths
import ManifestMigration.Proofs.Rule.Order

/-! # Where a refused field lies

A refusal names a key and the shape of the leaf that stands there. The refused field lies at a path
when the path leads to a mapping with such a leaf under the key. A mapping that is refused has the
field itself: what was done to it before the refusal has not reached the field.
-/

namespace ManifestMigration

namespace ShapeError

/-- The path leads to a mapping with a leaf of the refused shape under the refused key. -/
def LiesAt (e : ShapeError) (node : Node) (path : Path) : Prop :=
  ∃ fields value, node.at? path = some (.mapping fields) ∧
    fields.get? e.key = some (.scalar value) ∧ value.shape = e.found

variable {e : ShapeError} {m m' : Mapping} {node : Node} {path rest : Path} {key : String}

theorem liesAt_append :
    e.LiesAt node (path ++ rest) ↔ ∃ part, node.at? path = some part ∧ e.LiesAt part rest := by
  unfold LiesAt
  simp only [Node.at?_append, Option.bind_eq_some_iff]
  constructor
  · rintro ⟨fields, value, ⟨part, leads, found⟩, field⟩
    exact ⟨part, leads, fields, value, found, field⟩
  · rintro ⟨part, leads, fields, value, found, field⟩
    exact ⟨fields, value, ⟨part, leads, found⟩, field⟩

theorem liesAt_nil :
    e.LiesAt (.mapping m) [] ↔
      ∃ value, m.get? e.key = some (.scalar value) ∧ value.shape = e.found := by
  simp [LiesAt]

theorem liesAt_key :
    e.LiesAt (.mapping m) (.key key :: rest) ↔
      ∃ value, m.get? key = some value ∧ e.LiesAt value rest := by
  rw [← List.singleton_append, liesAt_append]
  simp [Node.at?_key]

theorem liesAt_key_of_get? (stored : m.get? key = some node) :
    e.LiesAt (.mapping m) (.key key :: rest) ↔ e.LiesAt node rest := by
  simp only [liesAt_key, stored, Option.some.injEq, exists_eq_left']

theorem liesAt_index {items : List Node} {i : Nat} :
    e.LiesAt (.sequence items) (.index i :: rest) ↔
      ∃ item, items[i]? = some item ∧ e.LiesAt item rest := by
  rw [← List.singleton_append, liesAt_append]
  simp [Node.at?_index]

theorem not_liesAt_scalar {value : Scalar} : ¬ e.LiesAt (.scalar value) path := by
  rintro ⟨fields, leaf, leads, -⟩
  cases path <;> simp [Node.at?] at leads

theorem LiesAt.exists_key (lies : e.LiesAt (.mapping m) path) :
    path = [] ∨ ∃ key rest, path = .key key :: rest := by
  cases path with
  | nil => exact .inl rfl
  | cons step rest =>
      cases step with
      | key name => exact .inr ⟨name, rest, rfl⟩
      | index i =>
          obtain ⟨fields, leaf, leads, -⟩ := lies
          simp [Node.at?] at leads

theorem LiesAt.exists_index {items : List Node} (lies : e.LiesAt (.sequence items) path) :
    ∃ i rest, path = .index i :: rest := by
  obtain ⟨fields, leaf, leads, -⟩ := lies
  cases path with
  | nil => simp at leads
  | cons step rest =>
      cases step with
      | key name => simp [Node.at?] at leads
      | index i => exact ⟨i, rest, rfl⟩

theorem not_liesAt_empty : ¬ e.LiesAt (.mapping .empty) path := by
  intro lies
  rcases lies.exists_key with rfl | ⟨key, rest, rfl⟩
  · obtain ⟨value, found, -⟩ := liesAt_nil.mp lies
    cases found
  · obtain ⟨value, found, -⟩ := liesAt_key.mp lies
    cases found

/-! ## Mappings that share fields -/

/-- What lies in a mapping lies in every mapping with the same fields and more. -/
theorem LiesAt.mono (more : ∀ key value, m'.get? key = some value → m.get? key = some value)
    (lies : e.LiesAt (.mapping m') path) : e.LiesAt (.mapping m) path := by
  rcases lies.exists_key with rfl | ⟨key, rest, rfl⟩
  · obtain ⟨value, found, shape⟩ := liesAt_nil.mp lies
    exact liesAt_nil.mpr ⟨value, more _ _ found, shape⟩
  · obtain ⟨value, found, inside⟩ := liesAt_key.mp lies
    exact liesAt_key.mpr ⟨value, more _ _ found, inside⟩

theorem LiesAt.of_erase (distinct : m.keys.Nodup)
    (lies : e.LiesAt (.mapping (m.erase key)) path) : e.LiesAt (.mapping m) path := by
  refine lies.mono fun other value found => ?_
  by_cases same : other = key
  · rw [same, Dict.get?_erase_self distinct] at found
    cases found
  · rwa [Dict.get?_erase_of_ne m same] at found

/-- What lies in a mapping after a change of another field lies in the new value of that field, or
    where it lay before. -/
theorem LiesAt.of_insert {value : Node} (differs : e.key ≠ key)
    (lies : e.LiesAt (.mapping (m.insert key value)) path) :
    (∃ rest, path = .key key :: rest ∧ e.LiesAt value rest) ∨
      (∀ rest, path ≠ .key key :: rest) ∧ e.LiesAt (.mapping m) path := by
  rcases lies.exists_key with rfl | ⟨name, rest, rfl⟩
  · rw [liesAt_nil, Dict.get?_insert_of_ne m value differs] at lies
    exact .inr ⟨fun _ => (List.cons_ne_nil _ _).symm, liesAt_nil.mpr lies⟩
  · obtain ⟨stored, found, inside⟩ := liesAt_key.mp lies
    by_cases same : name = key
    · subst same
      rw [Dict.get?_insert_self] at found
      cases found
      exact .inl ⟨rest, rfl, inside⟩
    · rw [Dict.get?_insert_of_ne m value same] at found
      refine .inr ⟨fun _ leads => ?_, liesAt_key.mpr ⟨stored, found, inside⟩⟩
      exact same (Step.key.inj (List.cons.inj leads).1)

theorem LiesAt.of_child (lies : e.LiesAt (.mapping (m.child key)) rest) :
    e.LiesAt (.mapping m) (.key key :: rest) := by
  unfold Dict.child at lies
  split at lies
  · next fields found => exact liesAt_key.mpr ⟨_, found, lies⟩
  · exact absurd lies not_liesAt_empty

end ShapeError

/-! ## Refusals -/

namespace Revision

/-- What holds of every step that refuses and of the mapping that it leaves holds of a run that
    refuses. -/
theorem run_refused {ι : Type} {step : ι → Mapping → Revision} {steps : List ι}
    {P : Mapping → ShapeError → Prop} {m : Mapping} {e : ShapeError}
    (each : ∀ i ∈ steps, ∀ m e, (step i m).outcome = .error e → P (step i m).left e)
    (refused : (run step steps m).outcome = .error e) : P (run step steps m).left e := by
  induction steps generalizing m with
  | nil => cases refused
  | cons i rest ih =>
      cases outcome : (step i m).outcome with
      | error e' =>
          rw [run, andThen_of_error outcome] at refused ⊢
          cases refused
          exact each i List.mem_cons_self m e outcome
      | ok b =>
          rw [run, andThen_of_ok outcome] at refused ⊢
          have later : (run step rest (step i m).left).outcome = .error e := by
            cases outcome' : (run step rest (step i m).left).outcome with
            | error e' => simpa [outcome', Except.map] using refused
            | ok c => simp [outcome', Except.map] at refused
          exact ih (fun j member => each j (List.mem_cons_of_mem _ member)) later

end Revision

namespace ArgumentList

variable {m : Mapping} {e : ShapeError}

/-- A conversion refuses a mapping for a leaf under one of its keys, and leaves the leaf there. -/
theorem refused_convert (refused : (convert m).outcome = .error e) :
    e.key ∈ keys ∧ e.LiesAt (.mapping (convert m).left) [] := by
  rw [convert, convertKeys_eq_run] at refused ⊢
  refine Revision.run_refused (P := fun left e => e.key ∈ keys ∧ e.LiesAt (.mapping left) [])
    ?_ refused
  intro key member m e refused
  unfold convertAt at refused ⊢
  split at refused
  · cases refused
  · cases refused
  · cases refused
  · next value found =>
      cases refused
      exact ⟨member, ShapeError.liesAt_nil.mpr ⟨value, by simp only [found], rfl⟩⟩

end ArgumentList

namespace Rule

variable {rule : Rule} {m : Mapping} {e : ShapeError}

theorem refused_apply (refused : (rule.apply m).outcome = .error e) :
    e.key ∈ ArgumentList.keys ∧ e.LiesAt (.mapping (rule.apply m).left) [] := by
  obtain rfl := eq_argumentList_of_error refused
  exact ArgumentList.refused_convert refused

end Rule

end ManifestMigration
