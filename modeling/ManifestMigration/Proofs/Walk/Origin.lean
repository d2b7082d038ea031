import ManifestMigration.Proofs.Rule.Moves
import ManifestMigration.Proofs.Walk.Keys

/-! # Where a refused field came from

A refusal names the path of a mapping as the walk finds it, and by then the rules may have moved the
mapping: the path leads through the document that the walk leaves. Undoing the moves of the rules
along the path leads to the place in the document that was walked (`Node.origin`). There the refused
field lay before the walk, under the same key and with the same shape. Where nothing on the way has
moved this is the path of the refusal itself, and otherwise it is a shorter path.
-/

namespace ManifestMigration

variable {rules : List Rule} {m : Mapping} {e : ShapeError} {path : Path}

/-! ## Rules on one mapping -/

namespace Rule

/-- Where the part at a path in what some rules leave of a mapping was before them. -/
def originAll : List Rule → Mapping → Path → Path
  | [], _, path => path
  | rule :: rest, m, path =>
    match (rule.apply m).outcome with
    | .ok _ => Move.undo (rule.moves m) (originAll rest (rule.apply m).left path)
    | .error _ => Move.undo (rule.moves m) path

theorem liesAt_originAll (keyed : m.WellKeyed) (named : e.key ∈ ArgumentList.keys)
    (lies : e.LiesAt (.mapping (applyAll rules m).left) path) :
    e.LiesAt (.mapping m) (originAll rules m path) := by
  induction rules generalizing m with
  | nil => exact lies
  | cons rule rest ih =>
      rw [applyAll, Revision.run] at lies
      cases outcome : (rule.apply m).outcome with
      | error e' =>
          rw [Revision.andThen_of_error outcome] at lies
          simp only [originAll, outcome]
          exact liesAt_undo_moves keyed named lies
      | ok fired =>
          rw [Revision.andThen_of_ok outcome] at lies
          simp only [originAll, outcome]
          exact liesAt_undo_moves keyed named (ih (wellKeyed_left_apply keyed) lies)

theorem originAll_sameOrShorter (rules : List Rule) (m : Mapping) (path : Path) :
    SameOrShorter (originAll rules m path) path := by
  induction rules generalizing m with
  | nil => exact .refl _
  | cons rule rest ih =>
      cases outcome : (rule.apply m).outcome with
      | error e' =>
          simp only [originAll, outcome]
          exact Move.undo_sameOrShorter moves_down path
      | ok fired =>
          simp only [originAll, outcome]
          exact (Move.undo_sameOrShorter moves_down _).trans (ih (rule.apply m).left)

/-- Rules that refuse a mapping leave the refused field in the mapping itself. -/
theorem refused_applyAll (refused : (applyAll rules m).outcome = .error e) :
    e.key ∈ ArgumentList.keys ∧ e.LiesAt (.mapping (applyAll rules m).left) [] :=
  Revision.run_refused (P := fun left e => e.key ∈ ArgumentList.keys ∧ e.LiesAt (.mapping left) [])
    (fun _ _ _ _ refused => refused_apply refused) refused

end Rule

/-! ## Refusals of a walk -/

namespace Walked

variable {α β : Type} {x : Walked α} {stop : α → β} {go : α → Walked β} {err : TransformError}

/-- A walk in two parts is refused in the first or, after the first, in the second. -/
theorem andThen_of_refused (refused : (x.andThen stop go).refusal? = some err) :
    x.refusal? = some err ∧ (x.andThen stop go).left = stop x.left ∨
      x.refusal? = none ∧ (go x.left).refusal? = some err ∧
        (x.andThen stop go).left = (go x.left).left := by
  cases first : x.refusal? with
  | some err' =>
      simp only [andThen, first] at refused
      exact .inl ⟨refused, by simp only [andThen, first]⟩
  | none =>
      simp only [andThen, first, after] at refused
      exact .inr ⟨rfl, refused, by simp only [andThen, first, after]⟩

end Walked

namespace Node

variable {document : Node} {err : TransformError}

/-- A walk through items is refused in one of them, and in none before it. -/
theorem refused_walkItems {index : Nat} {items : List Node}
    (refused : (walkItems rules path index items).refusal? = some err) :
    ∃ (i : Nat) (item : Node) (inner : TransformError),
      items[i]? = some item ∧ (item.transform rules).refusal? = some inner ∧
      err = inner.below (path ++ [.index (index + i)]) ∧
        (walkItems rules path index items).left[i]? = some (item.transform rules).left ∧
          ∀ earlier ∈ items.take i, (earlier.transform rules).refusal? = none := by
  induction items generalizing index with
  | nil => simp [walkItems, Walked.still] at refused
  | cons item rest ih =>
      rw [walkItems, walk_eq_below] at refused ⊢
      rcases Walked.andThen_of_refused refused with ⟨here, left⟩ | ⟨first, later, left⟩
      · obtain ⟨inner, found, rfl⟩ := Option.map_eq_some_iff.mp here
        exact ⟨0, item, inner, rfl, found, rfl, by rw [left]; rfl, List.forall_mem_nil _⟩
      · obtain ⟨i, item', inner, stored, found, rfl, leftLater, before⟩ := ih later
        refine ⟨i + 1, item', inner, stored, found, ?_, by rw [left]; exact leftLater, ?_⟩
        · rw [Nat.add_assoc, Nat.add_comm 1 i]
        · rw [Walked.refusal?_below_eq_none] at first
          exact List.forall_mem_cons.mpr ⟨first, before⟩

/-- A walk through entries is refused in the value of one of them. -/
theorem refused_walkEntries {entries : List (String × Node)}
    (refused : (walkEntries rules path entries).refusal? = some err) :
    ∃ key value inner, (key, value) ∈ entries ∧ (value.transform rules).refusal? = some inner ∧
      err = inner.below (path ++ [.key key]) ∧
        (key, (value.transform rules).left) ∈ (walkEntries rules path entries).left := by
  induction entries with
  | nil => simp [walkEntries, Walked.still] at refused
  | cons entry rest ih =>
      rw [walkEntries, walk_eq_below] at refused ⊢
      rcases Walked.andThen_of_refused refused with ⟨here, left⟩ | ⟨-, later, left⟩
      · obtain ⟨inner, found, rfl⟩ := Option.map_eq_some_iff.mp here
        exact ⟨entry.1, entry.2, inner, List.mem_cons_self, found, rfl,
          by rw [left]; exact List.mem_cons_self⟩
      · obtain ⟨key, value, inner, stored, found, rfl, leftLater⟩ := ih later
        exact ⟨key, value, inner, List.mem_cons_of_mem _ stored, found, rfl,
          by rw [left]; exact List.mem_cons_of_mem _ leftLater⟩

theorem refused_transform_sequence {items : List Node}
    (refused : ((Node.sequence items).transform rules).refusal? = some err) :
    ∃ (i : Nat) (item : Node) (inner : TransformError) (left : List Node),
      items[i]? = some item ∧ (item.transform rules).refusal? = some inner ∧
      err = inner.below [.index i] ∧
        ((Node.sequence items).transform rules).left = .sequence left ∧
          left[i]? = some (item.transform rules).left ∧
            ∀ earlier ∈ items.take i, (earlier.transform rules).refusal? = none := by
  rw [transform, walk] at refused ⊢
  obtain ⟨i, item, inner, stored, found, rfl, left⟩ := refused_walkItems refused
  exact ⟨i, item, inner, _, stored, found, by rw [Nat.zero_add, List.nil_append], rfl, left⟩

theorem transform_mapping_of_error {e : ShapeError}
    (refused : (Rule.applyAll rules m).outcome = .error e) :
    ∃ rule, ((Node.mapping m).transform rules).refusal? = some ⟨rule, [], e⟩ ∧
      ((Node.mapping m).transform rules).left = .mapping (Rule.applyAll rules m).left := by
  obtain ⟨rule, -, -, found⟩ := Rule.applyAllAt_of_error [] refused
  refine ⟨rule, ?_⟩
  rw [transform, walk]
  simp only [Walked.after, found, Walked.map, Rule.left_applyAllAt, and_self]

/-- A walk through a mapping that its rules do not refuse is refused in a value that they leave. -/
theorem refused_transform_mapping (keyed : m.WellKeyed) {changed : Bool}
    (done : (Rule.applyAll rules m).outcome = .ok changed)
    (refused : ((Node.mapping m).transform rules).refusal? = some err) :
    ∃ key value inner left, (Rule.applyAll rules m).left.get? key = some value ∧
      (value.transform rules).refusal? = some inner ∧ err = inner.below [.key key] ∧
        ((Node.mapping m).transform rules).left = .mapping left ∧
          left.get? key = some (value.transform rules).left := by
  have distinct : (Rule.applyAll rules m).left.keys.Nodup :=
    (Rule.wellKeyed_left_applyAll keyed).nodup
  rw [transform_mapping_of_ok done] at refused ⊢
  obtain ⟨key, value, inner, stored, found, rfl, left⟩ := refused_walkEntries refused
  refine ⟨key, value, inner, ⟨_⟩, Dict.get?_of_mem distinct stored, found, rfl, rfl, ?_⟩
  refine Dict.get?_of_mem ?_ left
  rwa [Dict.keys, keys_left_walkEntries]

/-- The first of the values that is refused is what the walk is refused for. -/
theorem refusal?_transform_mapping_of_value (before : List (String × Node)) {changed : Bool}
    (done : (Rule.applyAll rules m).outcome = .ok changed) {after : List (String × Node)}
    {key : String} {value : Node}
    (entries : (Rule.applyAll rules m).left.entries = before ++ (key, value) :: after)
    (accepted : ∀ entry ∈ before, (entry.2.transform rules).refusal? = none)
    (refused : (value.transform rules).refusal? = some err) :
    ((Node.mapping m).transform rules).refusal? = some (err.below [.key key]) := by
  rw [transform_mapping_of_ok done]
  simp only [Walked.after, Walked.refusal?_map, entries]
  clear entries
  induction before with
  | nil => simp [walkEntries, walk_eq_below, Walked.andThen, Walked.below, refused]
  | cons entry rest ih =>
      obtain ⟨first, others⟩ := List.forall_mem_cons.mp accepted
      obtain ⟨name, other⟩ := entry
      simp only [List.cons_append, walkEntries, walk_eq_below, Walked.andThen, Walked.below, first,
        Option.map_none, Walked.after, Walked.refusal?_map]
      exact ih others

/-! ## Documents -/

/-- Where the part at a path in what a walk leaves of a document was before the walk. -/
def origin (rules : List Rule) : Node → Path → Path
  | .mapping m, .key key :: rest =>
    Rule.originAll rules m <|
      match (Rule.applyAll rules m).left.get? key with
      | some value => .key key :: value.origin rules rest
      | none => .key key :: rest
  | .sequence items, .index i :: rest =>
    match items[i]? with
    | some item => .index i :: item.origin rules rest
    | none => .index i :: rest
  | .mapping m, path => Rule.originAll rules m path
  | _, path => path

theorem origin_sameOrShorter (rules : List Rule) (document : Node) (path : Path) :
    SameOrShorter (document.origin rules path) path := by
  induction path generalizing document with
  | nil =>
      cases document with
      | mapping m => exact Rule.originAll_sameOrShorter rules m []
      | sequence items => exact .refl _
      | scalar value => exact .refl _
  | cons step rest ih =>
      cases document with
      | mapping m =>
          cases step with
          | key key =>
              refine (Rule.originAll_sameOrShorter rules m _).trans ?_
              split
              · exact (ih _).cons _
              · exact .refl _
          | index i => exact Rule.originAll_sameOrShorter rules m _
      | sequence items =>
          cases step with
          | key key => exact .refl _
          | index i =>
              rw [origin]
              split
              · exact (ih _).cons _
              · exact .refl _
      | scalar value => cases step <;> exact .refl _

/-- The key of a refusal is one of those of argument lists. The path of the refusal leads to the
    refused field in the document that the walk leaves, and its origin led to the field in the
    document that was walked. -/
theorem refused_liesAt (keyed : document.WellKeyed)
    (refused : (document.transform rules).refusal? = some err) :
    err.cause.key ∈ ArgumentList.keys ∧
      err.cause.LiesAt (document.transform rules).left err.path ∧
        err.cause.LiesAt document (document.origin rules err.path) := by
  induction document using transform_induction rules generalizing err with
  | scalar value =>
      rw [transform_scalar] at refused
      cases refused
  | sequence items ih =>
      obtain ⟨i, item, inner, left, stored, found, rfl, leftItems, leftItem, -⟩ :=
        refused_transform_sequence refused
      have member := List.mem_of_getElem? stored
      obtain ⟨named, lies, lay⟩ := ih item member (wellKeyed_sequence.mp keyed item member) found
      refine ⟨named, ?_, ?_⟩
      · rw [leftItems]
        exact ShapeError.liesAt_index.mpr ⟨_, leftItem, lies⟩
      · simp only [TransformError.below, List.singleton_append, origin, stored]
        exact ShapeError.liesAt_index.mpr ⟨item, stored, lay⟩
  | mapping m ih =>
      cases outcome : (Rule.applyAll rules m).outcome with
      | error e =>
          obtain ⟨rule, found, left⟩ := transform_mapping_of_error outcome
          cases refused.symm.trans found
          obtain ⟨named, lies⟩ := Rule.refused_applyAll outcome
          rw [left]
          exact ⟨named, lies, Rule.liesAt_originAll keyed named lies⟩
      | ok changed =>
          obtain ⟨key, value, inner, left, stored, found, rfl, leftFields, leftValue⟩ :=
            refused_transform_mapping keyed outcome refused
          have keyedValue : value.WellKeyed :=
            (Rule.wellKeyed_left_applyAll keyed).of_get? stored
          obtain ⟨named, lies, lay⟩ :=
            ih ⟨changed, outcome⟩ _ (Dict.mem_of_get? stored) keyedValue found
          refine ⟨named, ?_, ?_⟩
          · rw [leftFields]
            exact ShapeError.liesAt_key.mpr ⟨_, leftValue, lies⟩
          · simp only [TransformError.below, List.singleton_append, origin, stored]
            exact Rule.liesAt_originAll keyed named (ShapeError.liesAt_key.mpr ⟨value, stored, lay⟩)

/-- A refusal locates its field in the document that the walk leaves. In the document that was
    walked the field lay at the origin of that path: at the path itself, or at a shorter one where a
    rule has moved something on the way. -/
theorem refused_origin (keyed : document.WellKeyed)
    (refused : (document.transform rules).refusal? = some err) :
    err.cause.LiesAt (document.transform rules).left err.path ∧
      err.cause.LiesAt document (document.origin rules err.path) ∧
        SameOrShorter (document.origin rules err.path) err.path := by
  obtain ⟨-, lies, lay⟩ := refused_liesAt keyed refused
  exact ⟨lies, lay, origin_sameOrShorter rules document err.path⟩

/-- The refusal of a reference that has moved names a path that leads nowhere in the document. -/
theorem refused_origin_template :
    let document := Node.mapping ⟨[("kind", .string "KubeadmControlPlane"),
      ("spec", .mapping ⟨[("machineTemplate", .mapping ⟨[("infrastructureRef",
        .mapping ⟨[("extraArgs", .string "x")]⟩)]⟩)]⟩)]⟩
    let err : TransformError := ⟨.argumentList,
      [.key "spec", .key "machineTemplate", .key "spec", .key "infrastructureRef"],
      ⟨"extraArgs", .string⟩⟩
    document.WellKeyed ∧ (document.transform Rule.all).refusal? = some err ∧
      err.cause.LiesAt document [.key "spec", .key "machineTemplate", .key "infrastructureRef"] ∧
        ¬ err.cause.LiesAt document err.path := by
  intro document err
  have keyed : document.WellKeyed := by
    simp [document, wellKeyed_mapping, Dict.keys, wellKeyed_scalar]
  let reference : Mapping := ⟨[("extraArgs", .string "x")]⟩
  let inner : Mapping := ⟨[("infrastructureRef", .mapping reference)]⟩
  let template : Mapping := ⟨[("spec", .mapping inner)]⟩
  let spec : Mapping := ⟨[("machineTemplate", .mapping template)]⟩
  have atReference : ((Node.mapping reference).transform Rule.all).refusal? =
      some ⟨.argumentList, [], err.cause⟩ := by
    rw [transform, walk]
    decide +kernel
  have inside {m : Mapping} {key : String} {value : Node} {path : Path}
      (done : (Rule.applyAll Rule.all m).outcome = .ok false)
      (left : (Rule.applyAll Rule.all m).left.entries = [(key, value)])
      (refused : (value.transform Rule.all).refusal? = some ⟨.argumentList, path, err.cause⟩) :
      ((Node.mapping m).transform Rule.all).refusal? =
        some ⟨.argumentList, .key key :: path, err.cause⟩ :=
    refusal?_transform_mapping_of_value [] done left (by simp) refused
  have atSpec : ((Node.mapping spec).transform Rule.all).refusal? = some ⟨.argumentList,
      [.key "machineTemplate", .key "spec", .key "infrastructureRef"], err.cause⟩ :=
    inside (by decide +kernel) (by decide +kernel)
      (inside (m := template) (by decide +kernel) (by decide +kernel)
        (inside (m := inner) (by decide +kernel) (by decide +kernel) atReference))
  have left : (Rule.applyAll Rule.all ⟨[("kind", .string "KubeadmControlPlane"),
      ("spec", .mapping ⟨[("machineTemplate", .mapping inner)]⟩)]⟩).left.entries =
        [("kind", .string "KubeadmControlPlane"), ("spec", .mapping spec)] := by
    decide +kernel
  have refused : (document.transform Rule.all).refusal? = some err :=
    refusal?_transform_mapping_of_value [("kind", .string "KubeadmControlPlane")]
      (show _ = Except.ok true by decide +kernel) left
      (by simp [Node.string, transform_scalar, Walked.still]) atSpec
  have origin_eq : document.origin Rule.all err.path =
      [.key "spec", .key "machineTemplate", .key "infrastructureRef"] := by decide +kernel
  obtain ⟨-, lay, -⟩ := refused_origin keyed refused
  rw [origin_eq] at lay
  refine ⟨keyed, refused, lay, ?_⟩
  rintro ⟨fields, value, leads, -⟩
  cases leads.symm.trans (show document.at? err.path = none by decide +kernel)

end Node

end ManifestMigration
