import Mathlib.Logic.Function.Iterate
import ManifestMigration.Proofs.Document.Paths
import ManifestMigration.Proofs.Walk.Keys

/-! # Where a walk goes

A walk goes down into what the rules have made of a mapping, and rules make new containers. Still it
ends: the weight of a document bounds how deep the calls of a walk are nested, and also how many
mappings a walk comes to, whether it is refused or not. A walk that is not refused comes to the
mappings of the document that it leaves, in their order, and to each of them once.
-/

namespace ManifestMigration

/-! ## Visits -/

theorem Event.visitedPath?_below (above : Path) (event : Event) :
    (event.below above).visitedPath? = event.visitedPath?.map (above ++ ·) := by
  cases event <;> rfl

namespace Walked

variable {α β : Type}

@[simp] theorem visited_still (a : α) : (still a).visited = [] := rfl

@[simp] theorem visited_map (f : α → β) (x : Walked α) : (x.map f).visited = x.visited := rfl

@[simp] theorem visited_after_visit (path : Path) (x : Walked α) :
    (x.after [.visited path]).visited = path :: x.visited := rfl

@[simp] theorem visited_after_events (x : Walked α) (y : Walked β) :
    (y.after x.events).visited = x.visited ++ y.visited := by
  rw [visited, after, List.filterMap_append]
  rfl

@[simp] theorem refusal?_after (events : List Event) (x : Walked α) :
    (x.after events).refusal? = x.refusal? := rfl

@[simp] theorem left_after (events : List Event) (x : Walked α) :
    (x.after events).left = x.left := rfl

@[simp] theorem visited_below (above : Path) (x : Walked α) :
    (x.below above).visited = x.visited.map (above ++ ·) := by
  simp only [visited, below, List.filterMap_map, List.map_filterMap]
  exact congrArg (List.filterMap · x.events) (funext (Event.visitedPath?_below above))

theorem visited_andThen {x : Walked α} {stop : α → β} {go : α → Walked β}
    (accepted : x.refusal? = none) :
    (x.andThen stop go).visited = x.visited ++ (go x.left).visited := by
  simp only [andThen, accepted, visited_after_events]

theorem length_visited_andThen_le (x : Walked α) (stop : α → β) (go : α → Walked β) :
    (x.andThen stop go).visited.length ≤ x.visited.length + (go x.left).visited.length := by
  cases refused : x.refusal? with
  | none => exact Nat.le_of_eq (by rw [visited_andThen refused, List.length_append])
  | some e =>
      simp only [andThen, refused]
      exact Nat.le_add_right _ _

end Walked

namespace Rule

theorem visited_applyAt (path : Path) (rule : Rule) (m : Mapping) :
    (rule.applyAt path m).visited = [] := by
  have quiet : ((rule.notes m).map Event.noted).filterMap Event.visitedPath? = [] := by
    simp [Event.visitedPath?]
  unfold applyAt
  split
  · exact quiet
  · next left fired _ =>
      simp only [Walked.visited, List.filterMap_append, quiet]
      cases fired <;> rfl

theorem visited_applyAllAt (path : Path) (rules : List Rule) (m : Mapping) :
    (applyAllAt path rules m).visited = [] := by
  induction rules generalizing m with
  | nil => rfl
  | cons rule rest ih =>
      have few := Walked.length_visited_andThen_le (rule.applyAt path m) (fun left => left)
        (applyAllAt path rest)
      rw [visited_applyAt, ih] at few
      exact List.eq_nil_of_length_eq_zero (Nat.le_zero.mp few)

end Rule

namespace Node

variable {rules : List Rule}

/-! ## How deep and how often -/

/-- The walks through the values of a mapping, with a function for the single walk. -/
def entriesBy (inner : Path → Node → Walked Node) (path : Path) :
    List (String × Node) → Walked (List (String × Node))
  | [] => .still []
  | (key, value) :: rest =>
    (inner (path ++ [.key key]) value).andThen (fun left => (key, left) :: rest) fun left =>
      (entriesBy inner path rest).map ((key, left) :: ·)

/-- The walks through the items of a sequence, with a function for the single walk. -/
def itemsBy (inner : Path → Node → Walked Node) (path : Path) (index : Nat) :
    List Node → Walked (List Node)
  | [] => .still []
  | item :: rest =>
    (inner (path ++ [.index index]) item).andThen (· :: rest) fun left =>
      (itemsBy inner path (index + 1) rest).map (left :: ·)

/-- One call of a walk, with a function for the calls that it makes. -/
def walkBy (rules : List Rule) (inner : Path → Node → Walked Node) (path : Path) :
    Node → Walked Node
  | .scalar value => .still (.scalar value)
  | .sequence items => (itemsBy inner path 0 items).map .sequence
  | .mapping m =>
    let applied := (Rule.applyAllAt path rules m).after [.visited path]
    match applied.refusal? with
    | some _ => applied.map .mapping
    | none =>
      ((entriesBy inner path applied.left.entries).map fun entries => .mapping ⟨entries⟩).after
        applied.events

theorem walkEntries_eq_entriesBy {inner : Path → Node → Walked Node} {path : Path}
    {entries : List (String × Node)}
    (same : ∀ entry ∈ entries, ∀ path, inner path entry.2 = walk rules path entry.2) :
    walkEntries rules path entries = entriesBy inner path entries := by
  induction entries with
  | nil => rw [walkEntries, entriesBy]
  | cons entry rest ih =>
      obtain ⟨first, others⟩ := List.forall_mem_cons.mp same
      rw [walkEntries, entriesBy, first, ih others]

theorem walkItems_eq_itemsBy {inner : Path → Node → Walked Node} {path : Path} {index : Nat}
    {items : List Node} (same : ∀ item ∈ items, ∀ path, inner path item = walk rules path item) :
    walkItems rules path index items = itemsBy inner path index items := by
  induction items generalizing index with
  | nil => rw [walkItems, itemsBy]
  | cons item rest ih =>
      obtain ⟨first, others⟩ := List.forall_mem_cons.mp same
      rw [walkItems, itemsBy, first, ih others]

theorem weight_le_of_mem_entries {entries : List (String × Node)} {entry : String × Node}
    (member : entry ∈ entries) : entry.2.weight ≤ entriesWeight entries := by
  induction entries with
  | nil => cases member
  | cons first rest ih =>
      rw [entriesWeight]
      rcases List.mem_cons.mp member with rfl | later
      · omega
      · have := ih later
        omega

theorem weight_le_of_mem_items {items : List Node} {item : Node} (member : item ∈ items) :
    item.weight ≤ itemsWeight items := by
  induction items with
  | nil => cases member
  | cons first rest ih =>
      rw [itemsWeight]
      rcases List.mem_cons.mp member with rfl | later
      · omega
      · have := ih later
        omega

/-- With more levels of calls than the weight of a node, no walk through the node needs whatever
    stands for the calls below them. -/
theorem iterate_walkBy (inner : Path → Node → Walked Node) {levels : Nat} (path : Path) {node : Node}
    (enough : node.weight < levels) :
    (walkBy rules)^[levels] inner path node = walk rules path node := by
  induction levels generalizing path node with
  | zero => cases enough
  | succ levels ih =>
      rw [Function.iterate_succ_apply']
      cases node with
      | scalar value => rw [walkBy, walk]
      | sequence items =>
          rw [weight] at enough
          rw [walkBy, walk, walkItems_eq_itemsBy]
          intro item member path
          have lighter := weight_le_of_mem_items member
          exact ih path (by omega)
      | mapping m =>
          let left := (Rule.applyAllAt path rules m).left
          have values : walkEntries rules path left.entries =
              entriesBy ((walkBy rules)^[levels] inner) path left.entries := by
            refine walkEntries_eq_entriesBy fun entry member path => ?_
            -- What the rules leave is no heavier than the mapping was.
            have lighter := weight_le_of_mem_entries member
            have kept : left.fieldsWeight ≤ m.fieldsWeight :=
              Rule.fieldsWeight_applyAllAt _ rules m
            rw [Dict.weight_mapping] at enough
            rw [Dict.fieldsWeight] at kept
            exact ih path (by omega)
          rw [walkBy, walk]
          simp only [Walked.left_after]
          exact values ▸ rfl

theorem length_visited_walk_le (rules : List Rule) (path : Path) (node : Node) :
    (walk rules path node).visited.length ≤ node.weight := by
  refine (walk.mutual_induct rules
    (fun path node => (walk rules path node).visited.length ≤ node.weight)
    (fun path entries => (walkEntries rules path entries).visited.length ≤ entriesWeight entries)
    (fun path index items =>
      (walkItems rules path index items).visited.length ≤ itemsWeight items)
    ?scalar ?sequence ?refused ?mapping ?noEntry ?entry ?noItem ?item).1 path node
  case scalar =>
    intro path value
    rw [walk]
    exact Nat.zero_le _
  case sequence =>
    intro path items ih
    rw [walk, Walked.visited_map, weight]
    omega
  case refused =>
    intro path m applied e refused
    have here : (Rule.applyAllAt path rules m).refusal? = some e := refused
    rw [walk, Dict.weight_mapping]
    simp only [Walked.refusal?_after, here, Walked.visited_map, Walked.visited_after_visit,
      Rule.visited_applyAllAt, List.length_singleton]
    omega
  case mapping =>
    intro path m applied accepted ih
    have here : (Rule.applyAllAt path rules m).refusal? = none := accepted
    have kept := Rule.fieldsWeight_applyAllAt path rules m
    rw [walk, Dict.weight_mapping]
    simp only [Walked.refusal?_after, here, Walked.left_after, Walked.visited_after_events,
      Walked.visited_map, Walked.visited_after_visit, Rule.visited_applyAllAt, List.cons_append,
      List.nil_append, List.length_cons]
    rw [Walked.left_after] at ih
    simp only [Dict.fieldsWeight] at kept ⊢
    omega
  case noEntry =>
    intro path
    rw [walkEntries]
    exact Nat.zero_le _
  case entry =>
    intro path key value rest ihValue ihRest
    rw [walkEntries, entriesWeight]
    refine Nat.le_trans (Walked.length_visited_andThen_le _ _ _) ?_
    rw [Walked.visited_map]
    omega
  case noItem =>
    intro path index
    rw [walkItems]
    exact Nat.zero_le _
  case item =>
    intro path index item rest ihItem ihRest
    rw [walkItems, itemsWeight]
    refine Nat.le_trans (Walked.length_visited_andThen_le _ _ _) ?_
    rw [Walked.visited_map]
    omega

/-! ## Each mapping once -/

theorem visited_walkEntries {path : Path} {entries : List (String × Node)}
    (accepted : ∀ entry ∈ entries, (entry.2.transform rules).refusal? = none)
    (each : ∀ entry ∈ entries,
      (entry.2.transform rules).visited = (entry.2.transform rules).left.mappingPaths) :
    (walkEntries rules path entries).visited =
      (mappingPathsEntries (walkEntries rules path entries).left).map (path ++ ·) := by
  rw [left_walkEntries accepted]
  induction entries with
  | nil => rw [walkEntries]; rfl
  | cons entry rest ih =>
      obtain ⟨first, others⟩ := List.forall_mem_cons.mp accepted
      obtain ⟨here, later⟩ := List.forall_mem_cons.mp each
      rw [walkEntries, walk_eq_below, Walked.visited_andThen (by simpa using first),
        Walked.visited_map, ih others later, Walked.visited_below, here, List.map_cons,
        mappingPathsEntries, List.map_append, List.map_map]
      simp [Function.comp_def]

theorem visited_walkItems {path : Path} {index : Nat} {items : List Node}
    (accepted : ∀ item ∈ items, (item.transform rules).refusal? = none)
    (each : ∀ item ∈ items,
      (item.transform rules).visited = (item.transform rules).left.mappingPaths) :
    (walkItems rules path index items).visited =
      (mappingPathsItems index (walkItems rules path index items).left).map (path ++ ·) := by
  rw [left_walkItems accepted]
  induction items generalizing index with
  | nil => rw [walkItems]; rfl
  | cons item rest ih =>
      obtain ⟨first, others⟩ := List.forall_mem_cons.mp accepted
      obtain ⟨here, later⟩ := List.forall_mem_cons.mp each
      rw [walkItems, walk_eq_below, Walked.visited_andThen (by simpa using first),
        Walked.visited_map, ih others later, Walked.visited_below, here, List.map_cons,
        mappingPathsItems, List.map_append, List.map_map]
      simp [Function.comp_def]

theorem visited_transform {document : Node}
    (accepted : (document.transform rules).refusal? = none) :
    (document.transform rules).visited = (document.transform rules).left.mappingPaths := by
  induction document using transform_induction rules with
  | scalar value =>
      rw [transform_scalar, Walked.visited_still, Walked.still, mappingPaths]
  | sequence items ih =>
      have inside := refusal?_transform_sequence.mp accepted
      have each := fun item member => ih item member (inside item member)
      rw [transform, walk, Walked.visited_map, Walked.left_map, mappingPaths,
        visited_walkItems inside each]
      exact List.map_id _
  | mapping m ih =>
      obtain ⟨⟨changed, done⟩, inside⟩ := refusal?_transform_mapping.mp accepted
      have each := fun entry member => ih ⟨changed, done⟩ entry member (inside entry member)
      let values := walkEntries rules [] (Rule.applyAll rules m).left.entries
      have below : values.visited = mappingPathsEntries values.left :=
        (visited_walkEntries inside each).trans (List.map_id _)
      have root : ((Node.mapping m).transform rules).visited = [] :: values.visited := by
        rw [transform_mapping_of_ok done]
        change [] :: (values.after (Rule.applyAllAt [] rules m).events).visited = _
        rw [Walked.visited_after_events, Rule.visited_applyAllAt, List.nil_append]
      rw [root, below, transform_mapping_of_ok done, Walked.left_after, Walked.left_map,
        mappingPaths]

/-- A walk ends: its calls are nested no deeper than the document weighs, whatever would be called
    below that, and it comes to no more mappings than that. A walk that is not refused has come to
    every mapping of the document that it leaves, in the order of the document and once to each. -/
theorem transform_visits {document : Node} (keyed : document.WellKeyed) :
    (∀ inner, (walkBy rules)^[document.weight + 1] inner [] document = document.transform rules) ∧
      (document.transform rules).visited.length ≤ document.weight ∧
      ((document.transform rules).refusal? = none →
        (document.transform rules).visited = (document.transform rules).left.mappingPaths ∧
          (document.transform rules).visited.Nodup ∧
          ∀ path, path ∈ (document.transform rules).visited ↔
            ∃ m, (document.transform rules).left.at? path = some (.mapping m)) := by
  refine ⟨fun inner => iterate_walkBy inner [] (Nat.lt_succ_self _),
    length_visited_walk_le rules [] document, fun accepted => ?_⟩
  have left : (document.transform rules).left.WellKeyed := wellKeyed_left_transform keyed
  rw [visited_transform accepted]
  exact ⟨rfl, nodup_mappingPaths left, mem_mappingPaths_iff left⟩

theorem transform_visits_threshold :
    let document := Node.mapping ⟨[("kind", .string "MachineHealthCheck"),
      ("spec", .mapping ⟨[("maxUnhealthy", .string "40%")]⟩)]⟩
    let remediation : Path := [.key "spec", .key "remediation"]
    document.WellKeyed ∧ (document.transform Rule.all).refusal? = none ∧
      (document.transform Rule.all).visited =
        [[], [.key "spec"], remediation, remediation ++ [.key "triggerIf"]] ∧
      (document.transform Rule.all).visited.Nodup := by
  intro document remediation
  have keyed : document.WellKeyed := by
    simp [document, wellKeyed_mapping, Dict.keys, wellKeyed_scalar]
  let before : Mapping :=
    ⟨[("kind", .string "MachineHealthCheck"), ("spec", .mapping ⟨[("maxUnhealthy", .string "40%")]⟩)]⟩
  obtain ⟨done, left⟩ : (document.transform Rule.all).outcome = .ok true ∧
      (document.transform Rule.all).left = .mapping (Rule.applyAll Rule.all before).left :=
    transform_of_settled_values (by decide +kernel) (by decide +kernel)
  have accepted : (document.transform Rule.all).refusal? = none :=
    (Walked.outcome_eq_ok_iff.mp done).1
  obtain ⟨order, once, -⟩ := (transform_visits keyed).2.2 accepted
  refine ⟨keyed, accepted, ?_, once⟩
  rw [order, left]
  decide +kernel

end Node

end ManifestMigration
