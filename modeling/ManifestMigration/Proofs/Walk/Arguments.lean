import ManifestMigration.Proofs.Rule.Order
import ManifestMigration.Proofs.Walk.Firings
import ManifestMigration.Proofs.Walk.Origin

/-! # What a walk makes of arguments

The rules turn arguments into a list before the walk comes to them, so no rule sees a mapping whose
keys are the names of arguments. The items of the list are mappings with a name and a value, and in
those no rule finds anything. So all that a walk does with arguments it does with their values, as
if each of them were a document (`arguments_listed`).
-/

namespace ManifestMigration

variable {rules : List Rule} {m arguments : Mapping} {key name : String} {value : Node}

/-- The list of arguments with what walks leave of their values. -/
def Dict.listed (rules : List Rule) (arguments : Mapping) : List Node :=
  arguments.entries.map fun (name, value) =>
    .mapping ⟨[("name", .string name), ("value", (value.transform rules).left)]⟩

namespace ArgumentList

def argument? : Node → Option (String × Node)
  | .mapping fields =>
    match fields.string? "name", fields.get? "value" with
    | some name, some value => some (name, value)
    | _, _ => none
  | _ => none

/-- The arguments that a list stands for. -/
def readBack (items : List Node) : Mapping := .ofList (items.filterMap argument?)

/-! ## One item -/

/-- No rule looks at the name or the value of an item. -/
theorem settled_item (rule : Rule) (name : String) (value : Node) :
    rule.Settled ⟨[("name", .string name), ("value", value)]⟩ := by
  have nothing : rule.Settled .empty := by cases rule <;> decide
  have apart : ∀ key ∈ rule.reads, key ≠ "name" ∧ key ≠ "value" := by cases rule <;> decide
  refine nothing.congr fun key member => ?_
  obtain ⟨notName, notValue⟩ := apart key member
  simp [Dict.get?, Dict.empty, notName, notValue]

theorem applyAll_item (rules : List Rule) (name : String) (value : Node) :
    Rule.applyAll rules ⟨[("name", .string name), ("value", value)]⟩ =
      .unchanged ⟨[("name", .string name), ("value", value)]⟩ :=
  Rule.settling.run_of_settled fun rule _ => settled_item rule name value

theorem walkEntries_item (rules : List Rule) (name : String) (value : Node) :
    Node.walkEntries rules [] [("name", .string name), ("value", value)] =
      ((value.transform rules).below [.key "value"]).map fun left =>
        [("name", .string name), ("value", left)] := by
  have named : Node.walk rules [.key "name"] (.string name) = .still (.string name) := by
    rw [Node.string, Node.walk]
  rw [Node.walkEntries, List.nil_append, named, Node.walkEntries, Node.walkEntries, List.nil_append,
    Node.walk_eq_below rules [.key "value"]]
  cases refused : ((value.transform rules).below [.key "value"]).refusal? with
  | none => simp [Walked.andThen, Walked.still, Walked.after, Walked.map, refused]
  | some e => simp [Walked.andThen, Walked.still, Walked.after, Walked.map, refused]

/-- The walk through an item is the walk through its value, seen from above. -/
theorem transform_item (rules : List Rule) (name : String) (value : Node) :
    (item name value).transform rules =
      (((value.transform rules).below [.key "value"]).map (item name)).after (.visited [] ::
        (Rule.applyAllAt [] rules ⟨[("name", .string name), ("value", value)]⟩).events) := by
  have still := applyAll_item rules name value
  rw [item, Node.transform_mapping_of_ok (congrArg Revision.outcome still), still,
    Revision.unchanged, walkEntries_item]
  rfl

theorem left_transform_item :
    ((item name value).transform rules).left = item name (value.transform rules).left := by
  rw [transform_item]
  rfl

theorem refusal?_transform_item :
    ((item name value).transform rules).refusal? =
      (value.transform rules).refusal?.map (·.below [.key "value"]) := by
  rw [transform_item]
  rfl

theorem of_mem_firings_transform_item {rule : Rule} {place : Path}
    (fires : (rule, place) ∈ ((item name value).transform rules).firings) :
    ∃ rest, place = .key "value" :: rest ∧ (rule, rest) ∈ (value.transform rules).firings := by
  have quiet : (rule, place) ∉
      (Rule.applyAllAt [] rules ⟨[("name", .string name), ("value", value)]⟩).firings :=
    Walked.notMem_firings
      (Rule.applyAllAt_of_ok [] (congrArg Revision.outcome (applyAll_item rules name value))).2
  rw [Walked.mem_firings] at quiet fires
  rw [transform_item, Walked.after, List.cons_append, List.mem_cons, List.mem_append] at fires
  rcases fires with same | here | below
  · cases same
  · exact absurd here quiet
  · exact Walked.mem_firings_below.mp (Walked.mem_firings.mpr below)

/-! ## The whole list -/

/-- Rules that refuse nothing leave the list of the arguments under their key. -/
theorem get?_left_applyAll (keyed : m.WellKeyed) (named : key ∈ keys)
    (stored : m.get? key = some (.mapping arguments)) (member : .argumentList ∈ rules)
    {changed : Bool} (done : (Rule.applyAll rules m).outcome = .ok changed) :
    (Rule.applyAll rules m).left.get? key = some (.sequence (items arguments)) := by
  have alone : "kind" ∉ Rule.reads .argumentList := by decide
  have converts : (Rule.applyAll rules m).left.get? key = (convert m).left.get? key :=
    Rule.get?_left_run_of_reads keyed member
      (fun _ differs => .inl (Rule.notMem_writes_of_ne alone differs)) done named
  rcases get?_left_convert m key with same | ⟨-, arguments', found, converted⟩
  · -- The mapping that stood there is not settled.
    have settled : Settled (Rule.applyAll rules m).left :=
      Rule.settling.run_settles keyed done _ member
    cases settled key named _ (converts.trans (same.trans stored))
  · cases found.symm.trans stored
    exact converts.trans converted

theorem refusal?_transform_items :
    ((Node.sequence (items arguments)).transform rules).refusal? = none ↔
      ∀ entry ∈ arguments.entries, (entry.2.transform rules).refusal? = none := by
  rw [Node.refusal?_transform_sequence, items, List.forall_mem_map]
  refine forall₂_congr fun entry _ => ?_
  change ((item entry.1 entry.2).transform rules).refusal? = none ↔ _
  rw [refusal?_transform_item, Option.map_eq_none_iff]

theorem left_transform_items
    (accepted : ((Node.sequence (items arguments)).transform rules).refusal? = none) :
    ((Node.sequence (items arguments)).transform rules).left =
      .sequence (arguments.listed rules) := by
  rw [Node.left_transform_sequence accepted, items, List.map_map]
  refine congrArg Node.sequence (List.map_congr_left fun entry _ => ?_)
  exact left_transform_item

theorem readBack_listed (distinct : arguments.keys.Nodup) :
    readBack (arguments.listed rules) = arguments.descend rules := by
  have read : (arguments.listed rules).filterMap argument? = (arguments.descend rules).entries := by
    rw [Dict.listed, List.filterMap_map, Dict.descend, Dict.mapValues, ← List.filterMap_eq_map]
    rfl
  rw [readBack, read, Dict.ofList_of_nodup]
  rw [← Dict.keys, Dict.descend, Dict.keys_mapValues]
  exact distinct

/-! ## Below the key -/

section Below

variable (keyed : m.WellKeyed) (named : key ∈ keys)
  (stored : m.get? key = some (.mapping arguments)) (member : .argumentList ∈ rules)

include keyed named stored member

theorem of_mem_firings_below {rule : Rule} {place : Path}
    (fires : (rule, .key key :: place) ∈ ((Node.mapping m).transform rules).firings) :
    ∃ (i : Nat) (name : String) (value : Node) (rest : Path),
      arguments.entries[i]? = some (name, value) ∧ place = .index i :: .key "value" :: rest ∧
        (rule, rest) ∈ (value.transform rules).firings := by
  obtain ⟨⟨changed, done⟩, key', list, member', same, inList⟩ :=
    Node.of_mem_firings_transform_mapping fires
  cases same
  have distinct : (Rule.applyAll rules m).left.keys.Nodup :=
    (Rule.wellKeyed_left_applyAll keyed).nodup
  cases (Dict.get?_of_mem distinct member').symm.trans
    (get?_left_applyAll keyed named stored member done)
  obtain ⟨i, argument, below, found, rfl, inItem⟩ := Node.of_mem_firings_transform_sequence inList
  obtain ⟨name, value, entry, rfl⟩ := getElem?_items found
  obtain ⟨rest, rfl, inValue⟩ := of_mem_firings_transform_item inItem
  exact ⟨i, name, value, rest, entry, rfl, inValue⟩

theorem refused_below {err : TransformError} {place : Path}
    (refused : ((Node.mapping m).transform rules).refusal? = some err)
    (below : err.path = .key key :: place) :
    ∃ (i : Nat) (name : String) (value : Node) (inner : TransformError),
      arguments.entries[i]? = some (name, value) ∧ (value.transform rules).refusal? = some inner ∧
        err = inner.below [.key key, .index i, .key "value"] := by
  cases outcome : (Rule.applyAll rules m).outcome with
  | error e =>
      obtain ⟨rule, here, -⟩ := Node.transform_mapping_of_error outcome
      cases refused.symm.trans here
      cases below
  | ok changed =>
      obtain ⟨key', list, inList, -, found, refusedList, rfl, -⟩ :=
        Node.refused_transform_mapping keyed outcome refused
      cases below
      cases found.symm.trans (get?_left_applyAll keyed named stored member outcome)
      obtain ⟨i, argument, inItem, -, found, refusedItem, rfl, -⟩ :=
        Node.refused_transform_sequence refusedList
      obtain ⟨name, value, entry, rfl⟩ := getElem?_items found
      rw [refusal?_transform_item] at refusedItem
      obtain ⟨inner, refusedValue, rfl⟩ := Option.map_eq_some_iff.mp refusedItem
      exact ⟨i, name, value, inner, entry, refusedValue, rfl⟩

theorem listed_of_accepted
    (accepted : ((Node.mapping m).transform rules).refusal? = none) :
    (∀ entry ∈ arguments.entries, (entry.2.transform rules).refusal? = none) ∧
      ((Node.mapping m).transform rules).left.at? [.key key] =
        some (.sequence (arguments.listed rules)) := by
  obtain ⟨⟨changed, done⟩, inside⟩ := Node.refusal?_transform_mapping.mp accepted
  have found := get?_left_applyAll keyed named stored member done
  have list : ((Node.sequence (items arguments)).transform rules).refusal? = none :=
    inside _ (Dict.mem_of_get? found)
  refine ⟨refusal?_transform_items.mp list, ?_⟩
  rw [Node.left_transform_mapping accepted, Node.at?_field, Dict.walked, Dict.descend,
    Dict.get?_mapValues, found, Option.map_some, left_transform_items list]

end Below

/-- A document of arguments alone is refused only for a value. -/
theorem refusal?_transform_alone (named : key ∈ keys) :
    ((Node.mapping ⟨[(key, .mapping arguments)]⟩).transform Rule.all).refusal? = none ↔
      ∀ entry ∈ arguments.entries, (entry.2.transform Rule.all).refusal? = none := by
  have list : Rule.applyAll Rule.all ⟨[(key, .mapping arguments)]⟩ =
      ⟨⟨[(key, .sequence (items arguments))]⟩, .ok true⟩ := by
    rcases List.mem_cons.mp named with rfl | last
    · rfl
    · cases List.mem_singleton.mp last
      rfl
  rw [Node.refusal?_transform_mapping, list]
  simp [refusal?_transform_items]

end ArgumentList

/-! ## Documents -/

/-- What a walk with the built-in rules does with the arguments under a key of a mapping. -/
structure ArgumentsListed (key : String) (m arguments : Mapping) : Prop where
  values : ((Node.mapping m).transform Rule.all).refusal? = none →
    ∀ entry ∈ arguments.entries, (entry.2.transform Rule.all).refusal? = none
  listed : ((Node.mapping m).transform Rule.all).refusal? = none →
    ((Node.mapping m).transform Rule.all).left.at? [.key key] =
      some (.sequence (arguments.listed Rule.all))
  distinct : arguments.keys.Nodup
  keysBack : (ArgumentList.readBack (arguments.listed Rule.all)).keys = arguments.keys
  /-- What fires below the key fires in the walk through a value alone. -/
  fires : ∀ rule place,
    (rule, .key key :: place) ∈ ((Node.mapping m).transform Rule.all).firings →
      ∃ (i : Nat) (name : String) (value : Node) (rest : Path),
        arguments.entries[i]? = some (name, value) ∧ place = .index i :: .key "value" :: rest ∧
          (rule, rest) ∈ (value.transform Rule.all).firings
  /-- What is refused below the key is refused in the walk through a value alone. -/
  refuses : ∀ err place, ((Node.mapping m).transform Rule.all).refusal? = some err →
    err.path = .key key :: place →
      ∃ (i : Nat) (name : String) (value : Node) (inner : TransformError),
        arguments.entries[i]? = some (name, value) ∧
          (value.transform Rule.all).refusal? = some inner ∧
            err = inner.below [.key key, .index i, .key "value"]
  alone : ((Node.mapping ⟨[(key, .mapping arguments)]⟩).transform Rule.all).refusal? = none ↔
    ∀ entry ∈ arguments.entries, (entry.2.transform Rule.all).refusal? = none

/-- Arguments become a list without loss, and their names are no keys for any rule. -/
theorem Node.arguments_listed (keyed : m.WellKeyed) (named : key ∈ ["kubeletExtraArgs", "extraArgs"])
    (stored : m.get? key = some (.mapping arguments)) : ArgumentsListed key m arguments where
  values accepted :=
    (ArgumentList.listed_of_accepted keyed named stored (Rule.mem_all _) accepted).1
  listed accepted :=
    (ArgumentList.listed_of_accepted keyed named stored (Rule.mem_all _) accepted).2
  distinct := Dict.WellKeyed.nodup (keyed.of_get? stored)
  keysBack := by
    have distinct : arguments.keys.Nodup := Dict.WellKeyed.nodup (keyed.of_get? stored)
    rw [ArgumentList.readBack_listed distinct, Dict.descend, Dict.keys_mapValues]
  fires _ _ fires := ArgumentList.of_mem_firings_below keyed named stored (Rule.mem_all _) fires
  refuses _ _ refused below :=
    ArgumentList.refused_below keyed named stored (Rule.mem_all _) refused below
  alone := ArgumentList.refusal?_transform_alone named

/-- The names of these arguments are keys that rules look for. -/
theorem Node.arguments_listed_names :
    let arguments : Mapping := ⟨[("kind", .string "MachineHealthCheck"),
      ("spec", .mapping ⟨[("maxUnhealthy", .string "40%")]⟩),
      ("controlPlaneEndpoint", .mapping ⟨[("host", .string "")]⟩), ("extraArgs", .string "4")]⟩
    let m : Mapping := ⟨[("name", .string "demo"), ("extraArgs", .mapping arguments)]⟩
    m.WellKeyed ∧ "extraArgs" ∈ ["kubeletExtraArgs", "extraArgs"] ∧
      m.get? "extraArgs" = some (.mapping arguments) ∧ ArgumentsListed "extraArgs" m arguments ∧
        ((Node.mapping m).transform Rule.all).left.at? [.key "extraArgs"] =
          some (.sequence (arguments.listed Rule.all)) ∧
        (ArgumentList.readBack (arguments.listed Rule.all)).keys =
          ["kind", "spec", "controlPlaneEndpoint", "extraArgs"] := by
  intro arguments m
  have keyed : m.WellKeyed := by
    simp [m, arguments, Dict.WellKeyed, Node.wellKeyed_mapping, Dict.keys, Node.wellKeyed_scalar]
  have listed : ArgumentsListed "extraArgs" m arguments :=
    arguments_listed keyed (by decide) rfl
  have done : ((Node.mapping m).transform Rule.all).outcome = .ok true :=
    (transform_of_settled_values (by decide +kernel) (by decide +kernel)).1
  exact ⟨keyed, by decide, rfl, listed, listed.listed (Walked.outcome_eq_ok_iff.mp done).1,
    listed.keysBack⟩

end ManifestMigration
