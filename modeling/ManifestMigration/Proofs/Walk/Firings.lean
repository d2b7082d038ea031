import ManifestMigration.Proofs.Walk.Parts

/-! # Where rules fire

A walk applies rules to a mapping at the path of the mapping, and everything else that fires fires
in the walk through a part. So a rule that fires below a step fires in the walk through the part
that the step leads to, at what is left of the path. This holds of walks that are refused as well.
-/

namespace ManifestMigration

def Event.firing? : Event → Option (Rule × Path)
  | .fired rule path => some (rule, path)
  | _ => none

namespace Walked

variable {α β : Type} {rule : Rule} {place : Path}

/-- The rules that fired, each with the path of the mapping that it changed. -/
def firings (x : Walked α) : List (Rule × Path) := x.events.filterMap Event.firing?

theorem mem_firings {x : Walked α} :
    (rule, place) ∈ x.firings ↔ .fired rule place ∈ x.events := by
  simp only [firings, List.mem_filterMap]
  constructor
  · rintro ⟨event, member, fires⟩
    cases event with
    | fired rule' place' =>
        cases fires
        exact member
    | visited path => cases fires
    | noted note => cases fires
  · exact fun member => ⟨_, member, rfl⟩

/-- A walk that changes nothing is one on which nothing fires. -/
theorem notMem_firings {x : Walked α} (unchanged : x.changed = false) :
    (rule, place) ∉ x.firings := by
  intro fires
  have fired : rule ∈ x.fired := List.mem_filterMap.mpr ⟨_, mem_firings.mp fires, rfl⟩
  have none : x.fired = [] := by simpa [changed] using unchanged
  rw [none] at fired
  cases fired

theorem of_mem_firings_andThen {x : Walked α} {stop : α → β} {go : α → Walked β}
    (fires : (rule, place) ∈ (x.andThen stop go).firings) :
    (rule, place) ∈ x.firings ∨ (rule, place) ∈ (go x.left).firings := by
  rw [mem_firings] at fires ⊢
  rw [mem_firings]
  cases refused : x.refusal? with
  | none =>
      simp only [andThen, refused, after] at fires
      exact List.mem_append.mp fires
  | some e =>
      simp only [andThen, refused] at fires
      exact .inl fires

theorem mem_firings_below {above : Path} {x : Walked α} :
    (rule, place) ∈ (x.below above).firings ↔
      ∃ rest, place = above ++ rest ∧ (rule, rest) ∈ x.firings := by
  simp only [mem_firings, below, List.mem_map]
  constructor
  · rintro ⟨event, member, lifted⟩
    cases event with
    | fired rule' rest =>
        cases lifted
        exact ⟨rest, rfl, member⟩
    | visited path => cases lifted
    | noted note => cases lifted
  · rintro ⟨rest, rfl, member⟩
    exact ⟨_, member, rfl⟩

end Walked

variable {rules : List Rule} {rule : Rule} {place path : Path} {m : Mapping}

theorem Rule.eq_of_mem_firings_applyAllAt
    (fires : (rule, place) ∈ (applyAllAt path rules m).firings) : place = path := by
  induction rules generalizing m with
  | nil => cases fires
  | cons first rest ih =>
      rcases Walked.of_mem_firings_andThen fires with here | later
      · rw [Walked.mem_firings, applyAt] at here
        split at here
        · simp at here
        · next left fired _ => cases fired <;> simp_all
      · exact ih later

namespace Node

theorem of_mem_firings_walkEntries {entries : List (String × Node)}
    (fires : (rule, place) ∈ (walkEntries rules path entries).firings) :
    ∃ key value rest, (key, value) ∈ entries ∧ place = path ++ .key key :: rest ∧
      (rule, rest) ∈ (value.transform rules).firings := by
  induction entries with
  | nil =>
      rw [walkEntries] at fires
      cases fires
  | cons entry others ih =>
      obtain ⟨key, value⟩ := entry
      rw [walkEntries, walk_eq_below] at fires
      rcases Walked.of_mem_firings_andThen fires with here | later
      · obtain ⟨rest, rfl, inside⟩ := Walked.mem_firings_below.mp here
        exact ⟨key, value, rest, List.mem_cons_self, by simp, inside⟩
      · obtain ⟨key', value', rest, member, rfl, inside⟩ := ih later
        exact ⟨key', value', rest, List.mem_cons_of_mem _ member, rfl, inside⟩

theorem of_mem_firings_walkItems {index : Nat} {items : List Node}
    (fires : (rule, place) ∈ (walkItems rules path index items).firings) :
    ∃ (i : Nat) (item : Node) (rest : Path), items[i]? = some item ∧
      place = path ++ .index (index + i) :: rest ∧
        (rule, rest) ∈ (item.transform rules).firings := by
  induction items generalizing index with
  | nil =>
      rw [walkItems] at fires
      cases fires
  | cons item others ih =>
      rw [walkItems, walk_eq_below] at fires
      rcases Walked.of_mem_firings_andThen fires with here | later
      · obtain ⟨rest, rfl, inside⟩ := Walked.mem_firings_below.mp here
        exact ⟨0, item, rest, rfl, by simp, inside⟩
      · obtain ⟨i, item', rest, stored, rfl, inside⟩ := ih later
        exact ⟨i + 1, item', rest, stored, by rw [Nat.add_assoc, Nat.add_comm 1 i], inside⟩

theorem of_mem_firings_transform_sequence {items : List Node}
    (fires : (rule, place) ∈ ((Node.sequence items).transform rules).firings) :
    ∃ (i : Nat) (item : Node) (rest : Path), items[i]? = some item ∧ place = .index i :: rest ∧
      (rule, rest) ∈ (item.transform rules).firings := by
  rw [transform, walk] at fires
  obtain ⟨i, item, rest, stored, rfl, inside⟩ := of_mem_firings_walkItems fires
  exact ⟨i, item, rest, stored, by rw [List.nil_append, Nat.zero_add], inside⟩

/-- What fires below a mapping fires in one of the values that the rules leave there. -/
theorem of_mem_firings_transform_mapping {step : Step}
    (fires : (rule, step :: place) ∈ ((Node.mapping m).transform rules).firings) :
    (∃ changed, (Rule.applyAll rules m).outcome = .ok changed) ∧
      ∃ key value, (key, value) ∈ (Rule.applyAll rules m).left.entries ∧ step = .key key ∧
        (rule, place) ∈ (value.transform rules).firings := by
  have notHere : (rule, step :: place) ∉ (Rule.applyAllAt [] rules m).firings := fun here =>
    List.cons_ne_nil _ _ (Rule.eq_of_mem_firings_applyAllAt here)
  rw [Walked.mem_firings] at notHere fires
  cases outcome : (Rule.applyAll rules m).outcome with
  | error e =>
      obtain ⟨culprit, -, -, refused⟩ := Rule.applyAllAt_of_error [] outcome
      rw [transform, walk] at fires
      simp [Walked.after, refused, Walked.map, notHere] at fires
  | ok changed =>
      rw [transform_mapping_of_ok outcome] at fires
      simp only [Walked.after, List.cons_append, List.mem_cons, List.mem_append, reduceCtorEq,
        notHere, false_or] at fires
      obtain ⟨key, value, rest, member, same, inside⟩ :=
        of_mem_firings_walkEntries (Walked.mem_firings.mpr fires)
      cases same
      exact ⟨⟨changed, rfl⟩, key, value, member, rfl, inside⟩

end Node

end ManifestMigration
