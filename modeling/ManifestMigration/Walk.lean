import ManifestMigration.Recorded
import ManifestMigration.Rule.Weight

/-! # Walking a document

A walk goes through a document from the root down. On every mapping it applies the rules in their
order, and then it goes on with the values that they left, in the order of the keys. The first
refusal ends the walk, and what has been changed by then stays changed. The walk ends because no rule
makes a document heavier.
-/

namespace ManifestMigration

/-- What a walk through a part of a document comes to. -/
structure Walked (α : Type) where
  /-- What happened, oldest event first. -/
  events : List Event
  /-- The part as the walk leaves it. -/
  left : α
  /-- The refusal that ended the walk, if one did. -/
  refusal? : Option TransformError

namespace Walked

variable {α β : Type}

/-- A walk on which nothing happens. -/
def still (a : α) : Walked α := ⟨[], a, none⟩

/-- See what a walk leaves as a part of something larger. -/
def map (f : α → β) (x : Walked α) : Walked β := ⟨x.events, f x.left, x.refusal?⟩

def after (events : List Event) (x : Walked α) : Walked α := ⟨events ++ x.events, x.left, x.refusal?⟩

/-- Go on with what a walk leaves, unless it was refused. In that case what it leaves stands beside
    what is not walked any more. -/
def andThen (x : Walked α) (stop : α → β) (go : α → Walked β) : Walked β :=
  match x.refusal? with
  | some e => ⟨x.events, stop x.left, some e⟩
  | none => (go x.left).after x.events

/-- What the walk leaves when nothing is refused. -/
def result (x : Walked α) : Except TransformError α :=
  match x.refusal? with
  | some e => .error e
  | none => .ok x.left

def fired (x : Walked α) : List Rule := x.events.filterMap Event.firedRule?

def visited (x : Walked α) : List Path := x.events.filterMap Event.visitedPath?

def changed (x : Walked α) : Bool := !x.fired.isEmpty

end Walked

def Rule.applyAt (path : Path) (rule : Rule) (m : Mapping) : Walked Mapping :=
  match rule.apply m with
  | ⟨left, .error cause⟩ => ⟨(rule.notes m).map .noted, left, some ⟨rule, path, cause⟩⟩
  | ⟨left, .ok fired⟩ =>
    ⟨(rule.notes m).map .noted ++ if fired then [.fired rule path] else [], left, none⟩

def Rule.applyAllAt (path : Path) : List Rule → Mapping → Walked Mapping
  | [], m => .still m
  | rule :: rest, m => (rule.applyAt path m).andThen (fun left => left) (applyAllAt path rest)

theorem Rule.left_applyAt (path : Path) (rule : Rule) (m : Mapping) :
    (rule.applyAt path m).left = (rule.apply m).left := by
  unfold applyAt
  split <;> simp_all

theorem Rule.fieldsWeight_applyAllAt (path : Path) (rules : List Rule) (m : Mapping) :
    (applyAllAt path rules m).left.fieldsWeight ≤ m.fieldsWeight := by
  induction rules generalizing m with
  | nil => exact Nat.le_refl _
  | cons rule rest ih =>
    have h : (rule.applyAt path m).left.fieldsWeight ≤ m.fieldsWeight :=
      left_applyAt path rule m ▸ fieldsWeight_apply_le rule m
    simp only [applyAllAt, Walked.andThen]
    split
    · exact h
    · exact Nat.le_trans (ih _) h

namespace Node

mutual

def walk (rules : List Rule) (path : Path) : Node → Walked Node
  | .scalar value => .still (.scalar value)
  | .sequence items => (walkItems rules path 0 items).map .sequence
  | .mapping m =>
    let applied := (Rule.applyAllAt path rules m).after [.visited path]
    match applied.refusal? with
    | some _ => applied.map .mapping
    | none =>
      ((walkEntries rules path applied.left.entries).map fun entries => .mapping ⟨entries⟩).after
        applied.events
termination_by node => (node.weight, sizeOf node)
decreasing_by
  · simp only [weight]; exact Prod.Lex.left _ _ (by omega)
  · have hw := Rule.fieldsWeight_applyAllAt path rules m
    rw [Dict.weight_mapping]
    simp only [Dict.fieldsWeight, Walked.after] at hw ⊢
    exact Prod.Lex.left _ _ (by omega)

def walkEntries (rules : List Rule) (path : Path) :
    List (String × Node) → Walked (List (String × Node))
  | [] => .still []
  | (key, value) :: rest =>
    (walk rules (path ++ [.key key]) value).andThen (fun left => (key, left) :: rest) fun left =>
      (walkEntries rules path rest).map ((key, left) :: ·)
termination_by entries => (entriesWeight entries, sizeOf entries)
decreasing_by
  · exact Prod.Lex.right' _ (by simp only [entriesWeight]; omega) (by decreasing_tactic)
  · exact Prod.Lex.right' _ (by simp only [entriesWeight]; omega) (by decreasing_tactic)

/-- Walk through the items of a sequence that lies at a path, from the one with this index on. -/
def walkItems (rules : List Rule) (path : Path) (index : Nat) :
    List Node → Walked (List Node)
  | [] => .still []
  | item :: rest =>
    (walk rules (path ++ [.index index]) item).andThen (· :: rest) fun left =>
      (walkItems rules path (index + 1) rest).map (left :: ·)
termination_by items => (itemsWeight items, sizeOf items)
decreasing_by
  · exact Prod.Lex.right' _ (by simp only [itemsWeight]; omega) (by decreasing_tactic)
  · exact Prod.Lex.right' _ (by simp only [itemsWeight]; omega) (by decreasing_tactic)

end

def transform (rules : List Rule) (document : Node) : Walked Node :=
  walk rules [] document

end Node

end ManifestMigration
