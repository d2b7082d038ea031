import ManifestMigration.Rule.Basic

/-! # Recorded results

What happens while documents are walked is recorded with the result. The record is kept when there
is no result: it then tells what happened before the error.
-/

namespace ManifestMigration

inductive Event where
  /-- The rules are about to be applied to the mapping at a path. -/
  | visited (path : Path)
  /-- A rule makes a remark. -/
  | noted (note : Note)
  /-- A rule changed the mapping at a path. -/
  | fired (rule : Rule) (path : Path)
  deriving DecidableEq, Repr

def Event.firedRule? : Event → Option Rule
  | .fired rule _ => some rule
  | _ => none

def Event.visitedPath? : Event → Option Path
  | .visited path => some path
  | _ => none

/-- A result with the events that led to it, oldest first. -/
structure Recorded (ε α : Type) where
  events : List Event
  result : Except ε α

namespace Recorded

variable {ε α β : Type}

def pure (a : α) : Recorded ε α := ⟨[], .ok a⟩

/-- Go on with a result. An error ends everything that would follow. -/
def bind (x : Recorded ε α) (f : α → Recorded ε β) : Recorded ε β :=
  match x with
  | ⟨events, .error e⟩ => ⟨events, .error e⟩
  | ⟨events, .ok a⟩ => ⟨events ++ (f a).events, (f a).result⟩

/-- Go on with a result by a function that does nothing else. -/
def map (f : α → β) (x : Recorded ε α) : Recorded ε β := ⟨x.events, x.result.map f⟩

def after (events : List Event) (x : Recorded ε α) : Recorded ε α := ⟨events ++ x.events, x.result⟩

end Recorded

end ManifestMigration
