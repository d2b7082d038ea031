import ManifestMigration.Rule.Basic

/-! # Argument lists

A mapping of extra arguments becomes the list of its entries, each a mapping of `name` and `value`,
in the order of the keys. A list stays as it is, and a leaf is refused.
-/

namespace ManifestMigration.ArgumentList

/-- The keys under which extra arguments stand, in the order in which they are looked at. -/
def keys : List String := Rule.triggers .argumentList

def item (name : String) (value : Node) : Node :=
  .mapping ⟨[("name", .string name), ("value", value)]⟩

def items (arguments : Mapping) : List Node :=
  arguments.entries.map fun (name, value) => item name value

def convertAt (key : String) (m : Mapping) : Revision :=
  match m.get? key with
  | none => .unchanged m
  | some (.mapping arguments) => ⟨m.insert key (.sequence (items arguments)), .ok true⟩
  | some (.sequence _) => .unchanged m
  | some (.scalar value) => ⟨m, .error ⟨key, value.shape⟩⟩

/-- Convert the arguments under some keys, one key after the other. -/
def convertKeys : List String → Mapping → Revision
  | [], m => .unchanged m
  | key :: rest, m => (convertAt key m).andThen (convertKeys rest)

def convert (m : Mapping) : Revision := convertKeys keys m

/-- What there is to say about the arguments under some keys; a refusal ends it. -/
def notesAt (m : Mapping) : List String → List Note
  | [] => []
  | key :: rest =>
    match m.get? key with
    | some (.mapping arguments) => .argumentsListed key arguments.size :: notesAt m rest
    | some (.scalar _) => []
    | _ => notesAt m rest

def notes (m : Mapping) : List Note := notesAt m keys

end ManifestMigration.ArgumentList
