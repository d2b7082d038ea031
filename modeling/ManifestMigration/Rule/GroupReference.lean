import ManifestMigration.Rule.Basic
import ManifestMigration.Schema

/-! # References by group

A reference names the API group of what it points to, not a version. A reference without a group
gets the one that can be inferred, and every reference loses its version.
-/

namespace ManifestMigration.GroupReference

/-- The keys under which references stand, in the order in which they are looked at. -/
def keys : List String := Rule.triggers .groupReference

/-- The group that a reference is to be given: none when it has one or none can be inferred. -/
def newGroup? (reference : Mapping) : Option String :=
  if reference.contains "apiGroup" then none else Schema.inferGroup? reference

/-- A reference with its group and without its version. -/
def normalize (reference : Mapping) : Mapping × Bool :=
  match newGroup? reference with
  | some group => ((reference.insert "apiGroup" (.string group)).erase "apiVersion", true)
  | none => (reference.erase "apiVersion", reference.contains "apiVersion")

def normalizeAt (key : String) (m : Mapping) : Mapping × Bool :=
  match m.get? key with
  | some (.mapping reference) =>
    let (reference', changed) := normalize reference
    (m.insert key (.mapping reference'), changed)
  | _ => (m, false)

def normalizeKeys : List String → Mapping → Mapping × Bool
  | [], m => (m, false)
  | key :: rest, m =>
    let (m₁, changed₁) := normalizeAt key m
    let (m₂, changed₂) := normalizeKeys rest m₁
    (m₂, changed₁ || changed₂)

def normalizeAll (m : Mapping) : Mapping × Bool := normalizeKeys keys m

def noteAt? (m : Mapping) (key : String) : Option Note :=
  match m.get? key with
  | some (.mapping reference) =>
    if reference.contains "apiGroup" then none
    else
      match Schema.inferGroup? reference with
      | some group => some (.groupSet key group)
      | none => some (.groupUnknown key)
  | _ => none

def notes (m : Mapping) : List Note := keys.filterMap (noteAt? m)

end ManifestMigration.GroupReference
