import ManifestMigration.Document.Node

/-! # Places in a document

A path leads from the root of a document to one of its parts. Messages write it as
`$.spec.items[0]`.
-/

namespace ManifestMigration

/-- One edge from a node to an immediate part of it. -/
inductive Step where
  /-- The value under a key of a mapping. -/
  | key (name : String)
  /-- An item of a sequence, counted from zero. -/
  | index (i : Nat)
  deriving DecidableEq, Repr

def Step.render : Step → String
  | .key name => "." ++ name
  | .index i => "[" ++ toString i ++ "]"

/-- A way from the root down, outermost step first. -/
abbrev Path := List Step

def Path.render (path : Path) : String :=
  "$" ++ String.join (path.map Step.render)

/-- The part of a document that a path leads to. -/
def Node.at? : Node → Path → Option Node
  | node, [] => some node
  | .mapping fields, .key name :: rest =>
    match fields.get? name with
    | some value => value.at? rest
    | none => none
  | .sequence items, .index i :: rest =>
    match items[i]? with
    | some item => item.at? rest
    | none => none
  | _, _ => none
termination_by _ path => path.length

end ManifestMigration
