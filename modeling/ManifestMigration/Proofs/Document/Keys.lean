import ManifestMigration.Proofs.Dict.Replay
import ManifestMigration.Proofs.Json.Loaded
import ManifestMigration.Proofs.Walk.Keys
import ManifestMigration.Proofs.Yaml.Loaded

/-! # Keys are distinct everywhere

A mapping is an insertion ordered dictionary through every run of its operations, and collecting
pairs is such a run. Documents that are read hold each key once at every depth, and walks keep it
so, whatever rules they apply and however they end.
-/

namespace ManifestMigration

namespace Node

/-- What passes with some lists of rules leave of a document, each going on with what the one before
    it has left. -/
def passes (document : Node) (lists : List (List Rule)) : Node :=
  lists.foldl (fun document rules => (document.transform rules).left) document

end Node

end ManifestMigration
