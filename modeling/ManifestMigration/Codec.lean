import ManifestMigration.Document.Node

/-! # Codecs for document files

A codec reads all documents of a text and writes documents to a text. How much of the formatting
survives is up to the codec; a migration only needs the document trees.
-/

namespace ManifestMigration

/-- Reading and writing the documents of a file. -/
structure Codec (ε : Type) where
  load : String → Except ε (List Node)
  dump : List Node → Except ε String

end ManifestMigration
