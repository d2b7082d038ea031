import ManifestMigration.Yaml.Source

/-! # YAML tokens

The words of a YAML text. Besides the indicators that are written there are tokens for what only
the layout shows: the start and the end of block collections, and the simple keys that a colon
reveals.
-/

namespace ManifestMigration.Yaml

inductive ScalarStyle where
  | plain | singleQuoted | doubleQuoted | literal | folded
  deriving DecidableEq, Repr

inductive TokenKind where
  | streamEnd
  /-- A version directive. -/
  | version (major minor : Nat)
  /-- A tag directive: a handle and the text that it stands for. -/
  | tagDirective (handle stem : List Char)
  | documentStart
  | documentEnd
  | blockSequenceStart
  | blockMappingStart
  | blockEnd
  | flowSequenceStart
  | flowSequenceEnd
  | flowMappingStart
  | flowMappingEnd
  | blockEntry
  | flowEntry
  | key
  | value
  | alias (name : List Char)
  | anchor (name : List Char)
  /-- A tag: a handle and what follows it. Without a handle the tag stands for itself. -/
  | tag (handle suffix : List Char)
  | scalar (style : ScalarStyle) (text : List Char)
  deriving DecidableEq, Repr

/-- A token with the places of its first character and behind its last one. -/
structure Token where
  kind : TokenKind
  first : Mark
  last : Mark
  deriving DecidableEq, Repr

end ManifestMigration.Yaml
