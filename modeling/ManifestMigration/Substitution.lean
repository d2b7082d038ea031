import ManifestMigration.Schema

/-! # Substituting an identifier

One identifier is replaced by another throughout a text, before the text is read: in keys and
values, in comments, and inside longer words. Replacing goes from left to right and does not look
at what it has written.
-/

namespace ManifestMigration

/-- An identifier and what is written in its place. -/
structure Substitution where
  replaced : String
  replacement : String
  deriving DecidableEq, Repr

namespace Substitution

/-- From the legacy identifier of the schema to the target. -/
def default : Substitution := ⟨Schema.legacyApiVersion, Schema.targetApiVersion⟩

/-- There is something to replace: the identifier is not empty, differs from its replacement and
    occurs in the text. -/
def isDue (s : Substitution) (text : String) : Bool :=
  !s.replaced.isEmpty && s.replaced != s.replacement &&
    Text.occursIn s.replaced.toList text.toList

def apply (s : Substitution) (text : String) : String :=
  if s.isDue text then
    String.ofList (Text.replaceAll s.replaced.toList s.replacement.toList text.toList)
  else text

end Substitution

end ManifestMigration
