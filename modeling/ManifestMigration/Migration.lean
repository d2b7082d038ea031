import ManifestMigration.Codec
import ManifestMigration.Substitution
import ManifestMigration.Walk

/-! # Migrating a text

The identifier is substituted in the text first. The documents are then read from the substituted
text and transformed one by one. They are written again only if the transformation changed one of
them; otherwise the substituted text stays as it is, comments and quoting included.
-/

namespace ManifestMigration

/-- What became of a text. -/
structure Migration where
  /-- The migrated text. -/
  output : String
  /-- The substitution changed the text. -/
  substituted : Bool
  /-- How many documents the text holds. -/
  documents : Nat
  /-- How many of them the rules changed. -/
  documentsChanged : Nat
  deriving DecidableEq, Repr

def Migration.changed (m : Migration) : Bool := m.substituted || 0 < m.documentsChanged

inductive MigrationError (ε : Type) where
  /-- The codec cannot read the text. -/
  | parse (cause : ε)
  /-- A rule refuses the document with this index. -/
  | transform (index : Nat) (cause : TransformError)
  /-- The codec cannot write the documents. -/
  | serialize (cause : ε)
  deriving DecidableEq, Repr

namespace MigrationError

variable {ε : Type}

def message : MigrationError ε → String
  | parse _ => "parse documents"
  | transform index _ => "migrate document " ++ toString index
  | serialize _ => "serialize documents"

/-- The texts of an error and its causes, outermost first, given those of the errors of a codec. -/
def chain (texts : ε → List String) (e : MigrationError ε) : List String :=
  e.message ::
    match e with
    | transform _ cause => [cause.message, cause.cause.message]
    | parse cause | serialize cause => texts cause

/-- The text itself is at fault. -/
def isInputError : MigrationError ε → Bool
  | parse _ | transform .. => true
  | serialize _ => false

end MigrationError

/-- What goes through a document and comes to something, as a walk with the rules of a list does. -/
abbrev Engine := Node → Walked Node

variable {ε : Type}

/-- Transform the documents from an index on. Every document comes with whether it changed. -/
def transformDocuments (engine : Engine) (index : Nat) :
    List Node → Recorded (MigrationError ε) (List (Node × Bool))
  | [] => .pure []
  | document :: rest =>
    let walked := engine document
    match walked.refusal? with
    | some cause => ⟨walked.events, .error (.transform index cause)⟩
    | none =>
      ((transformDocuments engine (index + 1) rest).map ((walked.left, walked.changed) :: ·)).after
        walked.events

/-- The text of transformed documents, given the text that they were read from. -/
def writeDocuments (codec : Codec ε) (text : String) (documents : List (Node × Bool)) :
    Except (MigrationError ε) String :=
  if documents.any (·.2) then (codec.dump (documents.map (·.1))).mapError .serialize else .ok text

/-- Migrate a text with the documents that a codec finds in it. -/
def migrateTextWith (codec : Codec ε) (engine : Engine) (substitution : Substitution)
    (text : String) : Recorded (MigrationError ε) Migration :=
  let substituted := substitution.apply text
  match codec.load substituted with
  | .error e => ⟨[], .error (.parse e)⟩
  | .ok documents =>
    (transformDocuments engine 0 documents).bind fun transformed =>
      ⟨[], (writeDocuments codec substituted transformed).map fun output =>
        { output
          substituted := substituted != text
          documents := documents.length
          documentsChanged := transformed.countP (·.2) }⟩

/-- Migrate a text with the rules of a list. -/
def migrateText (codec : Codec ε) (rules : List Rule) (substitution : Substitution)
    (text : String) : Recorded (MigrationError ε) Migration :=
  migrateTextWith codec (Node.transform rules) substitution text

end ManifestMigration
