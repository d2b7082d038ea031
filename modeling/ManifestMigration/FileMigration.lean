import ManifestMigration.Files.Access
import ManifestMigration.Migration
import ManifestMigration.Patch

/-! # Migrating a file

A file is read, migrated, and written again in place if something changed. Before it is written, the
old text can be kept in a backup beside it. A dry run writes nothing.
-/

namespace ManifestMigration

/-- How a file is migrated. -/
structure Options where
  substitution : Substitution
  /-- Write nothing. -/
  dryRun : Bool
  /-- What the name of the backup adds to the name of the file, if there is to be a backup. -/
  backupSuffix : Option String
  deriving DecidableEq, Repr

inductive FileMigrationError (ε : Type) where
  | read (path : String) (cause : FileError)
  | text (cause : MigrationError ε)
  | write (path : String) (cause : FileError)

namespace FileMigrationError

variable {ε : Type}

def message : FileMigrationError ε → String
  | read path _ => "read " ++ path
  | text cause => cause.message
  | write path _ => "write " ++ path

/-- The texts of an error and its causes, outermost first, given those of the errors of a codec. -/
def chain (texts : ε → List String) (e : FileMigrationError ε) : List String :=
  match e with
  | text cause => cause.chain texts
  | read _ cause | write _ cause => [e.message, cause.message]

/-- The text of the file itself is at fault. -/
def isInputError : FileMigrationError ε → Bool
  | text cause => cause.isInputError
  | read .. | write .. => false

def exitCode (e : FileMigrationError ε) : Nat := if e.isInputError then 2 else 1

end FileMigrationError

inductive FileEvent where
  /-- Something happens while its documents are walked. -/
  | walk (event : Event)
  /-- Its text has been migrated. -/
  | migrated (path : String) (migration : Migration)
  /-- Its text has been kept. -/
  | backedUp (path backup : String)
  /-- It has been written. -/
  | wrote (path : String)
  deriving DecidableEq, Repr

/-- What became of a file. -/
structure FileMigration where
  path : String
  migration : Migration
  /-- The file has been written. -/
  written : Bool
  /-- The change as a unified diff; empty when nothing changed. -/
  patch : String
  deriving DecidableEq, Repr

/-- What happened, and what came of it. -/
abbrev FileRecord (ε α : Type) := List FileEvent × Except (FileMigrationError ε) α

variable {m : Type → Type} [Monad m] [FileAccess m] {ε : Type}

/-- Write a text to a file, and record it as an event. -/
def writeRecorded (path text : String) (event : FileEvent) : m (FileRecord ε Unit) := do
  match ← writeText path text with
  | .ok () => return ([event], .ok ())
  | .error cause => return ([], .error (.write path cause))

/-- Keep the text of a file beside it, if there is a suffix for the copy. -/
def backUp (path text : String) : Option String → m (FileRecord ε Unit)
  | none => return ([], .ok ())
  | some suffix => writeRecorded (path ++ suffix) text (.backedUp path (path ++ suffix))

/-- Replace the text of a file. The old text is kept first; without it nothing is replaced. -/
def replaceFile (suffix : Option String) (path before after : String) :
    m (FileRecord ε Unit) := do
  match ← backUp path before suffix with
  | (events, .error e) => return (events, .error e)
  | (events, .ok ()) =>
    let (more, result) ← writeRecorded path after (.wrote path)
    return (events ++ more, result)

/-- Migrate a file whose text is known. -/
def migrateKnown (codec : Codec ε) (engine : Engine) (options : Options)
    (path before : String) : m (FileRecord ε FileMigration) := do
  match migrateTextWith codec engine options.substitution before with
  | ⟨events, .error e⟩ => return (events.map .walk, .error (.text e))
  | ⟨events, .ok migration⟩ =>
    let events := events.map FileEvent.walk ++ [.migrated path migration]
    let patch := if migration.changed then Patch.render path before migration.output else ""
    if migration.changed && !options.dryRun then
      let (more, result) ← replaceFile options.backupSuffix path before migration.output
      return (events ++ more, result.map fun _ => ⟨path, migration, true, patch⟩)
    else return (events, .ok ⟨path, migration, false, patch⟩)

/-- Migrate a file in place. It is written only if something changed. -/
def migrateFileWith (codec : Codec ε) (engine : Engine) (options : Options) (path : String) :
    m (FileRecord ε FileMigration) := do
  match ← readText path with
  | .error cause => return ([], .error (.read path cause))
  | .ok before => migrateKnown codec engine options path before

/-- Migrate a file in place with the rules of a list. -/
def migrateFile (codec : Codec ε) (rules : List Rule) (options : Options) (path : String) :
    m (FileRecord ε FileMigration) :=
  migrateFileWith codec (Node.transform rules) options path

end ManifestMigration
