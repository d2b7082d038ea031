import ManifestMigration.FileMigration
import ManifestMigration.Toml.Document

/-! # Configuration

A configuration file sets the substitution and the backups. What it leaves out keeps its default,
and the command line can override what it sets. The file is named explicitly, or found under its
usual name in a directory; without one the defaults hold. A file that is chosen and cannot be read
is an error.
-/

namespace ManifestMigration

/-- The settings of a configuration file. -/
structure Config where
  substitution : Substitution
  /-- Files are backed up before they are written. -/
  backups : Bool
  /-- What the names of backups add to the names of the files. -/
  suffix : String
  deriving DecidableEq, Repr

inductive ConfigError where
  /-- The text is no document of only the known keys with values of the right types. -/
  | invalid
  /-- The identifier to be replaced is empty. -/
  | emptyIdentifier
  deriving DecidableEq, Repr

def ConfigError.message : ConfigError → String
  | invalid => "invalid TOML"
  | emptyIdentifier => "substitution.from must not be empty"

inductive ConfigFileError where
  | read (path : String) (cause : FileError)
  | parse (path : String) (cause : ConfigError)
  deriving DecidableEq, Repr

/-- The texts of an error and its causes, outermost first. The cause that the file system gives is
    not among them. -/
def ConfigFileError.chain : ConfigFileError → List String
  | read path _ => ["read config file " ++ path]
  | parse path cause => ["parse config file " ++ path, cause.message]

namespace Config

/-- The settings without a configuration file. -/
def default : Config := ⟨.default, false, ".capimig.bak"⟩

/-! ## Reading -/

/-- The values of a section with these keys: those of a table that has no other keys, or the items
    of an array in the order of the keys. -/
def section? (keys : List String) : Toml.Value → Option Toml.Table
  | .table _ entries => if entries.keys.all (· ∈ keys) then some entries else none
  | .array items => some (.ofList (keys.zip items))
  | _ => none

/-- A text in a section, or what is missing there. -/
def text? (entries : Toml.Table) (key missing : String) : Option String :=
  match entries.get? key with
  | none => some missing
  | some (.string text) => some text
  | some _ => none

/-- A truth value in a section, or what is missing there. -/
def flag? (entries : Toml.Table) (key : String) (missing : Bool) : Option Bool :=
  match entries.get? key with
  | none => some missing
  | some (.boolean value) => some value
  | some _ => none

/-- A section of a document. A section that is left out is empty. -/
def sectionOf? (root : Toml.Table) (key : String) (keys : List String) : Option Toml.Table :=
  match root.get? key with
  | none => some .empty
  | some value => section? keys value

/-- The settings of a document. -/
def ofTable? (root : Toml.Table) : Option Config := do
  let root ← section? ["substitution", "backups"] (.table .header root)
  let substitution ← sectionOf? root "substitution" ["from", "to"]
  let backups ← sectionOf? root "backups" ["enabled", "suffix"]
  return {
    substitution := {
      replaced := ← text? substitution "from" default.substitution.replaced
      replacement := ← text? substitution "to" default.substitution.replacement }
    backups := ← flag? backups "enabled" default.backups
    suffix := ← text? backups "suffix" default.suffix }

def parse (text : String) : Except ConfigError Config :=
  match Toml.parse? text >>= ofTable? with
  | none => .error .invalid
  | some config =>
    if config.substitution.replaced = "" then .error .emptyIdentifier else .ok config

/-! ## Loading -/

variable {m : Type → Type} [Monad m] [FileAccess m]

def load (path : String) : m (Except ConfigFileError Config) := do
  match ← readText path with
  | .error cause => return .error (.read path cause)
  | .ok text => return (parse text).mapError (.parse path)

def fileName : String := "capimig.toml"

def pathIn (directory name : String) : String :=
  if directory = "" ∨ directory.toList.getLast? = some '/' then directory ++ name
  else directory ++ "/" ++ name

/-- The configuration file of a directory. It only has to be there. -/
def discover? (directory : String) : m (Option String) := do
  let path := pathIn directory fileName
  return if ← FileAccess.isThere path then some path else none

/-- Where the settings come from. -/
inductive Source where
  /-- From a file that is named explicitly. -/
  | named (path : String)
  /-- From a file that is found. -/
  | found (path : String)
  /-- From nowhere, as there is no file at the path where one is looked for. -/
  | missing (path : String)
  deriving DecidableEq, Repr

/-- Choose the file that is named, or else look for one in a directory. -/
def source (explicit : Option String) (directory : String) : m Source := do
  match explicit with
  | some path => return .named path
  | none =>
    match ← discover? directory with
    | some path => return .found path
    | none => return .missing (pathIn directory fileName)

def loadSource : Source → m (Except ConfigFileError Config)
  | .named path | .found path => load path
  | .missing _ => return .ok default

/-- Load the configuration file that is named, or else the one that is found in the directory, or
    else the defaults. -/
def loadOrDefault (explicit : Option String) (directory : String) :
    m (Except ConfigFileError Config) := do
  loadSource (← source explicit directory)

/-! ## Overriding -/

/-- Settings of the command line, which override those of a configuration file. -/
structure Overrides where
  replaced : Option String
  replacement : Option String
  /-- Backups are made even if the file leaves them off. -/
  backup : Bool
  dryRun : Bool
  deriving DecidableEq, Repr

/-- The options that a configuration and the command line give together. -/
def options (config : Config) (overrides : Overrides) : Options where
  substitution := {
    replaced := overrides.replaced.getD config.substitution.replaced
    replacement := overrides.replacement.getD config.substitution.replacement }
  dryRun := overrides.dryRun
  backupSuffix := if overrides.backup || config.backups then some config.suffix else none

end Config

end ManifestMigration
