import ManifestMigration.CommandLine.RuleList
import ManifestMigration.Log.Entry
import ManifestMigration.Yaml.Codec

/-! # Running a command line

A run reads its arguments, does what they ask for, and ends with an exit code: 0 when all went well,
2 when the command line or the manifest is at fault, 1 for everything else.
-/

namespace ManifestMigration.CommandLine

structure Outcome where
  exitCode : Nat
  /-- What is written to the standard output. -/
  output : String
  /-- What there is to say about the run, in order. -/
  log : List Log.Entry
  /-- What is wrong with the command line, if something is. -/
  usageError : Option UsageError
  deriving DecidableEq, Repr

namespace Outcome

def success (output : String) (log : List Log.Entry) : Outcome := ⟨0, output, log, none⟩

/-- A run that failed for this reason and its causes. -/
def failure (exitCode : Nat) (log : List Log.Entry) (chain : List String) : Outcome :=
  ⟨exitCode, "", log ++ [.failed chain], none⟩

end Outcome

def versionText : String := "capimig 0.1.0\n"

def helpText : String :=
  "Migrate Cluster API manifests from v1beta1 to v1beta2 in place.

Usage: capimig [OPTIONS] [PATH]

Arguments:
  [PATH]  YAML manifest to migrate (may contain several documents)

Options:
      --dry-run            Show what would change as a unified diff without writing the file
      --backup             Copy the original file to <path><suffix> before overwriting it
      --config <FILE>      Config file (default: ./capimig.toml when present)
      --from <IDENTIFIER>  Identifier replaced throughout the raw text (default: cluster.x-k8s.io/v1beta1)
      --to <IDENTIFIER>    Replacement identifier (default: cluster.x-k8s.io/v1beta2)
      --list-rules         List the migration rules in evaluation order and exit
      --format <FORMAT>    Output format for --list-rules [default: text] [possible values: text, json]
  -h, --help               Print help
  -V, --version            Print version
"

/-- What is written when a file has been migrated. -/
def summary (dryRun : Bool) (m : FileMigration) : String :=
  if !m.migration.changed then "No changes needed: " ++ m.path ++ "\n"
  else if dryRun then "Would update: " ++ m.path ++ "\n" ++ m.patch
  else "Updated: " ++ m.path ++ "\n"

variable {m : Type → Type} [Monad m] [FileAccess m]

/-- Migrate a file with these options, after what the log holds already. -/
def runMigration (log : List Log.Entry) (options : Options) (path : String) : m Outcome := do
  let log := log ++ [.merged options]
  let (events, result) ← migrateFile Yaml.codec Rule.all options path
  let log := log ++ events.map .file
  match result with
  | .error e => return .failure e.exitCode log (("migrate " ++ path) :: e.chain (·.message?.toList))
  | .ok migration => return .success (summary options.dryRun migration) log

/-- Migrate a file with the options that its configuration and the command line give. -/
def migrate (path : String) (configPath : Option String) (overrides : Config.Overrides) :
    m Outcome := do
  if ← FileAccess.isFile path then
    let source ← Config.source configPath "."
    match ← Config.loadSource source with
    | .error e => return .failure 1 [.config source] ("load capimig.toml config" :: e.chain)
    | .ok config => runMigration [.config source] (config.options overrides) path
  else return .failure 1 [] [path ++ " is not a file"]

/-- Run a command line in the working directory. -/
def run (arguments : List String) : m Outcome := do
  match parse arguments with
  | .error e => return ⟨2, "", [], some e⟩
  | .ok .help => return .success helpText []
  | .ok .version => return .success versionText []
  | .ok (.listRules format) => return .success (listRules Rule.all format) []
  | .ok (.migrate path configPath overrides) => migrate path configPath overrides

end ManifestMigration.CommandLine
