import ManifestMigration.Config
import ManifestMigration.Log.Filter
import ManifestMigration.Text.Quoted

/-! # Log entries

What a run has to say about its course, and the lines that tell it. Visits during a walk, and the
name of a configuration file that was given, are not told.
-/

namespace ManifestMigration.Log

structure Line where
  level : Level
  target : String
  message : String
  deriving DecidableEq, Repr

def Line.render (line : Line) : String :=
  line.level.name ++ " " ++ line.target ++ ": " ++ line.message

/-- Something that a run has to say. -/
inductive Entry where
  /-- The configuration comes from here. -/
  | config (source : Config.Source)
  /-- The configuration and the command line give these options. -/
  | merged (options : Options)
  /-- Something happens while a file is migrated. -/
  | file (event : FileEvent)
  /-- The run fails, for this reason and its causes. -/
  | failed (chain : List String)
  deriving DecidableEq, Repr

/-! ## Rules -/

def targetOfRule : Rule → String
  | .argumentList => "capimig_domain::rules::extra_args"
  | .groupReference => "capimig_domain::rules::references"
  | .emptyEndpoint => "capimig_domain::rules::control_plane_endpoint"
  | .healthCheck => "capimig_domain::rules::machine_health_check"
  | .templateReference => "capimig_domain::rules::kubeadm_control_plane"

def ruleOfNote : Note → Rule
  | .argumentsListed .. => .argumentList
  | .groupSet .. | .groupUnknown _ => .groupReference
  | .endpointRemoved => .emptyEndpoint
  | .healthCheckRestructured .. => .healthCheck
  | .referenceMoved => .templateReference

def field (name value : String) : String := " " ++ name ++ "=" ++ value

def flag (value : Bool) : String := if value then "true" else "false"

/-- A remark in words, and its fields. -/
def wordsOfNote : Note → String × String
  | .argumentsListed key entries =>
    ("converted mapping to list",
      field "key" (Text.quoted key) ++ field "entries" (toString entries))
  | .groupSet key group =>
    ("set apiGroup", field "key" (Text.quoted key) ++ field "group" group)
  | .groupUnknown key => ("could not infer apiGroup", field "key" (Text.quoted key))
  | .endpointRemoved => ("removed empty controlPlaneEndpoint", "")
  | .healthCheckRestructured checks remediation =>
    ("restructured MachineHealthCheck spec",
      field "checks" (flag checks) ++ field "remediation" (flag remediation))
  | .referenceMoved => ("moved infrastructureRef into machineTemplate.spec", "")

def lineOfNote (note : Note) : Line :=
  let rule := ruleOfNote note
  let (words, fields) := wordsOfNote note
  ⟨.debug, targetOfRule rule, words ++ field "rule" (Text.quoted rule.id) ++ fields⟩

/-! ## Files -/

/-- The line about something that happens during a walk, if it is told. -/
def lineOfEvent? : Event → Option Line
  | .visited _ => none
  | .noted note => some (lineOfNote note)
  | .fired rule path =>
    some ⟨.trace, "capimig_domain::engine",
      "rule fired" ++ field "rule" (Text.quoted rule.id) ++ field "path" path.render⟩

/-- The line about something that happens to a file, if it is told. -/
def lineOfFileEvent? : FileEvent → Option Line
  | .walk event => lineOfEvent? event
  | .migrated path m =>
    some ⟨.debug, "capimig_edit", path ++ ": documents=" ++ toString m.documents ++
      ", changed=" ++ toString m.documentsChanged ++ ", substituted=" ++ flag m.substituted⟩
  | .backedUp path backup =>
    some ⟨.debug, "capimig_edit", "backed up " ++ path ++ " to " ++ backup⟩
  | .wrote path => some ⟨.info, "capimig_edit", "wrote " ++ path⟩

/-! ## Runs -/

/-- A failure with its causes, one below the other. Several causes are numbered. -/
def renderChain : List String → String
  | [] => ""
  | [message] => message
  | [message, cause] => message ++ "\n\nCaused by:\n    " ++ cause
  | message :: causes =>
    message ++ "\n\nCaused by:" ++ String.join ((causes.zipIdx).map fun (cause, i) =>
      "\n    " ++ toString i ++ ": " ++ cause)

/-- An optional text as it is shown in a line. -/
def optionalText : Option String → String
  | none => "None"
  | some text => "Some(" ++ Text.quoted text ++ ")"

/-- The line about an entry, if it is told. -/
def Entry.line? : Entry → Option Line
  | .config (.named _) => none
  | .config (.found path) =>
    some ⟨.debug, "capimig::config", "found config file at " ++ path⟩
  | .config (.missing path) =>
    some ⟨.debug, "capimig::config", "no config file found at " ++ path⟩
  | .merged options =>
    some ⟨.debug, "capimig", "merged config: from=" ++ options.substitution.replaced ++
      ", to=" ++ options.substitution.replacement ++ ", dry_run=" ++ flag options.dryRun ++
      ", backup_suffix=" ++ optionalText options.backupSuffix⟩
  | .file event => lineOfFileEvent? event
  | .failed chain => some ⟨.error, "capimig", renderChain chain⟩

/-- The entries that are told and that a filter lets through. -/
def Filter.apply (filter : Filter) (entries : List Entry) : List Entry :=
  entries.filter fun entry =>
    entry.line?.any fun line => filter.allows line.level line.target

end ManifestMigration.Log
