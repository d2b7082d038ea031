import ManifestMigration.Config
import ManifestMigration.Text.Occurrence

/-! # Command lines

Options may stand before and behind the path of the manifest. The value of an option follows it
behind an equals sign or as the next argument; a next argument that starts with a hyphen is no
value. Two hyphens alone end the options. The arguments are taken one by one: the first that asks
for help or the version, or is wrong, decides.
-/

namespace ManifestMigration.CommandLine

inductive ListFormat where
  | text
  | json
  deriving DecidableEq, Repr

/-- What a command line asks for. -/
inductive Command where
  | help
  | version
  | listRules (format : ListFormat)
  | migrate (path : String) (configPath : Option String) (overrides : Config.Overrides)
  deriving DecidableEq, Repr

inductive UsageError where
  | unknownOption (option : String)
  | repeatedOption (option : String)
  | missingValue (option : String)
  | unexpectedValue (option value : String)
  | unknownFormat (value : String)
  | unexpectedPath (path : String)
  | missingPath
  | pathWithRules
  deriving DecidableEq, Repr

def UsageError.message : UsageError → String
  | unknownOption option => "unexpected argument '" ++ option ++ "'"
  | repeatedOption option => "the argument '" ++ option ++ "' cannot be used multiple times"
  | missingValue option => "a value is required for '" ++ option ++ "'"
  | unexpectedValue option value => "unexpected value '" ++ value ++ "' for '" ++ option ++ "'"
  | unknownFormat value => "invalid value '" ++ value ++ "' for '--format'"
  | unexpectedPath path => "unexpected argument '" ++ path ++ "'"
  | missingPath => "a manifest path is required"
  | pathWithRules => "'--list-rules' cannot be used with a path"

/-! ## One argument -/

/-- Options without a value. -/
inductive Flag where
  | dryRun
  | backup
  | listRules
  | help
  | version
  deriving DecidableEq, Repr

/-- Options with a value. -/
inductive Setting where
  | config
  | replaced
  | replacement
  | format
  deriving DecidableEq, Repr

/-- What an argument is by itself. -/
inductive Argument where
  | path (text : String)
  /-- Two hyphens alone. -/
  | separator
  | flag (flag : Flag)
  | setting (setting : Setting) (value : Option String)
  | wrong (cause : UsageError)
  deriving DecidableEq, Repr

def flagOfName? : String → Option Flag
  | "dry-run" => some .dryRun
  | "backup" => some .backup
  | "list-rules" => some .listRules
  | "help" => some .help
  | "version" => some .version
  | _ => none

def settingOfName? : String → Option Setting
  | "config" => some .config
  | "from" => some .replaced
  | "to" => some .replacement
  | "format" => some .format
  | _ => none

def Setting.name : Setting → String
  | config => "config"
  | replaced => "from"
  | replacement => "to"
  | format => "format"

/-- An option with a long name, and with a value if there is an equals sign. -/
def Argument.ofLongOption (body : List Char) : Argument :=
  let (name, value) := match Text.splitOnce '=' body with
    | some (name, value) => (String.ofList name, some (String.ofList value))
    | none => (String.ofList body, none)
  match flagOfName? name, settingOfName? name, value with
  | some found, _, none => .flag found
  | some _, _, some value => .wrong (.unexpectedValue ("--" ++ name) value)
  | none, some found, value => .setting found value
  | none, none, _ => .wrong (.unknownOption ("--" ++ name))

/-- What an argument is. Of several short options in one argument the first decides, as there are
    only those for help and the version. A hyphen alone is a path. -/
def Argument.ofText (text : String) : Argument :=
  match text.toList with
  | ['-', '-'] => .separator
  | '-' :: '-' :: body => .ofLongOption body
  | '-' :: 'h' :: _ => .flag .help
  | '-' :: 'V' :: _ => .flag .version
  | '-' :: c :: _ => .wrong (.unknownOption (String.ofList ['-', c]))
  | _ => .path text

/-- An argument can be the value of the option before it. -/
def isValue (text : String) : Bool :=
  match text.toList with
  | '-' :: _ :: _ => false
  | _ => true

/-! ## All arguments -/

structure Given where
  path : Option String
  dryRun : Bool
  backup : Bool
  listRules : Bool
  config : Option String
  replaced : Option String
  replacement : Option String
  format : Option ListFormat
  deriving DecidableEq, Repr

namespace Given

def nothing : Given := ⟨none, false, false, false, none, none, none, none⟩

def addPath (given : Given) (path : String) : Except UsageError Given :=
  if given.path.isSome then .error (.unexpectedPath path) else .ok { given with path := some path }

def formatOfName? : String → Option ListFormat
  | "text" => some .text
  | "json" => some .json
  | _ => none

def set (given : Given) (setting : Setting) (value : String) : Except UsageError Given :=
  let once (old : Option String) (new : Given) : Except UsageError Given :=
    if old.isSome then .error (.repeatedOption ("--" ++ setting.name)) else .ok new
  match setting with
  | .config => once given.config { given with config := some value }
  | .replaced => once given.replaced { given with replaced := some value }
  | .replacement => once given.replacement { given with replacement := some value }
  | .format =>
    match formatOfName? value with
    | none => .error (.unknownFormat value)
    | some format =>
      if given.format.isSome then .error (.repeatedOption "--format")
      else .ok { given with format := some format }

/-- What has been given asks for this. -/
def command (given : Given) : Except UsageError Command :=
  match given.listRules, given.path with
  | true, some _ => .error .pathWithRules
  | true, none => .ok (.listRules (given.format.getD .text))
  | false, none => .error .missingPath
  | false, some path => .ok (.migrate path given.config
      ⟨given.replaced, given.replacement, given.backup, given.dryRun⟩)

end Given

/-- Take a flag. Help and the version end the command line. -/
def takeFlag (given : Given) (flag : Flag) (next : Given → Except UsageError Command) :
    Except UsageError Command :=
  match flag with
  | .help => .ok .help
  | .version => .ok .version
  | .dryRun =>
    if given.dryRun then .error (.repeatedOption "--dry-run") else next { given with dryRun := true }
  | .backup =>
    if given.backup then .error (.repeatedOption "--backup") else next { given with backup := true }
  | .listRules =>
    if given.listRules then .error (.repeatedOption "--list-rules")
    else next { given with listRules := true }

/-- Read the arguments that follow those read already. -/
def parseAfter (given : Given) : List String → Except UsageError Command
  | [] => given.command
  | argument :: rest =>
    match Argument.ofText argument with
    | .path path => do parseAfter (← given.addPath path) rest
    | .separator => do (← rest.foldlM Given.addPath given).command
    | .wrong cause => .error cause
    | .flag flag => takeFlag given flag fun given => parseAfter given rest
    | .setting setting (some value) => do parseAfter (← given.set setting value) rest
    | .setting setting none =>
      match rest with
      | [] => .error (.missingValue ("--" ++ setting.name))
      | value :: rest =>
        if isValue value then do parseAfter (← given.set setting value) rest
        else .error (.missingValue ("--" ++ setting.name))

def parse (arguments : List String) : Except UsageError Command := parseAfter .nothing arguments

end ManifestMigration.CommandLine
