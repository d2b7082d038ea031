import ManifestMigration.Config
import ManifestMigration.Proofs.Files.Faults

/-! # Layers of settings

A setting comes from the command line, or else from the configuration file that is selected, or else
from the defaults. What a file sets is read off its document (`Sets`): a file sets some of the
settings, and the defaults fill in the others one by one. A file that is selected is never replaced
by another file or by the defaults, so a run without a usable one ends with an error
(`options_layered`).
-/

namespace ManifestMigration.Config

variable {root entries : Toml.Table} {key first second missing : String}
  {value value' : Option Toml.Value}

/-! ## What a document sets -/

structure Settings where
  replaced : Option String
  replacement : Option String
  backups : Option Bool
  suffix : Option String

/-- The values that a section gives to its two keys: those of a table that has no other keys, or the
    items of an array in the order of the keys. A section that is left out gives none. -/
inductive Gives (first second : String) :
    Option Toml.Value → Option Toml.Value → Option Toml.Value → Prop where
  | missing : Gives first second none none none
  | table {origin : Toml.Origin} {entries : Toml.Table}
      (known : ∀ key ∈ entries.keys, key = first ∨ key = second) :
      Gives first second (some (.table origin entries)) (entries.get? first) (entries.get? second)
  | array {items : List Toml.Value} : Gives first second (some (.array items)) items[0]? items[1]?

/-- A document has only the known keys with values of their types, and this is what it sets. -/
structure Sets (root : Toml.Table) (s : Settings) : Prop where
  known : ∀ key ∈ root.keys, key = "substitution" ∨ key = "backups"
  substitution : Gives "from" "to" (root.get? "substitution") (s.replaced.map .string)
    (s.replacement.map .string)
  backups : Gives "enabled" "suffix" (root.get? "backups") (s.backups.map .boolean)
    (s.suffix.map .string)

/-- The settings with defaults for those that are missing. -/
def Settings.config (s : Settings) : Config where
  substitution := {
    replaced := s.replaced.getD default.substitution.replaced
    replacement := s.replacement.getD default.substitution.replacement }
  backups := s.backups.getD default.backups
  suffix := s.suffix.getD default.suffix

theorem text?_eq_some_iff {text : String} :
    text? entries key missing = some text ↔
      ∃ value : Option String, entries.get? key = value.map .string ∧ text = value.getD missing := by
  constructor
  · intro read
    unfold text? at read
    split at read
    · next absent => exact ⟨none, absent, (Option.some.inj read).symm⟩
    · next held => exact ⟨some _, held, (Option.some.inj read).symm⟩
    · cases read
  · rintro ⟨value, held, rfl⟩
    cases value <;> simp [text?, held]

theorem flag?_eq_some_iff {missing flag : Bool} :
    flag? entries key missing = some flag ↔
      ∃ value : Option Bool, entries.get? key = value.map .boolean ∧ flag = value.getD missing := by
  constructor
  · intro read
    unfold flag? at read
    split at read
    · next absent => exact ⟨none, absent, (Option.some.inj read).symm⟩
    · next held => exact ⟨some _, held, (Option.some.inj read).symm⟩
    · cases read
  · rintro ⟨value, held, rfl⟩
    cases value <;> simp [flag?, held]

theorem get?_ofList_zip {items : List Toml.Value} (distinct : first ≠ second) :
    (Dict.ofList ([first, second].zip items)).get? first = items[0]? ∧
      (Dict.ofList ([first, second].zip items)).get? second = items[1]? := by
  match items with
  | [] => exact ⟨rfl, rfl⟩
  | [item] => simp [Dict.ofList, Dict.get?_insert, distinct.symm]
  | item :: item' :: rest => simp [Dict.ofList, Dict.get?_insert, distinct]

theorem table_section?_iff {keys : List String} {origin : Toml.Origin}
    {entries' : Toml.Table} :
    (section? keys (.table origin entries) = some entries') ↔
      (∀ key ∈ entries.keys, key ∈ keys) ∧ entries = entries' := by
  simp [section?]

theorem exists_section?_iff {v : Toml.Value} (distinct : first ≠ second) :
    (∃ entries, section? [first, second] v = some entries ∧
        entries.get? first = value ∧ entries.get? second = value') ↔
      Gives first second (some v) value value' := by
  have known {entries : Toml.Table} : (∀ key ∈ entries.keys, key ∈ [first, second]) ↔
      ∀ key ∈ entries.keys, key = first ∨ key = second := by
    simp only [List.mem_cons, List.not_mem_nil, or_false]
  constructor
  · rintro ⟨entries, read, rfl, rfl⟩
    cases v with
    | table origin entries' =>
        obtain ⟨among, rfl⟩ := table_section?_iff.mp read
        exact .table (known.mp among)
    | array items =>
        cases read
        obtain ⟨get_first, get_second⟩ := get?_ofList_zip distinct
        rw [get_first, get_second]
        exact .array
    | _ => cases read
  · rintro (_ | among | _)
    · exact ⟨_, table_section?_iff.mpr ⟨known.mpr among, rfl⟩, rfl, rfl⟩
    · exact ⟨_, rfl, get?_ofList_zip distinct⟩

theorem exists_sectionOf?_iff (distinct : first ≠ second) :
    (∃ entries, sectionOf? root key [first, second] = some entries ∧
        entries.get? first = value ∧ entries.get? second = value') ↔
      Gives first second (root.get? key) value value' := by
  unfold sectionOf?
  cases root.get? key with
  | none =>
      constructor
      · rintro ⟨_, read, rfl, rfl⟩
        cases read
        exact .missing
      · rintro ⟨⟩
        exact ⟨.empty, rfl, rfl, rfl⟩
  | some v => exact exists_section?_iff distinct

/-- What a document sets is completed by the defaults. -/
theorem ofTable?_eq_some_iff {config : Config} :
    ofTable? root = some config ↔ ∃ s, Sets root s ∧ s.config = config := by
  have known : (∀ key ∈ root.keys, key ∈ ["substitution", "backups"]) ↔
      ∀ key ∈ root.keys, key = "substitution" ∨ key = "backups" := by
    simp only [List.mem_cons, List.not_mem_nil, or_false]
  constructor
  · intro read
    simp only [ofTable?, Option.bind_eq_bind, Option.bind_eq_some_iff,
      table_section?_iff] at read
    obtain ⟨_, ⟨among, rfl⟩, substitution, substitutionRead, backups, backupsRead, _, replacedRead, _,
      replacementRead, _, flagRead, _, suffixRead, done⟩ := read
    obtain ⟨replaced, atFrom, rfl⟩ := text?_eq_some_iff.mp replacedRead
    obtain ⟨replacement, atTo, rfl⟩ := text?_eq_some_iff.mp replacementRead
    obtain ⟨flag, atEnabled, rfl⟩ := flag?_eq_some_iff.mp flagRead
    obtain ⟨suffix, atSuffix, rfl⟩ := text?_eq_some_iff.mp suffixRead
    refine ⟨⟨replaced, replacement, flag, suffix⟩, ⟨known.mp among, ?_, ?_⟩, Option.some.inj done⟩
    · exact (exists_sectionOf?_iff (by decide)).mp ⟨substitution, substitutionRead, atFrom, atTo⟩
    · exact (exists_sectionOf?_iff (by decide)).mp ⟨backups, backupsRead, atEnabled, atSuffix⟩
  · rintro ⟨s, sets, rfl⟩
    obtain ⟨substitution, substitutionRead, atFrom, atTo⟩ :=
      (exists_sectionOf?_iff (by decide)).mpr sets.substitution
    obtain ⟨backups, backupsRead, atEnabled, atSuffix⟩ :=
      (exists_sectionOf?_iff (by decide)).mpr sets.backups
    have rootRead : section? ["substitution", "backups"] (.table .header root) = some root :=
      table_section?_iff.mpr ⟨known.mpr sets.known, rfl⟩
    simp only [ofTable?, rootRead, substitutionRead, backupsRead, Option.bind_eq_bind,
      Option.bind_some, text?_eq_some_iff.mpr ⟨_, atFrom, rfl⟩,
      text?_eq_some_iff.mpr ⟨_, atTo, rfl⟩, flag?_eq_some_iff.mpr ⟨_, atEnabled, rfl⟩,
      text?_eq_some_iff.mpr ⟨_, atSuffix, rfl⟩]
    rfl

theorem Gives.unique {held v v' w w' : Option Toml.Value} (gives : Gives first second held v w)
    (gives' : Gives first second held v' w') : v = v' ∧ w = w' := by
  cases gives <;> cases gives' <;> exact ⟨rfl, rfl⟩

theorem Sets.unique {s s' : Settings} (sets : Sets root s) (sets' : Sets root s') : s = s' := by
  have strings : (Option.map Toml.Value.string).Injective :=
    Option.map_injective fun _ _ => Toml.Value.string.inj
  have booleans : (Option.map Toml.Value.boolean).Injective :=
    Option.map_injective fun _ _ => Toml.Value.boolean.inj
  obtain ⟨replaced, replacement⟩ := sets.substitution.unique sets'.substitution
  obtain ⟨flag, suffix⟩ := sets.backups.unique sets'.backups
  cases s
  cases s'
  rw [Settings.mk.injEq]
  exact ⟨strings replaced, strings replacement, booleans flag, strings suffix⟩

/-! ## The file that is selected -/

/-- The path of the file that the settings are read from: the one that is named, or else the usual
    one in the directory if something is there. -/
def selected? (store : Store) (explicit : Option String) (directory : String) : Option String :=
  match explicit with
  | some path => some path
  | none =>
    if store.isThere (pathIn directory fileName) then some (pathIn directory fileName) else none

/-- What is set by the file that is selected. Without one nothing is set. -/
inductive FileSets (faults : Faults) (store : Store) : Option String → Settings → Prop where
  | unselected : FileSets faults store none ⟨none, none, none, none⟩
  | selected {path text : String} {root : Toml.Table} {s : Settings}
      (read : faults.readText store path = .ok text) (parses : Toml.parse? text = some root)
      (sets : Sets root s) (nonempty : s.replaced ≠ some "") : FileSets faults store (some path) s

/-- The file that is selected cannot be used, for this reason. -/
inductive Refuses (faults : Faults) (store : Store) : Option String → ConfigFileError → Prop where
  | unread {path : String} {cause : FileError} (fails : faults.readText store path = .error cause) :
      Refuses faults store (some path) (.read path cause)
  | invalid {path text : String} (read : faults.readText store path = .ok text)
      (nothing : ∀ root s, Toml.parse? text = some root → ¬ Sets root s) :
      Refuses faults store (some path) (.parse path .invalid)
  | emptyIdentifier {path text : String} {root : Toml.Table} {s : Settings}
      (read : faults.readText store path = .ok text) (parses : Toml.parse? text = some root)
      (sets : Sets root s) (empty : s.replaced = some "") :
      Refuses faults store (some path) (.parse path .emptyIdentifier)

variable {faults : Faults} {store : Store} {file : Option String} {text : String} {s s' : Settings}
  {e : ConfigFileError}

theorem FileSets.unique (sets : FileSets faults store file s) (sets' : FileSets faults store file s') :
    s = s' := by
  cases sets with
  | unselected =>
      cases sets'
      rfl
  | selected read parses sets _ =>
      cases sets' with
      | selected read' parses' sets' _ =>
          obtain rfl := Except.ok.inj (read.symm.trans read')
          obtain rfl := Option.some.inj (parses.symm.trans parses')
          exact sets.unique sets'

theorem fileSets_or_refuses (faults : Faults) (store : Store) (file : Option String) :
    (∃ s, FileSets faults store file s) ∨ ∃ e, Refuses faults store file e := by
  cases file with
  | none => exact .inl ⟨_, .unselected⟩
  | some path =>
      cases read : faults.readText store path with
      | error cause => exact .inr ⟨_, .unread read⟩
      | ok text =>
          by_cases accepted : ∃ root s, Toml.parse? text = some root ∧ Sets root s
          · obtain ⟨root, s, parses, sets⟩ := accepted
            by_cases empty : s.replaced = some ""
            · exact .inr ⟨_, .emptyIdentifier read parses sets empty⟩
            · exact .inl ⟨s, .selected read parses sets empty⟩
          · refine .inr ⟨_, .invalid read fun root s parses sets => ?_⟩
            exact accepted ⟨root, s, parses, sets⟩

/-! ## Loading it -/

/-- The default identifier is not empty. -/
theorem Settings.replaced_eq_empty_iff :
    s.config.substitution.replaced = "" ↔ s.replaced = some "" := by
  obtain ⟨replaced, _, _, _⟩ := s
  cases replaced with
  | none =>
      have named : default.substitution.replaced ≠ "" := by decide
      exact iff_of_false named nofun
  | some identifier => exact Option.some_inj.symm

theorem parse_of_sets (parses : Toml.parse? text = some root) (sets : Sets root s) :
    parse text =
      if s.replaced = some "" then .error .emptyIdentifier else .ok s.config := by
  have read : Toml.parse? text >>= ofTable? = some s.config := by
    rw [parses]
    exact ofTable?_eq_some_iff.mpr ⟨s, sets, rfl⟩
  simp only [parse, read, Settings.replaced_eq_empty_iff]

theorem parse_of_not_sets (nothing : ∀ root s, Toml.parse? text = some root → ¬ Sets root s) :
    parse text = .error .invalid := by
  have unread : Toml.parse? text >>= ofTable? = none := by
    refine Option.eq_none_iff_forall_ne_some.mpr fun config read => ?_
    obtain ⟨root, parses, read⟩ := Option.bind_eq_some_iff.mp read
    obtain ⟨s, sets, -⟩ := ofTable?_eq_some_iff.mp read
    exact nothing root s parses sets
  simp only [parse, unread]

def loadSelected : Option String → Fallible faults (Except ConfigFileError Config)
  | some path => load path
  | none => return .ok default

theorem run_loadOrDefault (faults : Faults) (store : Store) (explicit : Option String)
    (directory : String) :
    (loadOrDefault explicit directory : Fallible faults _).run store =
      (loadSelected (selected? store explicit directory) : Fallible faults _).run store := by
  cases explicit with
  | some path => rfl
  | none =>
      have found : (discover? directory : Fallible faults _).run store =
          (selected? store none directory, store) := rfl
      simp only [loadOrDefault, source, Fallible.run_bind, found]
      cases selected? store none directory <;> rfl

theorem run_loadSelected_of_fileSets (sets : FileSets faults store file s) :
    (loadSelected file : Fallible faults _).run store = (.ok s.config, store) := by
  cases sets with
  | unselected => rfl
  | selected read parses sets nonempty =>
      simp only [loadSelected, load, Fallible.run_bind, Fallible.run_readText, read,
        parse_of_sets parses sets, if_neg nonempty]
      rfl

theorem run_loadSelected_of_refuses (refuses : Refuses faults store file e) :
    (loadSelected file : Fallible faults _).run store = (.error e, store) := by
  cases refuses with
  | unread fails =>
      simp only [loadSelected, load, Fallible.run_bind, Fallible.run_readText, fails]
      rfl
  | invalid read nothing =>
      simp only [loadSelected, load, Fallible.run_bind, Fallible.run_readText, read,
        parse_of_not_sets nothing]
      rfl
  | emptyIdentifier read parses sets empty =>
      simp only [loadSelected, load, Fallible.run_bind, Fallible.run_readText, read,
        parse_of_sets parses sets, if_pos empty]
      rfl

/-! ## The layers -/

/-- Each option is what the command line says, or else what the file sets, or else the default. -/
structure Layered (s : Settings) (overrides : Overrides) (options : Options) : Prop where
  replaced : options.substitution.replaced =
    overrides.replaced.getD (s.replaced.getD Schema.legacyApiVersion)
  replacement : options.substitution.replacement =
    overrides.replacement.getD (s.replacement.getD Schema.targetApiVersion)
  dryRun : options.dryRun = overrides.dryRun
  backups : options.backupSuffix.isSome ↔ overrides.backup = true ∨ s.backups = some true
  suffix : ∀ suffix ∈ options.backupSuffix, suffix = s.suffix.getD ".capimig.bak"

theorem Settings.layered (s : Settings) (overrides : Overrides) :
    Layered s overrides (s.config.options overrides) where
  replaced := rfl
  replacement := rfl
  dryRun := rfl
  backups := by
    cases flag : s.backups <;> simp [options, Settings.config, flag, default]
  suffix suffix present := by
    simp only [options, Option.mem_def, Option.ite_none_right_eq_some, Option.some_inj] at present
    exact present.2.symm

/-- Loading fails exactly when a file is selected that cannot be used. Otherwise each option comes
    from the first layer that sets it, and the layer of the file is one file. -/
theorem options_layered (faults : Faults) (store : Store) (explicit : Option String)
    (directory : String) (overrides : Overrides) :
    ∃ loaded, (loadOrDefault explicit directory : Fallible faults _).run store = (loaded, store) ∧
      (∀ e, loaded = .error e ↔ Refuses faults store (selected? store explicit directory) e) ∧
      ∀ config, loaded = .ok config →
        ∃ s, FileSets faults store (selected? store explicit directory) s ∧
          (∀ s', FileSets faults store (selected? store explicit directory) s' → s' = s) ∧
          Layered s overrides (config.options overrides) := by
  simp only [run_loadOrDefault]
  generalize selected? store explicit directory = file
  rcases fileSets_or_refuses faults store file with ⟨s, sets⟩ | ⟨e, refuses⟩
  · have loads := run_loadSelected_of_fileSets sets
    refine ⟨.ok s.config, loads, fun e => ⟨nofun, fun refuses => ?_⟩, ?_⟩
    · cases loads.symm.trans (run_loadSelected_of_refuses refuses)
    · rintro config ⟨⟩
      exact ⟨s, sets, fun s' sets' => sets'.unique sets, s.layered overrides⟩
  · have fails := run_loadSelected_of_refuses refuses
    refine ⟨.error e, fails, fun e' => ⟨?_, fun refuses' => ?_⟩, nofun⟩
    · rintro ⟨⟩
      exact refuses
    · cases fails.symm.trans (run_loadSelected_of_refuses refuses')
      rfl

/-! ## Arrays for sections -/

def isTabular (root : Toml.Table) : Bool := root.entries.all (·.2 matches .table _ _)

/-- A file with an array for a section is accepted. -/
theorem array_section_accepted :
    let text := "substitution = [\"x\", \"y\"]\n"
    let store : Store :=
      ⟨⟨[("/work", .directory), ("/work/capimig.toml", .file text.toUTF8)]⟩, "/work"⟩
    selected? store none "." = some "./capimig.toml" ∧
      Faults.none.readText store "./capimig.toml" = .ok text ∧
      (Toml.parse? text).map isTabular = some false ∧
      ((loadOrDefault none "." : Fallible .none _).run store).1 =
        .ok ⟨⟨"x", "y"⟩, false, ".capimig.bak"⟩ := by
  decide +kernel

end ManifestMigration.Config
