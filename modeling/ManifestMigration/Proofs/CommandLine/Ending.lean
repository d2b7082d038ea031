import ManifestMigration.CommandLine.Run
import ManifestMigration.Proofs.FileMigration.DryRun

/-! # How a run ends

A run that is to migrate a manifest ends in one of five ways. Each has its exit code and status line,
and each leaves the files in a state that goes with them: what a script learns from the exit code and
the status line is what has happened to the files.
-/

namespace ManifestMigration.CommandLine

variable {faults : Faults} {store after : Store} {path before : String}
  {configPath : Option String} {overrides : Config.Overrides} {options : Options}

/-! ## Before the migration -/

/-- The configuration is accepted. -/
def Accepts (faults : Faults) (store : Store) (configPath : Option String) (config : Config) :
    Prop :=
  ((Config.loadOrDefault configPath "." : Fallible faults _).run store).1 = .ok config

/-- The path is that of a file, the configuration is accepted and gives the options together with
    the command line, and the manifest is read. -/
structure Prepared (faults : Faults) (store : Store) (path : String) (configPath : Option String)
    (overrides : Config.Overrides) (options : Options) (before : String) : Prop where
  file : store.isFile path = true
  accepted : ∃ config, Accepts faults store configPath config ∧ config.options overrides = options
  read : faults.readText store path = .ok before

/-- The manifest is read, and it does not parse or a rule refuses one of its documents. -/
def Rejects (faults : Faults) (store : Store) (path : String) (configPath : Option String)
    (overrides : Config.Overrides) : Prop :=
  ∃ options before, Prepared faults store path configPath overrides options before ∧
    ((∃ cause, (migrateText Yaml.codec Rule.all options.substitution before).result =
        .error (.parse cause)) ∨
      ∃ index cause, (migrateText Yaml.codec Rule.all options.substitution before).result =
        .error (.transform index cause))

theorem Prepared.unique {options' : Options} {before' : String}
    (prepared : Prepared faults store path configPath overrides options before)
    (prepared' : Prepared faults store path configPath overrides options' before') :
    options' = options ∧ before' = before := by
  obtain ⟨config, accepts, rfl⟩ := prepared.accepted
  obtain ⟨config', accepts', rfl⟩ := prepared'.accepted
  obtain rfl := Except.ok.inj (accepts'.symm.trans accepts)
  exact ⟨rfl, Except.ok.inj (prepared'.read.symm.trans prepared.read)⟩

theorem run_source (faults : Faults) (explicit : Option String) (directory : String)
    (store : Store) : ∃ source,
      (Config.source explicit directory : Fallible faults _).run store = (source, store) := by
  cases explicit with
  | some path => exact ⟨_, rfl⟩
  | none =>
      simp only [Config.source, Config.discover?, Fallible.run_bind, Fallible.run_isThere,
        Fallible.run_pure]
      split <;> exact ⟨_, rfl⟩

theorem run_loadSource (faults : Faults) (source : Config.Source) (store : Store) :
    ∃ loaded, (Config.loadSource source : Fallible faults _).run store = (loaded, store) := by
  cases source with
  | named path | found path =>
      simp only [Config.loadSource, Config.load, Fallible.run_bind, Fallible.run_readText]
      cases faults.readText store path <;> exact ⟨_, rfl⟩
  | missing path => exact ⟨_, rfl⟩

/-! ## The ways to end -/

inductive Ending where
  | unchanged
  | previewed
  | updated
  | rejected
  | failed
  deriving DecidableEq, Repr

/-- The ending that an exit code and a status line stand for. -/
def Ending.ofOutcome (outcome : Outcome) : Ending :=
  match outcome.exitCode, outcome.output.toList.head? with
  | 0, some 'N' => unchanged
  | 0, some 'W' => previewed
  | 0, _ => updated
  | 2, _ => rejected
  | _, _ => failed

/-- Why a run fails that has nothing to say against the manifest, and what it leaves of the files. -/
inductive Fails (faults : Faults) (store : Store) (path : String) (configPath : Option String)
    (overrides : Config.Overrides) : Store → Prop where
  /-- There is no file at the path. -/
  | noFile (missing : store.isFile path = false) :
      Fails faults store path configPath overrides store
  /-- The configuration file that is selected cannot be read, or is refused. -/
  | unconfigured {e : ConfigFileError} (file : store.isFile path = true)
      (refuses : ((Config.loadOrDefault configPath "." : Fallible faults _).run store).1 = .error e) :
      Fails faults store path configPath overrides store
  | unread {config : Config} {cause : FileError} (file : store.isFile path = true)
      (accepts : Accepts faults store configPath config)
      (fails : faults.readText store path = .error cause) :
      Fails faults store path configPath overrides store
  /-- The codec cannot write the documents that have been migrated. -/
  | unserialized {options : Options} {before : String} {cause : Yaml.LoadError}
      (prepared : Prepared faults store path configPath overrides options before)
      (fails : (migrateText Yaml.codec Rule.all options.substitution before).result =
        .error (.serialize cause)) :
      Fails faults store path configPath overrides store
  /-- The backup cannot be written. -/
  | unsaved {options : Options} {before suffix : String} {m : Migration} {cause : FileError}
      (prepared : Prepared faults store path configPath overrides options before)
      (migrated : (migrateText Yaml.codec Rule.all options.substitution before).result = .ok m)
      (changed : m.changed = true) (wet : overrides.dryRun = false)
      (backup : options.backupSuffix = some suffix)
      (fails : faults.writeBytes store (path ++ suffix) before.toUTF8 = (.error cause, store)) :
      Fails faults store path configPath overrides store
  /-- The manifest cannot be written. Its backup, if there is to be one, has been. -/
  | unwritten {options : Options} {before : String} {m : Migration} {saved : Store}
      {cause : FileError} (prepared : Prepared faults store path configPath overrides options before)
      (migrated : (migrateText Yaml.codec Rule.all options.substitution before).result = .ok m)
      (changed : m.changed = true) (wet : overrides.dryRun = false)
      (saves : BacksUp faults store path before options.backupSuffix saved)
      (fails : faults.writeBytes saved path m.output.toUTF8 = (.error cause, saved)) :
      Fails faults store path configPath overrides saved

/-- What a run shows that ends so, and what it leaves of the files. -/
def Ending.Shows (faults : Faults) (store : Store) (path : String) (configPath : Option String)
    (overrides : Config.Overrides) (outcome : Outcome) (after : Store) : Ending → Prop
  | unchanged =>
      outcome.exitCode = 0 ∧ outcome.output = "No changes needed: " ++ path ++ "\n" ∧
        after = store ∧
        ∃ options before m, Prepared faults store path configPath overrides options before ∧
          (migrateText Yaml.codec Rule.all options.substitution before).result = .ok m ∧
          m.changed = false
  | previewed =>
      outcome.exitCode = 0 ∧ overrides.dryRun = true ∧ after = store ∧
        ∃ options before m, Prepared faults store path configPath overrides options before ∧
          (migrateText Yaml.codec Rule.all options.substitution before).result = .ok m ∧
          m.changed = true ∧
          outcome.output =
            "Would update: " ++ path ++ "\n" ++ Patch.render path before m.output
  | updated =>
      outcome.exitCode = 0 ∧ outcome.output = "Updated: " ++ path ++ "\n" ∧
        overrides.dryRun = false ∧
        ∃ options before m, Prepared faults store path configPath overrides options before ∧
          (migrateText Yaml.codec Rule.all options.substitution before).result = .ok m ∧
          m.changed = true ∧
          (∃ saved, BacksUp faults store path before options.backupSuffix saved ∧
            faults.writeBytes saved path m.output.toUTF8 = (.ok (), after)) ∧
          after.readBytes path = .ok m.output.toUTF8 ∧
          ∀ location, after.at? location ≠ store.at? location →
            store.LeadsTo path location ∨
              ∃ suffix, options.backupSuffix = some suffix ∧
                store.LeadsTo (path ++ suffix) location
  | rejected =>
      outcome.exitCode = 2 ∧ outcome.output = "" ∧ after = store ∧
        Rejects faults store path configPath overrides
  | failed =>
      outcome.exitCode = 1 ∧ outcome.output = "" ∧
        after.readBytes path = store.readBytes path ∧
        Fails faults store path configPath overrides after

theorem head?_append {text : String} {c : Char} (starts : text.toList.head? = some c)
    (more : String) : (text ++ more).toList.head? = some c := by
  rw [String.toList_append, List.head?_append, starts]
  rfl

theorem Ending.ofOutcome_eq {outcome : Outcome} {ending : Ending}
    (shows : ending.Shows faults store path configPath overrides outcome after) :
    Ending.ofOutcome outcome = ending := by
  cases ending with
  | unchanged =>
      obtain ⟨code, line, -⟩ := shows
      have starts : outcome.output.toList.head? = some 'N' := by
        rw [line]
        exact head?_append (head?_append (by decide) path) _
      simp only [ofOutcome, code, starts]
  | previewed =>
      obtain ⟨code, -, -, _, _, _, -, -, -, line⟩ := shows
      have starts : outcome.output.toList.head? = some 'W' := by
        rw [line]
        exact head?_append (head?_append (head?_append (by decide) path) _) _
      simp only [ofOutcome, code, starts]
  | updated =>
      obtain ⟨code, line, -⟩ := shows
      have starts : outcome.output.toList.head? = some 'U' := by
        rw [line]
        exact head?_append (head?_append (by decide) path) _
      simp only [ofOutcome, code, starts]
      rfl
  | rejected => simp only [ofOutcome, shows.1]
  | failed => simp only [ofOutcome, shows.1]

/-! ## Every run ends so -/

section

variable {config : Config} {events : List FileEvent} {outcome : Outcome}
  {result : Except (FileMigrationError Yaml.LoadError) FileMigration}

theorem rejects_iff (prepared : Prepared faults store path configPath overrides options before) :
    Rejects faults store path configPath overrides ↔
      (∃ cause, (migrateText Yaml.codec Rule.all options.substitution before).result =
        .error (.parse cause)) ∨
      ∃ index cause, (migrateText Yaml.codec Rule.all options.substitution before).result =
        .error (.transform index cause) := by
  constructor
  · rintro ⟨options', before', prepared', refused⟩
    obtain ⟨rfl, rfl⟩ := prepared.unique prepared'
    exact refused
  · exact fun refused => ⟨options, before, prepared, refused⟩

theorem not_rejects_of_migrated {m : Migration}
    (prepared : Prepared faults store path configPath overrides options before)
    (migrated : (migrateText Yaml.codec Rule.all options.substitution before).result = .ok m) :
    ¬ Rejects faults store path configPath overrides := by
  rw [rejects_iff prepared, migrated]
  simp

/-- A run that fails although its manifest migrates has failed to write. -/
theorem Fails.of_migrated (fails : Fails faults store path configPath overrides after)
    (prepared : Prepared faults store path configPath overrides options before) {m : Migration}
    (migrated : (migrateText Yaml.codec Rule.all options.substitution before).result = .ok m) :
    m.changed = true ∧ overrides.dryRun = false ∧
      ∀ saved, BacksUp faults store path before options.backupSuffix saved →
        ∃ cause, faults.writeBytes saved path m.output.toUTF8 = (.error cause, saved) := by
  cases fails with
  | noFile missing => cases missing.symm.trans prepared.file
  | unconfigured _ refuses =>
      obtain ⟨config, accepts, -⟩ := prepared.accepted
      cases refuses.symm.trans accepts
  | unread _ _ unread => cases unread.symm.trans prepared.read
  | unserialized prepared' unwritable =>
      obtain ⟨rfl, rfl⟩ := prepared.unique prepared'
      cases unwritable.symm.trans migrated
  | unsaved prepared' migrated' changed wet backup unsaved =>
      obtain ⟨rfl, rfl⟩ := prepared.unique prepared'
      obtain rfl := Except.ok.inj (migrated'.symm.trans migrated)
      refine ⟨changed, wet, fun saved saves => ?_⟩
      rw [backup] at saves
      cases unsaved.symm.trans saves
  | unwritten prepared' migrated' changed wet saves unwritten =>
      obtain ⟨rfl, rfl⟩ := prepared.unique prepared'
      obtain rfl := Except.ok.inj (migrated'.symm.trans migrated)
      refine ⟨changed, wet, fun saved saves' => ?_⟩
      obtain rfl := saves.unique saves'
      exact ⟨_, unwritten⟩

theorem Fails.not_rejects (fails : Fails faults store path configPath overrides after) :
    ¬ Rejects faults store path configPath overrides := by
  rintro ⟨options, before, prepared, refused⟩
  have notMigrated (m : Migration) :
      (migrateText Yaml.codec Rule.all options.substitution before).result ≠ .ok m := by
    intro migrated
    simp [migrated] at refused
  cases fails with
  | noFile missing => cases missing.symm.trans prepared.file
  | unconfigured _ refuses =>
      obtain ⟨config, accepts, -⟩ := prepared.accepted
      cases refuses.symm.trans accepts
  | unread _ _ unread => cases unread.symm.trans prepared.read
  | unserialized prepared' unwritable =>
      obtain ⟨rfl, rfl⟩ := prepared.unique prepared'
      simp [unwritable] at refused
  | unsaved prepared' migrated | unwritten prepared' migrated =>
      obtain ⟨rfl, rfl⟩ := prepared.unique prepared'
      exact notMigrated _ migrated

/-- Where a run fails, no other ending shows. -/
theorem Fails.eq_failed {outcome : Outcome} {ending : Ending}
    (fails : Fails faults store path configPath overrides after)
    (shows : ending.Shows faults store path configPath overrides outcome after) :
    ending = .failed := by
  cases ending with
  | unchanged =>
      obtain ⟨-, -, -, options, before, m, prepared, migrated, same⟩ := shows
      cases same.symm.trans (fails.of_migrated prepared migrated).1
  | previewed =>
      obtain ⟨-, dry, -, options, before, m, prepared, migrated, -⟩ := shows
      cases dry.symm.trans (fails.of_migrated prepared migrated).2.1
  | updated =>
      obtain ⟨-, -, -, options, before, m, prepared, migrated, -, ⟨saved, saves, writes⟩, -⟩ := shows
      obtain ⟨cause, unwritten⟩ := (fails.of_migrated prepared migrated).2.2 saved saves
      cases unwritten.symm.trans writes
  | rejected => exact absurd shows.2.2.2 fails.not_rejects
  | failed => rfl

/-- The exit code and the standard output, by what comes of the migration. -/
structure Tells (dryRun : Bool) (result : Except (FileMigrationError Yaml.LoadError) FileMigration)
    (outcome : Outcome) : Prop where
  of_error : ∀ e, result = .error e → outcome.exitCode = e.exitCode ∧ outcome.output = ""
  of_ok : ∀ m, result = .ok m → outcome.exitCode = 0 ∧ outcome.output = summary dryRun m

theorem tells_runMigration (log : List Log.Entry)
    (migrated : (migrateFile Yaml.codec Rule.all options path : Fallible faults _).run store =
      ((events, result), after)) :
    let run := (runMigration log options path : Fallible faults _).run store
    run.2 = after ∧ Tells options.dryRun result run.1 := by
  simp only [runMigration, Fallible.run_bind, migrated]
  cases result with
  | error e =>
      refine ⟨rfl, ?_, nofun⟩
      rintro _ ⟨⟩
      exact ⟨rfl, rfl⟩
  | ok m =>
      refine ⟨rfl, nofun, ?_⟩
      rintro _ ⟨⟩
      exact ⟨rfl, rfl⟩

/-- The course of the migration decides how the run ends. -/
theorem exists_ending (file : store.isFile path = true)
    (accepts : Accepts faults store configPath config)
    (course : Course faults Yaml.codec (Node.transform Rule.all) (config.options overrides) path store
      result after)
    (tells : Tells overrides.dryRun result outcome) :
    ∃ ending : Ending, ending.Shows faults store path configPath overrides outcome after := by
  have prepared {before : String} (read : faults.readText store path = .ok before) :
      Prepared faults store path configPath overrides (config.options overrides) before :=
    ⟨file, ⟨config, accepts, rfl⟩, read⟩
  have held : ∀ e, result = .error e → after.readBytes path = store.readBytes path :=
    fun _ => course.readBytes_of_error
  have altered : ∀ location, after.at? location ≠ store.at? location → _ :=
    fun _ => course.leadsTo_of_altered
  cases course with
  | unread fails =>
      obtain ⟨code, line⟩ := tells.of_error _ rfl
      exact ⟨.failed, code, line, rfl, .unread file accepts fails⟩
  | @refused before cause read fails =>
      obtain ⟨code, line⟩ := tells.of_error _ rfl
      cases cause with
      | parse cause =>
          exact ⟨.rejected, code, line, rfl, _, _, prepared read, .inl ⟨cause, fails⟩⟩
      | transform index cause =>
          exact ⟨.rejected, code, line, rfl, _, _, prepared read, .inr ⟨index, cause, fails⟩⟩
      | serialize cause =>
          exact ⟨.failed, code, line, rfl, .unserialized (prepared read) fails⟩
  | @left before m known idle =>
      obtain ⟨code, line⟩ := tells.of_ok _ rfl
      cases changed : m.changed with
      | false =>
          have shown : outcome.output = "No changes needed: " ++ path ++ "\n" := by
            simp only [line, summary, changed, Bool.not_false, if_true]
          exact ⟨.unchanged, code, shown, rfl, _, _, _, prepared known.read, known.migrated,
            changed⟩
      | true =>
          have dry : overrides.dryRun = true := idle.resolve_left (by simp [changed])
          have shown : outcome.output =
              "Would update: " ++ path ++ "\n" ++ Patch.render path before m.output := by
            simp [line, summary, changed, dry]
          exact ⟨.previewed, code, dry, rfl, _, _, _, prepared known.read, known.migrated, changed,
            shown⟩
  | unsaved known changed wet backup fails =>
      obtain ⟨code, line⟩ := tells.of_error _ rfl
      exact ⟨.failed, code, line, held _ rfl,
        .unsaved (prepared known.read) known.migrated changed wet backup fails⟩
  | unwritten known changed wet saves fails =>
      obtain ⟨code, line⟩ := tells.of_error _ rfl
      exact ⟨.failed, code, line, held _ rfl,
        .unwritten (prepared known.read) known.migrated changed wet saves fails⟩
  | @replaced before m saved after known changed wet saves writes =>
      obtain ⟨code, line⟩ := tells.of_ok _ rfl
      have wet' : overrides.dryRun = false := wet
      have shown : outcome.output = "Updated: " ++ path ++ "\n" := by
        simp [line, summary, changed, wet']
      have written : after.readBytes path = .ok m.output.toUTF8 := by
        rw [(Faults.writes_of_ok writes).readBytes_self_iff, saves.leadsToNull_iff]
        exact fun null => absurd null (Store.not_leadsToNull_of_isFile file)
      exact ⟨.updated, code, shown, wet', _, _, m, prepared known.read, known.migrated, changed,
        ⟨saved, saves, writes⟩, written, altered⟩

theorem exists_ending_of_config (file : store.isFile path = true)
    (accepts : Accepts faults store configPath config) (log : List Log.Entry) :
    let run := (runMigration log (config.options overrides) path : Fallible faults _).run store
    ∃ ending : Ending, ending.Shows faults store path configPath overrides run.1 run.2 := by
  have course := course_migrateFile faults Yaml.codec Rule.all (config.options overrides) path store
  cases migrated : (migrateFile Yaml.codec Rule.all (config.options overrides) path :
      Fallible faults _).run store with
  | mk record after =>
      rw [migrated] at course
      intro run
      obtain ⟨left, tells⟩ : run.2 = after ∧ Tells overrides.dryRun record.2 run.1 :=
        tells_runMigration log migrated
      rw [left]
      exact exists_ending file accepts course tells

end

theorem run_migrate (faults : Faults) (store : Store) (path : String)
    (configPath : Option String) (overrides : Config.Overrides) : ∃ source loaded,
    ((Config.loadOrDefault configPath "." : Fallible faults _).run store).1 = loaded ∧
      (migrate path configPath overrides : Fallible faults _).run store =
        if store.isFile path = true then
          match loaded with
          | .error e =>
              (.failure 1 [.config source] ("load capimig.toml config" :: e.chain), store)
          | .ok config =>
              (runMigration [.config source] (config.options overrides) path :
                Fallible faults _).run store
        else (.failure 1 [] [path ++ " is not a file"], store) := by
  obtain ⟨source, chosen⟩ := run_source faults configPath "." store
  obtain ⟨loaded, ran⟩ := run_loadSource faults source store
  refine ⟨source, loaded, ?_, ?_⟩
  · simp only [Config.loadOrDefault, Fallible.run_bind, chosen, ran]
  · simp only [migrate, Fallible.run_bind]
    by_cases file : ((FileAccess.isFile path : Fallible faults _).run store).1 = true
    · rw [if_pos file, if_pos (show store.isFile path = true from file)]
      simp only [Fallible.run_bind, Fallible.run_isFile, chosen, ran]
      cases loaded <;> rfl
    · rw [if_neg file, if_neg (show ¬ store.isFile path = true from file)]
      rfl

theorem exists_ending_of_migrate (faults : Faults) (store : Store) (path : String)
    (configPath : Option String) (overrides : Config.Overrides) :
    let run := (migrate path configPath overrides : Fallible faults _).run store
    ∃ ending : Ending, ending.Shows faults store path configPath overrides run.1 run.2 := by
  intro run
  obtain ⟨source, loaded, outcome, ran⟩ := run_migrate faults store path configPath overrides
  by_cases file : store.isFile path = true
  · rw [if_pos file] at ran
    cases loaded with
    | ok config =>
        have ended : run = (runMigration [.config source] (config.options overrides) path :
            Fallible faults _).run store := ran
        rw [ended]
        exact exists_ending_of_config file outcome [.config source]
    | error e =>
        have ended : run = (.failure 1 [.config source] ("load capimig.toml config" :: e.chain),
            store) := ran
        rw [ended]
        exact ⟨.failed, rfl, rfl, rfl, .unconfigured file outcome⟩
  · have ended : run = (.failure 1 [] [path ++ " is not a file"], store) :=
      ran.trans (if_neg file)
    rw [ended]
    exact ⟨.failed, rfl, rfl, rfl, .noFile (by simpa using file)⟩

/-- A run that is to migrate a manifest ends in exactly one of the five ways, whatever faults strike.
    The exit code is 2 exactly when the manifest has been read, under a configuration that was
    accepted, and does not parse or is refused by a rule. It is 1 exactly when something else fails:
    the manifest is no file or unreadable, the configuration is refused, or a write fails. -/
theorem run_ends (faults : Faults) (store : Store) {arguments : List String} {path : String}
    {configPath : Option String} {overrides : Config.Overrides}
    (parsed : parse arguments = .ok (.migrate path configPath overrides)) :
    let run := (CommandLine.run arguments : Fallible faults Outcome).run store
    (∃! ending : Ending, ending.Shows faults store path configPath overrides run.1 run.2) ∧
      (run.1.exitCode = 2 ↔ Rejects faults store path configPath overrides) ∧
      (run.1.exitCode = 1 ↔ Fails faults store path configPath overrides run.2) := by
  intro run
  have same : run = (migrate path configPath overrides : Fallible faults _).run store := by
    simp only [run, CommandLine.run, parsed]
  obtain ⟨ending, shows⟩ := exists_ending_of_migrate faults store path configPath overrides
  rw [← same] at shows
  refine ⟨⟨ending, shows, ?_⟩, ?_, ?_⟩
  · intro other shows'
    exact (Ending.ofOutcome_eq shows').symm.trans (Ending.ofOutcome_eq shows)
  · cases ending with
    | unchanged | previewed | updated =>
        obtain ⟨code, -, -, _, _, _, prepared, migrated, -⟩ := shows
        exact iff_of_false (by simp [code]) (not_rejects_of_migrated prepared migrated)
    | rejected => exact iff_of_true shows.1 shows.2.2.2
    | failed => exact iff_of_false (by simp [shows.1]) shows.2.2.2.not_rejects
  · constructor
    · intro code
      cases ending with
      | unchanged | previewed | updated | rejected => cases shows.1.symm.trans code
      | failed => exact shows.2.2.2
    · intro fails
      obtain rfl := fails.eq_failed shows
      exact shows.1

theorem run_ends_unclosed :
    let store : Store := ⟨⟨[("/work", .directory),
      ("/work/broken.yaml", .file "kind: Cluster\nspec: [unclosed\n".toUTF8)]⟩, "/work"⟩
    let overrides : Config.Overrides := ⟨none, none, true, false⟩
    let run := (CommandLine.run ["--backup", "broken.yaml"] : Fallible .none Outcome).run store
    parse ["--backup", "broken.yaml"] = .ok (.migrate "broken.yaml" none overrides) ∧
      (∃! ending : Ending, ending.Shows .none store "broken.yaml" none overrides run.1 run.2) ∧
      run.1.exitCode = 2 := by
  intro store overrides run
  have parsed : parse ["--backup", "broken.yaml"] = .ok (.migrate "broken.yaml" none overrides) := by
    decide +kernel
  have rejects : Rejects .none store "broken.yaml" none overrides := by
    have accepts : Accepts .none store none .default := by
      unfold Accepts
      decide +kernel
    have read : Faults.none.readText store "broken.yaml" =
        .ok "kind: Cluster\nspec: [unclosed\n" := by
      decide +kernel
    refine ⟨Config.default.options overrides, _, ⟨by decide +kernel, ⟨_, accepts, rfl⟩, read⟩, .inl ?_⟩
    have loaded : Yaml.codec.load (Substitution.default.apply "kind: Cluster\nspec: [unclosed\n") =
        .error .malformed := by
      decide +kernel
    have refused : (migrateText Yaml.codec Rule.all Substitution.default
        "kind: Cluster\nspec: [unclosed\n").result = .error (.parse .malformed) := by
      simp only [migrateText, migrateTextWith, loaded]
    exact ⟨.malformed, refused⟩
  obtain ⟨ends, code, -⟩ := run_ends .none store parsed
  exact ⟨parsed, ends, code.mpr rejects⟩

end ManifestMigration.CommandLine
