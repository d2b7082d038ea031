import ManifestMigration.Proofs.FileMigration.Course

/-! # What a migration leaves alone

A migration that fails keeps the file as it was, and one that has nothing to write alters nothing at
all. Whatever happens, only the file and its backup are ever altered, and only when the text has
migrated with a change.
-/

namespace ManifestMigration

variable {ε : Type} {faults : Faults} {codec : Codec ε} {engine : Engine} {options : Options}
  {path before : String} {suffix? : Option String} {store saved after : Store}
  {result : Except (FileMigrationError ε) FileMigration}

namespace BacksUp

theorem unique (saves : BacksUp faults store path before suffix? saved) {saved' : Store}
    (saves' : BacksUp faults store path before suffix? saved') : saved' = saved := by
  cases suffix? with
  | none => exact Eq.trans saves' (Eq.symm saves)
  | some suffix => exact congrArg Prod.snd (Eq.trans (Eq.symm saves') saves)

theorem sameDirectories (saves : BacksUp faults store path before suffix? saved) :
    store.SameDirectories saved := by
  cases suffix? with
  | none =>
      obtain rfl : saved = store := saves
      exact .refl saved
  | some suffix => exact (Faults.writes_of_ok saves).sameDirectories

theorem leadsTo_iff (saves : BacksUp faults store path before suffix? saved)
    {other location : String} : saved.LeadsTo other location ↔ store.LeadsTo other location :=
  exists_congr fun _ => (Store.locate_congr saves.sameDirectories).symm

theorem leadsToNull_iff (saves : BacksUp faults store path before suffix? saved) {other : String} :
    saved.LeadsToNull other ↔ store.LeadsToNull other := by
  cases suffix? with
  | none =>
      obtain rfl : saved = store := saves
      exact Iff.rfl
  | some suffix => exact (Faults.writes_of_ok saves).leadsToNull_iff

/-- A backup holds what the file reads, so the file reads it still. -/
theorem readBytes_eq (saves : BacksUp faults store path before suffix? saved)
    (read : store.readBytes path = .ok before.toUTF8) :
    saved.readBytes path = .ok before.toUTF8 := by
  cases suffix? with
  | none =>
      obtain rfl : saved = store := saves
      exact read
  | some suffix => exact (Faults.writes_of_ok saves).readBytes_of_read read

theorem leadsTo_of_altered (saves : BacksUp faults store path before suffix? saved)
    {location : String} (altered : saved.at? location ≠ store.at? location) :
    ∃ suffix, suffix? = some suffix ∧ store.LeadsTo (path ++ suffix) location := by
  cases suffix? with
  | none =>
      obtain rfl : saved = store := saves
      exact absurd rfl altered
  | some suffix =>
      refine ⟨suffix, rfl, ?_⟩
      by_contra elsewhere
      exact altered ((Faults.writes_of_ok saves).at?_eq elsewhere)

end BacksUp

namespace Course

variable (course : Course faults codec engine options path store result after)

include course

/-- Nothing is altered before the text has migrated with a change that is to be written. -/
theorem changed_of_ne (altered : after ≠ store) :
    options.dryRun = false ∧
      ∃ before m, Migrates faults codec engine options.substitution store path before m ∧
        m.changed = true := by
  cases course with
  | unread | refused | left | unsaved => exact absurd rfl altered
  | unwritten known changed wet | replaced known changed wet => exact ⟨wet, _, _, known, changed⟩

theorem eq_of_read_error {target : String} {cause : FileError}
    (fails : result = .error (.read target cause)) : after = store := by
  cases course <;> cases fails
  rfl

theorem eq_of_text_error {cause : MigrationError ε} (fails : result = .error (.text cause)) :
    after = store := by
  cases course <;> cases fails
  rfl

theorem eq_of_unchanged {m : FileMigration} (done : result = .ok m)
    (same : m.migration.changed = false) : after = store ∧ m.written = false := by
  cases course with
  | unread | refused | unsaved | unwritten => cases done
  | left =>
      cases done
      exact ⟨rfl, rfl⟩
  | replaced known changed =>
      cases done
      cases changed.symm.trans same

theorem not_written_of_dryRun (dry : options.dryRun = true) {m : FileMigration}
    (done : result = .ok m) : m.written = false := by
  cases course with
  | unread | refused | unsaved | unwritten => cases done
  | left =>
      cases done
      rfl
  | replaced known changed wet => cases wet.symm.trans dry

/-- A run that fails leaves the file with the bytes that it had. -/
theorem readBytes_of_error {e : FileMigrationError ε} (fails : result = .error e) :
    after.readBytes path = store.readBytes path := by
  cases course with
  | unread | refused | unsaved => rfl
  | left | replaced => cases fails
  | unwritten known changed wet saves =>
      have read := Faults.readBytes_of_readText known.read
      exact (saves.readBytes_eq read).trans read.symm

/-- Only the file and its backup are altered. -/
theorem leadsTo_of_altered {location : String}
    (altered : after.at? location ≠ store.at? location) :
    store.LeadsTo path location ∨
      ∃ suffix, options.backupSuffix = some suffix ∧ store.LeadsTo (path ++ suffix) location := by
  cases course with
  | unread | refused | left | unsaved => exact absurd rfl altered
  | unwritten known changed wet saves => exact .inr (saves.leadsTo_of_altered altered)
  | @replaced before m saved after known changed wet saves writes =>
      by_cases here : store.LeadsTo path location
      · exact .inl here
      · refine .inr (saves.leadsTo_of_altered ?_)
        intro kept
        have elsewhere : ¬ saved.LeadsTo path location := mt saves.leadsTo_iff.mp here
        exact altered (((Faults.writes_of_ok writes).at?_eq elsewhere).trans kept)

theorem workingDirectory_eq : after.workingDirectory = store.workingDirectory := by
  cases course with
  | unread | refused | left | unsaved => rfl
  | unwritten known changed wet saves => exact saves.sameDirectories.workingDirectory.symm
  | replaced known changed wet saves writes =>
      have kept := (Faults.writes_of_ok writes).sameDirectories.workingDirectory
      exact (saves.sameDirectories.workingDirectory.trans kept).symm

end Course

/-- Migrating a file in a store with any faults. Until the text has migrated, a failure leaves the
    store as it was; every failure leaves the file as it was; a dry run and a migration without a
    change leave the store as it was. At most the file and its backup are altered, and only if the
    text has migrated with a change and the run is not dry; paths go on from the same directory. -/
theorem migrateFile_atomic (faults : Faults) (store : Store) (codec : Codec ε) (engine : Engine)
    (options : Options) (path : String) :
    let run := (migrateFileWith codec engine options path : Fallible faults _).run store
    let result := run.1.2
    let after := run.2
    (∀ target cause, result = .error (.read target cause) → after = store) ∧
      (∀ cause, result = .error (.text cause) → after = store) ∧
      (∀ e, result = .error e → after.readBytes path = store.readBytes path) ∧
      (options.dryRun = true → after = store ∧ ∀ m, result = .ok m → m.written = false) ∧
      (∀ m, result = .ok m → m.migration.changed = false → after = store ∧ m.written = false) ∧
      (∀ location, after.at? location ≠ store.at? location →
        (store.LeadsTo path location ∨
          ∃ suffix, options.backupSuffix = some suffix ∧
            store.LeadsTo (path ++ suffix) location) ∧
        options.dryRun = false ∧
          ∃ before m, faults.readText store path = .ok before ∧
            (migrateTextWith codec engine options.substitution before).result = .ok m ∧
            m.changed = true) ∧
      after.workingDirectory = store.workingDirectory := by
  intro run result after
  have course : Course faults codec engine options path store result after :=
    course_migrateFileWith faults codec engine options path store
  refine ⟨fun _ _ => course.eq_of_read_error, fun _ => course.eq_of_text_error,
    fun _ => course.readBytes_of_error, ?_, fun _ => course.eq_of_unchanged, ?_,
    course.workingDirectory_eq⟩
  · intro dry
    refine ⟨?_, fun _ => course.not_written_of_dryRun dry⟩
    by_contra altered
    cases (course.changed_of_ne altered).1.symm.trans dry
  · intro location altered
    have differs : after ≠ store := by
      intro same
      exact altered (congrArg (Store.at? · location) same)
    obtain ⟨wet, before, m, known, changed⟩ := course.changed_of_ne differs
    exact ⟨course.leadsTo_of_altered altered, wet, before, m, known.read, known.migrated, changed⟩

end ManifestMigration
