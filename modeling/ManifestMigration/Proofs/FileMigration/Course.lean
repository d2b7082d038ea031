import ManifestMigration.FileMigration
import ManifestMigration.Proofs.Files.Faults
import ManifestMigration.Proofs.Migration.Rerun

/-! # How the migration of a file goes

A file is read, its text is migrated, the old text is kept, the new one is written. Each of these can
fail, and then nothing that comes later happens. What the file and its surroundings are left as
follows from how far the migration has come.
-/

namespace ManifestMigration

variable {ε : Type} {faults : Faults} {codec : Codec ε} {engine : Engine} {options : Options}
  {path : String} {store after : Store} {result : Except (FileMigrationError ε) FileMigration}

/-- A file is read, and its text migrates. -/
structure Migrates (faults : Faults) (codec : Codec ε) (engine : Engine) (s : Substitution)
    (store : Store) (path before : String) (m : Migration) : Prop where
  read : faults.readText store path = .ok before
  migrated : (migrateTextWith codec engine s before).result = .ok m

/-- The old text of a file is kept, if there is a suffix for the copy. -/
def BacksUp (faults : Faults) (store : Store) (path before : String) :
    Option String → Store → Prop
  | none, saved => saved = store
  | some suffix, saved =>
      faults.writeBytes store (path ++ suffix) before.toUTF8 = (.ok (), saved)

/-- The courses that a migration can take, with what they give and the store that they leave. -/
inductive Course (faults : Faults) (codec : Codec ε) (engine : Engine) (options : Options)
    (path : String) (store : Store) : Except (FileMigrationError ε) FileMigration → Store → Prop where
  | unread {cause} (fails : faults.readText store path = .error cause) :
      Course faults codec engine options path store (.error (.read path cause)) store
  | refused {before cause} (read : faults.readText store path = .ok before)
      (fails : (migrateTextWith codec engine options.substitution before).result = .error cause) :
      Course faults codec engine options path store (.error (.text cause)) store
  | left {before m} (known : Migrates faults codec engine options.substitution store path before m)
      (idle : m.changed = false ∨ options.dryRun = true) :
      Course faults codec engine options path store
        (.ok ⟨path, m, false, Patch.render path before m.output⟩) store
  | unsaved {before m suffix cause}
      (known : Migrates faults codec engine options.substitution store path before m)
      (changed : m.changed = true) (wet : options.dryRun = false)
      (backup : options.backupSuffix = some suffix)
      (fails : faults.writeBytes store (path ++ suffix) before.toUTF8 = (.error cause, store)) :
      Course faults codec engine options path store (.error (.write (path ++ suffix) cause)) store
  | unwritten {before m saved cause}
      (known : Migrates faults codec engine options.substitution store path before m)
      (changed : m.changed = true) (wet : options.dryRun = false)
      (saves : BacksUp faults store path before options.backupSuffix saved)
      (fails : faults.writeBytes saved path m.output.toUTF8 = (.error cause, saved)) :
      Course faults codec engine options path store (.error (.write path cause)) saved
  | replaced {before m saved after}
      (known : Migrates faults codec engine options.substitution store path before m)
      (changed : m.changed = true) (wet : options.dryRun = false)
      (saves : BacksUp faults store path before options.backupSuffix saved)
      (writes : faults.writeBytes saved path m.output.toUTF8 = (.ok (), after)) :
      Course faults codec engine options path store
        (.ok ⟨path, m, true, Patch.render path before m.output⟩) after

/-! ## Every migration takes a course -/

theorem writeRecorded_cases (ε : Type) (faults : Faults) (store : Store) (path text : String)
    (event : FileEvent) :
    (∃ cause, faults.writeBytes store path text.toUTF8 = (.error cause, store) ∧
      (writeRecorded path text event : Fallible faults (FileRecord ε Unit)).run store =
        (([], .error (.write path cause)), store)) ∨
    ∃ after, faults.writeBytes store path text.toUTF8 = (.ok (), after) ∧
      (writeRecorded path text event : Fallible faults (FileRecord ε Unit)).run store =
        (([event], .ok ()), after) := by
  simp only [writeRecorded, Fallible.run_bind, Fallible.run_writeText]
  cases written : faults.writeBytes store path text.toUTF8 with
  | mk outcome after =>
      cases outcome with
      | error cause =>
          obtain rfl := Faults.left_of_error written
          exact .inl ⟨cause, rfl, rfl⟩
      | ok _ => exact .inr ⟨after, rfl, rfl⟩

theorem backUp_cases (ε : Type) (faults : Faults) (store : Store) (path before : String)
    (suffix? : Option String) :
    (∃ suffix cause, suffix? = some suffix ∧
      faults.writeBytes store (path ++ suffix) before.toUTF8 = (.error cause, store) ∧
      (backUp path before suffix? : Fallible faults (FileRecord ε Unit)).run store =
        (([], .error (.write (path ++ suffix) cause)), store)) ∨
    ∃ events saved, BacksUp faults store path before suffix? saved ∧
      (backUp path before suffix? : Fallible faults (FileRecord ε Unit)).run store =
        ((events, .ok ()), saved) := by
  cases suffix? with
  | none => exact .inr ⟨[], store, rfl, rfl⟩
  | some suffix =>
      obtain ⟨cause, fails, ran⟩ | ⟨saved, writes, ran⟩ :=
        writeRecorded_cases ε faults store (path ++ suffix) before (.backedUp path (path ++ suffix))
      · exact .inl ⟨suffix, cause, rfl, fails, ran⟩
      · exact .inr ⟨_, saved, writes, ran⟩

/-- The patch is that of the text against the output, whether or not something changed. -/
theorem Migrates.patch_eq {s : Substitution} {before : String} {m : Migration}
    (known : Migrates faults codec engine s store path before m) :
    (if m.changed then Patch.render path before m.output else "") =
      Patch.render path before m.output := by
  cases changed : m.changed with
  | true => rfl
  | false =>
      rw [output_eq_of_unchanged known.migrated changed, Patch.render_self]
      rfl

theorem course_of_changed {before : String} {m : Migration}
    (known : Migrates faults codec engine options.substitution store path before m)
    (changed : m.changed = true) (wet : options.dryRun = false) :
    let replaced : (FileRecord ε Unit) × Store :=
      (replaceFile options.backupSuffix path before m.output : Fallible faults _).run store
    Course faults codec engine options path store
      (replaced.1.2.map fun _ => ⟨path, m, true, Patch.render path before m.output⟩) replaced.2 := by
  intro replaced
  obtain ⟨suffix, cause, backup, fails, ran⟩ | ⟨events, saved, saves, ran⟩ :=
    backUp_cases ε faults store path before options.backupSuffix
  · have stops : replaced = (([], .error (.write (path ++ suffix) cause)), store) := by
      simp only [replaced, replaceFile, Fallible.run_bind, ran, Fallible.run_pure]
    rw [stops]
    exact .unsaved known changed wet backup fails
  · obtain ⟨cause, fails, wrote⟩ | ⟨after, writes, wrote⟩ :=
      writeRecorded_cases ε faults saved path m.output (.wrote path)
    · have stops : replaced = ((events ++ [], .error (.write path cause)), saved) := by
        simp only [replaced, replaceFile, Fallible.run_bind, ran, wrote, Fallible.run_pure]
      rw [stops]
      exact .unwritten known changed wet saves fails
    · have ends : replaced = ((events ++ [.wrote path], .ok ()), after) := by
        simp only [replaced, replaceFile, Fallible.run_bind, ran, wrote, Fallible.run_pure]
      rw [ends]
      exact .replaced known changed wet saves writes

theorem course_of_read {before : String} (read : faults.readText store path = .ok before) :
    let run := (migrateKnown codec engine options path before : Fallible faults _).run store
    Course faults codec engine options path store run.1.2 run.2 := by
  intro run
  cases migrated : migrateTextWith codec engine options.substitution before with
  | mk events outcome =>
      cases outcome with
      | error cause =>
          have stops : run = ((events.map .walk, .error (.text cause)), store) := by
            simp only [run, migrateKnown, migrated, Fallible.run_pure]
          rw [stops]
          exact .refused read (congrArg Recorded.result migrated)
      | ok m =>
          have known : Migrates faults codec engine options.substitution store path before m :=
            ⟨read, congrArg Recorded.result migrated⟩
          simp only [run, migrateKnown, migrated, known.patch_eq]
          split
          · next due =>
            obtain ⟨changed, wet⟩ := Bool.and_eq_true_iff.mp due
            exact course_of_changed known changed (by simpa using wet)
          · next idle =>
            refine .left known ?_
            cases changed : m.changed with
            | false => exact .inl rfl
            | true => exact .inr (by simpa [changed] using idle)

/-- Migrating a file takes one of the courses. -/
theorem course_migrateFileWith (faults : Faults) (codec : Codec ε) (engine : Engine)
    (options : Options) (path : String) (store : Store) :
    let run := (migrateFileWith codec engine options path : Fallible faults _).run store
    Course faults codec engine options path store run.1.2 run.2 := by
  simp only [migrateFileWith, Fallible.run_bind, Fallible.run_readText]
  cases read : faults.readText store path with
  | error cause => exact .unread read
  | ok before => exact course_of_read read

theorem course_migrateFile (faults : Faults) (codec : Codec ε) (rules : List Rule)
    (options : Options) (path : String) (store : Store) :
    let run := (migrateFile codec rules options path : Fallible faults _).run store
    Course faults codec (Node.transform rules) options path store run.1.2 run.2 :=
  course_migrateFileWith ..

end ManifestMigration
