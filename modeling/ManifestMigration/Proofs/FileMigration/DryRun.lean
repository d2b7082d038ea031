import ManifestMigration.Proofs.FileMigration.Atomicity

/-! # Dry runs

A dry run stops where a real run starts to write, so until then the two do the same. What the dry
run shows is what the real run reports and writes.
-/

namespace ManifestMigration

variable {ε : Type} {faults : Faults} {codec : Codec ε} {engine : Engine} {options : Options}
  {path before output : String} {store after : Store} {m : Migration}
  {result : Except (FileMigrationError ε) FileMigration}

theorem Migrates.unique {s : Substitution} {before' : String} {m' : Migration}
    (known : Migrates faults codec engine s store path before m)
    (known' : Migrates faults codec engine s store path before' m') : before' = before ∧ m' = m := by
  obtain rfl := Except.ok.inj (known'.read.symm.trans known.read)
  exact ⟨rfl, Except.ok.inj (known'.migrated.symm.trans known.migrated)⟩

namespace Course

variable (course : Course faults codec engine options path store result after)

include course

theorem result_of_unread {cause : FileError} (fails : faults.readText store path = .error cause) :
    result = .error (.read path cause) := by
  cases course with
  | unread fails' =>
      cases fails'.symm.trans fails
      rfl
  | refused read => cases read.symm.trans fails
  | left known | unsaved known | unwritten known | replaced known =>
      cases known.read.symm.trans fails

theorem result_of_refused {cause : MigrationError ε}
    (read : faults.readText store path = .ok before)
    (fails : (migrateTextWith codec engine options.substitution before).result = .error cause) :
    result = .error (.text cause) := by
  cases course with
  | unread unread => cases unread.symm.trans read
  | refused read' fails' =>
      cases read'.symm.trans read
      cases fails'.symm.trans fails
      rfl
  | left known | unsaved known | unwritten known | replaced known =>
      cases known.read.symm.trans read
      cases known.migrated.symm.trans fails

theorem result_of_dryRun (dry : options.dryRun = true)
    (known : Migrates faults codec engine options.substitution store path before m) :
    result = .ok ⟨path, m, false, Patch.render path before m.output⟩ := by
  cases course with
  | unread unread => cases unread.symm.trans known.read
  | refused read fails =>
      cases read.symm.trans known.read
      cases fails.symm.trans known.migrated
  | left known' =>
      obtain ⟨rfl, rfl⟩ := known.unique known'
      rfl
  | unsaved _ _ wet | unwritten _ _ wet | replaced _ _ wet => cases wet.symm.trans dry

/-- A run that is not dry leaves the output in the file, written anew if something changed. -/
theorem exists_of_ok (wet : options.dryRun = false) {done : FileMigration}
    (ends : result = .ok done) :
    ∃ before, Migrates faults codec engine options.substitution store path before done.migration ∧
      done = ⟨path, done.migration, done.migration.changed,
        Patch.render path before done.migration.output⟩ ∧
      (after.readBytes path = .ok done.migration.output.toUTF8 ↔
        (store.LeadsToNull path → done.migration.output = "")) := by
  cases course with
  | unread | refused | unsaved | unwritten => cases ends
  | left known idle =>
      cases ends
      have same := idle.resolve_right (by simp [wet])
      have read := Faults.readBytes_of_readText known.read
      refine ⟨_, known, by rw [same], ?_⟩
      rw [output_eq_of_unchanged known.migrated same]
      exact iff_of_true read fun null => Faults.toUTF8_eq_empty_iff.mp (null.eq_empty read)
  | @replaced _ _ saved _ known changed _ saves writes =>
      cases ends
      refine ⟨_, known, by rw [changed], ?_⟩
      rw [(Faults.writes_of_ok writes).readBytes_self_iff, saves.leadsToNull_iff,
        Faults.toUTF8_eq_empty_iff]

end Course

/-- A dry run and a real one from the same store. If the dry run fails, the real one fails alike. If
    the real one succeeds, the dry run has reported the same but for the writing; the patch is that
    of the old text against the output, and the output is what the file holds afterwards. A null
    device holds nothing, so it holds the output only if that is empty. -/
theorem dry_run_predicts (faults : Faults) (store : Store) (codec : Codec ε) (engine : Engine)
    (options : Options) (path : String) :
    let dry := (migrateFileWith codec engine { options with dryRun := true } path :
      Fallible faults _).run store
    let real := (migrateFileWith codec engine { options with dryRun := false } path :
      Fallible faults _).run store
    (∀ e, dry.1.2 = .error e → real.1.2 = .error e) ∧
      ∀ m, real.1.2 = .ok m →
        dry.1.2 = .ok { m with written := false } ∧ m.written = m.migration.changed ∧
          ∃ before : String, store.readBytes path = .ok before.toUTF8 ∧
            m.patch = Patch.render path before m.migration.output ∧
            (m.patch = "" ↔ m.migration.output = before) ∧
            (real.2.readBytes path = .ok m.migration.output.toUTF8 ↔
              (store.LeadsToNull path → m.migration.output = "")) := by
  intro dry real
  have dryCourse : Course faults codec engine { options with dryRun := true } path store dry.1.2
    dry.2 := course_migrateFileWith ..
  have realCourse : Course faults codec engine { options with dryRun := false } path store real.1.2
    real.2 := course_migrateFileWith ..
  constructor
  · intro e fails
    generalize dry.1.2 = result, dry.2 = after at dryCourse fails
    cases dryCourse with
    | unread unread =>
        cases fails
        exact realCourse.result_of_unread unread
    | refused read refused =>
        cases fails
        exact realCourse.result_of_refused read refused
    | left => cases fails
    | unsaved _ _ wet | unwritten _ _ wet | replaced _ _ wet => cases wet
  · intro m ends
    obtain ⟨before, known, shape, held⟩ := realCourse.exists_of_ok rfl ends
    have predicted := dryCourse.result_of_dryRun rfl known
    refine ⟨?_, congrArg FileMigration.written shape, before,
      Faults.readBytes_of_readText known.read, congrArg FileMigration.patch shape, ?_, held⟩
    · rw [predicted, shape]
    · rw [congrArg FileMigration.patch shape]
      exact Patch.render_eq_empty_iff

end ManifestMigration
