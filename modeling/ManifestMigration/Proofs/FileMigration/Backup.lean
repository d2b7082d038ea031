import ManifestMigration.Proofs.FileMigration.Atomicity

/-! # Backups

The old text is written where the path and the suffix lead, and then the output where the path
leads. Where the two are one place, the output replaces the old text a moment after it was kept; with
a suffix that holds no slash this happens exactly when the suffix is empty. A null device keeps
neither.
-/

namespace ManifestMigration

variable {ε : Type} {faults : Faults} {codec : Codec ε} {engine : Engine} {options : Options}
  {path suffix before output : String} {store saved after : Store}

/-- What a path reads is written behind it with a suffix, and then the path is written: when both
    are held. -/
theorem Store.Writes.held_iff {old new : ByteArray}
    (backsUp : store.Writes (path ++ suffix) old saved) (writes : saved.Writes path new after)
    (read : store.readBytes path = .ok old) :
    after.readBytes (path ++ suffix) = .ok old ∧ after.readBytes path = .ok new ↔
      (store.locate (path ++ suffix) = store.locate path → new = old) ∧
        (store.LeadsToNull (path ++ suffix) → old = .empty) ∧
        (store.LeadsToNull path → new = .empty) := by
  have written : after.readBytes path = .ok new ↔ (store.LeadsToNull path → new = .empty) := by
    rw [writes.readBytes_self_iff, backsUp.leadsToNull_iff]
  have way : saved.locate (path ++ suffix) = saved.locate path ↔
      store.locate (path ++ suffix) = store.locate path := by
    rw [eq_comm, backsUp.locate_eq_iff, eq_comm]
  by_cases same : store.locate (path ++ suffix) = store.locate path
  · have together : after.readBytes (path ++ suffix) = .ok old ↔ after.readBytes path = .ok old :=
      readBytes_congr (writes.locate_eq_iff.mpr (way.mpr same))
    have nothing : store.LeadsToNull (path ++ suffix) → old = .empty := by
      intro null
      exact ((leadsToNull_congr same).mp null).eq_empty read
    rw [together, written]
    constructor
    · rintro ⟨held, kept⟩
      have replaced := written.mpr kept
      exact ⟨fun _ => Except.ok.inj (replaced.symm.trans held), nothing, kept⟩
    · rintro ⟨replaced, -, kept⟩
      refine ⟨?_, kept⟩
      rw [← replaced same]
      exact written.mpr kept
  · rw [writes.readBytes_of_ne (mt way.mp same), backsUp.readBytes_self_iff, written]
    exact ⟨fun ⟨kept, wrote⟩ => ⟨fun here => absurd here same, kept, wrote⟩, fun held => held.2⟩

theorem exists_of_written {result : Except (FileMigrationError ε) FileMigration}
    {m : FileMigration} (course : Course faults codec engine options path store result after)
    (done : result = .ok m) (written : m.written = true) :
    ∃ before saved, Migrates faults codec engine options.substitution store path before m.migration ∧
      BacksUp faults store path before options.backupSuffix saved ∧
      faults.writeBytes saved path m.migration.output.toUTF8 = (.ok (), after) := by
  cases course with
  | unread | refused | unsaved | unwritten => cases done
  | left =>
      cases done
      cases written
  | replaced known changed wet saves writes =>
      cases done
      exact ⟨_, _, known, saves, writes⟩

/-- When a backup holds the old text and the file the output: unless the path of the backup leads to
    the file itself, or one of the two to a null device. A suffix without a slash leads to the file
    itself exactly when it is empty. -/
theorem backup_held_iff (backup : options.backupSuffix = some suffix) {events : List FileEvent}
    {m : FileMigration}
    (ran : (migrateFileWith codec engine options path : Fallible faults _).run store =
      ((events, .ok m), after))
    (written : m.written = true) :
    ∃ before : String, store.readBytes path = .ok before.toUTF8 ∧
      (migrateTextWith codec engine options.substitution before).result = .ok m.migration ∧
      (after.readBytes (path ++ suffix) = .ok before.toUTF8 ∧
          after.readBytes path = .ok m.migration.output.toUTF8 ↔
        (store.locate (path ++ suffix) = store.locate path → m.migration.output = before) ∧
          (store.LeadsToNull (path ++ suffix) → before = "") ∧
          (store.LeadsToNull path → m.migration.output = "")) ∧
      ('/' ∉ suffix.toList →
        (store.locate (path ++ suffix) = store.locate path ↔ suffix = "")) := by
  have course := course_migrateFileWith faults codec engine options path store
  rw [ran] at course
  obtain ⟨before, saved, known, saves, writes⟩ := exists_of_written course rfl written
  rw [backup] at saves
  have read := Faults.readBytes_of_readText known.read
  refine ⟨before, read, known.migrated, ?_, fun free => Store.locate_append_eq_iff read free⟩
  have held := (Faults.writes_of_ok saves).held_iff (Faults.writes_of_ok writes) read
  simp only [Faults.toUTF8_eq_empty_iff] at held
  exact held.trans (and_congr_left' (imp_congr_right fun _ => String.toByteArray_inj))

/-- With an empty suffix the output replaces what has just been kept. -/
theorem backup_lost_empty_suffix :
    let before := "apiVersion: cluster.x-k8s.io/v1beta1\n"
    let store : Store :=
      ⟨⟨[("/work", .directory), ("/work/cluster.yaml", .file before.toUTF8)]⟩, "/work"⟩
    let options : Options := ⟨.default, false, some ""⟩
    ∃ events m after,
      (migrateFile Yaml.codec Rule.all options "cluster.yaml" : Fallible .none _).run store =
          ((events, .ok m), after) ∧
        m.written = true ∧
        ¬ (after.readBytes ("cluster.yaml" ++ "") = .ok before.toUTF8 ∧
          after.readBytes "cluster.yaml" = .ok m.migration.output.toUTF8) := by
  intro before store options
  let output := "apiVersion: cluster.x-k8s.io/v1beta2\n"
  let m : FileMigration :=
    ⟨"cluster.yaml", ⟨output, true, 1, 0⟩, true, Patch.render "cluster.yaml" before output⟩
  have substituted : Substitution.default.apply before = output := by decide +kernel
  have loaded : Yaml.codec.load (Substitution.default.apply before) =
      .ok [.mapping ⟨[("apiVersion", .string "cluster.x-k8s.io/v1beta2")]⟩] := by decide +kernel
  have migrated : (migrateTextWith Yaml.codec (Node.transform Rule.all) .default before).result =
      .ok m.migration := by
    refine (migrateText_of_settled loaded (List.forall_mem_singleton.mpr (by decide +kernel))).trans ?_
    rw [substituted]
    decide +kernel
  have read : Faults.none.readText store "cluster.yaml" = .ok before := by decide +kernel
  have leads : store.locate "cluster.yaml" = .ok ⟨"/work/cluster.yaml", false⟩ := by decide +kernel
  have writes (bytes : ByteArray) : Faults.none.writeBytes store "cluster.yaml" bytes =
      (.ok (), store.withBytes "/work/cluster.yaml" bytes) :=
    Store.writes_iff.mpr ⟨_, leads, nofun, rfl⟩
  have kept : store.withBytes "/work/cluster.yaml" before.toUTF8 = store := rfl
  have replaced : ∃ events,
      (replaceFile (some "") "cluster.yaml" before output :
          Fallible .none (FileRecord Yaml.LoadError Unit)).run store =
        ((events, .ok ()), store.withBytes "/work/cluster.yaml" output.toUTF8) := by
    simp only [replaceFile, backUp, writeRecorded, String.append_empty, Fallible.run_bind,
      Fallible.run_writeText, writes, kept, Fallible.run_pure]
    exact ⟨_, rfl⟩
  obtain ⟨more, replaced⟩ := replaced
  have ran : ∃ events,
      (migrateFile Yaml.codec Rule.all options "cluster.yaml" : Fallible .none _).run store =
        ((events, .ok m), store.withBytes "/work/cluster.yaml" output.toUTF8) := by
    cases whole : migrateTextWith Yaml.codec (Node.transform Rule.all) .default before with
    | mk events result =>
        rw [whole] at migrated
        obtain rfl : result = .ok m.migration := migrated
        simp only [migrateFile, migrateFileWith, Fallible.run_bind, Fallible.run_readText, read,
          migrateKnown, options, whole]
        exact ⟨_, congrArg (fun run : FileRecord _ Unit × Store =>
          ((_ ++ run.1.1, run.1.2.map fun _ => m), run.2)) replaced⟩
  obtain ⟨events, ran⟩ := ran
  refine ⟨events, m, _, ran, rfl, ?_⟩
  obtain ⟨kept, reads, -, held, emptiness⟩ := backup_held_iff rfl ran rfl
  obtain rfl : kept = before :=
    String.toByteArray_inj.mp
      (Except.ok.inj (reads.symm.trans (Faults.readBytes_of_readText read)))
  rw [held]
  rintro ⟨replaced, -⟩
  exact absurd (replaced ((emptiness (by decide)).mpr rfl)) (by decide +kernel)

end ManifestMigration
