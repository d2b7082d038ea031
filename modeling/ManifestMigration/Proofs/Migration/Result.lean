import ManifestMigration.Migration
import ManifestMigration.Proofs.Walk.Settled

/-! # What a migration comes to

A text is migrated when the codec reads it, no rule refuses one of its documents, and what has been
changed can be written. The output and the counts follow from the walks through the documents.
-/

namespace ManifestMigration

variable {ε : Type} {codec : Codec ε} {engine : Engine} {rules : List Rule} {s : Substitution}
  {text : String} {documents : List Node}

/-- What an engine leaves of a document, with whether it changed something. -/
def Engine.transformed (engine : Engine) (document : Node) : Node × Bool :=
  ((engine document).left, (engine document).changed)

/-! ## Recorded results -/

namespace Recorded

variable {α β : Type} {x : Recorded ε α} {f : α → Recorded ε β}

theorem result_bind_of_ok {a : α} (done : x.result = .ok a) : (x.bind f).result = (f a).result := by
  obtain ⟨events, result⟩ := x
  cases done
  rfl

theorem result_bind_of_error {e : ε} (failed : x.result = .error e) :
    (x.bind f).result = .error e := by
  obtain ⟨events, result⟩ := x
  cases failed
  rfl

end Recorded

/-! ## The documents -/

theorem transformDocuments_of_accepted {index : Nat}
    (accepted : ∀ document ∈ documents, (engine document).refusal? = none) :
    (transformDocuments engine index documents : Recorded (MigrationError ε) _).result =
      .ok (documents.map (engine.transformed)) := by
  induction documents generalizing index with
  | nil => rfl
  | cons document rest ih =>
      obtain ⟨first, others⟩ := List.forall_mem_cons.mp accepted
      simp only [transformDocuments, first, Recorded.after, Recorded.map, ih others]
      rfl

theorem accepted_of_transformDocuments {index : Nat} {transformed : List (Node × Bool)}
    (done : (transformDocuments engine index documents : Recorded (MigrationError ε) _).result =
      .ok transformed) :
    ∀ document ∈ documents, (engine document).refusal? = none := by
  induction documents generalizing index transformed with
  | nil => exact List.forall_mem_nil _
  | cons document rest ih =>
      cases first : (engine document).refusal? with
      | some cause =>
          simp only [transformDocuments, first] at done
          cases done
      | none =>
          simp only [transformDocuments, first, Recorded.after, Recorded.map] at done
          cases others : (transformDocuments engine (index + 1) rest :
              Recorded (MigrationError ε) _).result with
          | error e =>
              rw [others] at done
              cases done
          | ok later => exact List.forall_mem_cons.mpr ⟨first, ih others⟩

/-! ## The text -/

theorem writeDocuments_transformed :
    (writeDocuments codec text (documents.map (engine.transformed)) :
        Except (MigrationError ε) String) =
      if documents.any fun document => (engine document).changed then
        (codec.dump (documents.map fun document => (engine document).left)).mapError
          .serialize
      else .ok text := by
  simp only [writeDocuments, List.any_map, List.map_map]
  rfl

theorem writeDocuments_of_still
    (still : ∀ document ∈ documents, (engine document).changed = false) :
    (writeDocuments codec text (documents.map engine.transformed) :
      Except (MigrationError ε) String) = .ok text := by
  have none : documents.any (fun document => (engine document).changed) = false :=
    List.any_eq_false.mpr fun document member => by simp [still document member]
  rw [writeDocuments_transformed, none]
  rfl

/-- The migration of a text that the codec reads as documents that the rules accept. -/
theorem migrateTextWith_of_accepted (loaded : codec.load (s.apply text) = .ok documents)
    (accepted : ∀ document ∈ documents, (engine document).refusal? = none) :
    (migrateTextWith codec engine s text).result =
      (writeDocuments codec (s.apply text) (documents.map (engine.transformed))).map fun output =>
        ⟨output, s.apply text != text, documents.length,
          documents.countP fun document => (engine document).changed⟩ := by
  have transformed : (transformDocuments engine 0 documents : Recorded (MigrationError ε) _).result =
      .ok (documents.map (engine.transformed)) := transformDocuments_of_accepted accepted
  simp only [migrateTextWith, loaded, Recorded.result_bind_of_ok transformed, List.countP_map]
  rfl

/-- A text that has been migrated was read, accepted and written. -/
theorem exists_of_migrateTextWith {m : Migration}
    (done : (migrateTextWith codec engine s text).result = .ok m) :
    ∃ documents output, codec.load (s.apply text) = .ok documents ∧
      (∀ document ∈ documents, (engine document).refusal? = none) ∧
      writeDocuments codec (s.apply text) (documents.map (engine.transformed)) = .ok output ∧
      m = ⟨output, s.apply text != text, documents.length,
        documents.countP fun document => (engine document).changed⟩ := by
  cases loaded : codec.load (s.apply text) with
  | error e =>
      simp only [migrateTextWith, loaded] at done
      cases done
  | ok documents =>
      have accepted : ∀ document ∈ documents, (engine document).refusal? = none := by
        cases transformed : (transformDocuments engine 0 documents :
            Recorded (MigrationError ε) _).result with
        | error e =>
            simp only [migrateTextWith, loaded, Recorded.result_bind_of_error transformed] at done
            cases done
        | ok _ => exact accepted_of_transformDocuments transformed
      rw [migrateTextWith_of_accepted loaded accepted] at done
      cases written : (writeDocuments codec (s.apply text)
          (documents.map (engine.transformed)) : Except (MigrationError ε) String) with
      | error e =>
          rw [written] at done
          cases done
      | ok output =>
          rw [written] at done
          cases done
          exact ⟨documents, output, rfl, accepted, written, rfl⟩

theorem still_of_countP
    (none : (documents.countP fun document => (engine document).changed) = 0) :
    ∀ document ∈ documents, (engine document).changed = false := by
  intro document member
  have unchanged := List.countP_eq_zero.mp none document member
  simpa using unchanged

/-- A migration that reports no change gives the text back. -/
theorem output_eq_of_unchanged {m : Migration}
    (done : (migrateTextWith codec engine s text).result = .ok m) (same : m.changed = false) :
    m.output = text := by
  obtain ⟨documents, output, -, -, written, rfl⟩ := exists_of_migrateTextWith done
  obtain ⟨unsubstituted, none⟩ := Bool.or_eq_false_iff.mp same
  rw [writeDocuments_of_still (still_of_countP (by simpa using none))] at written
  obtain rfl : s.apply text = output := Except.ok.inj written
  exact bne_eq_false_iff_eq.mp unsubstituted

/-! ## Rules -/

theorem migrateText_of_accepted (loaded : codec.load (s.apply text) = .ok documents)
    (accepted : ∀ document ∈ documents, (document.transform rules).refusal? = none) :
    (migrateText codec rules s text).result =
      (writeDocuments codec (s.apply text)
        (documents.map (Engine.transformed (Node.transform rules)))).map fun output =>
        ⟨output, s.apply text != text, documents.length,
          documents.countP fun document => (document.transform rules).changed⟩ :=
  migrateTextWith_of_accepted loaded accepted

theorem exists_of_migrateText {m : Migration}
    (done : (migrateText codec rules s text).result = .ok m) :
    ∃ documents output, codec.load (s.apply text) = .ok documents ∧
      (∀ document ∈ documents, (document.transform rules).refusal? = none) ∧
      writeDocuments codec (s.apply text)
        (documents.map (Engine.transformed (Node.transform rules))) = .ok output ∧
      m = ⟨output, s.apply text != text, documents.length,
        documents.countP fun document => (document.transform rules).changed⟩ :=
  exists_of_migrateTextWith done

end ManifestMigration
