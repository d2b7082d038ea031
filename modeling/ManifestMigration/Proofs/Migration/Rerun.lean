import ManifestMigration.Proofs.Document.Equality
import ManifestMigration.Proofs.Migration.Result
import ManifestMigration.Proofs.Text.Substitution
import ManifestMigration.Proofs.Yaml.Loaded

/-! # Migrating a migrated text

The documents of a migrated text are settled, so the rules change nothing in them any more. What may
still happen is a substitution: where documents have been written anew, the identifier can stand in
the new text although the old one spelled it so that it was not found.
-/

namespace ManifestMigration

variable {ε : Type} {codec : Codec ε} {rules : List Rule} {s : Substitution} {text : String}
  {documents : List Node} {m : Migration}

/-- In the documents that the codec reads every mapping holds each key once. -/
def Codec.LoadsKeyed (codec : Codec ε) : Prop :=
  ∀ text documents, codec.load text = .ok documents → ∀ document ∈ documents, document.WellKeyed

/-- What the codec reads in a text are documents of a list. -/
def Codec.ReadsAmong (codec : Codec ε) (text : String) (documents : List Node) : Prop :=
  ∃ again, codec.load text = .ok again ∧ ∀ document ∈ again, document ∈ documents

/-- A text of settled documents is not written anew. -/
theorem migrateText_of_settled (loaded : codec.load (s.apply text) = .ok documents)
    (settled : ∀ document ∈ documents, document.Settled rules) :
    (migrateText codec rules s text).result =
      .ok ⟨s.apply text, s.apply text != text, documents.length, 0⟩ := by
  have still := fun document member =>
    Walked.outcome_eq_ok_iff.mp (Node.transform_of_settled (settled document member)).1
  have count : documents.countP (fun document => (document.transform rules).changed) = 0 :=
    List.countP_eq_zero.mpr fun document member => by simp [(still document member).2]
  rw [migrateText_of_accepted loaded fun document member => (still document member).1,
    writeDocuments_of_still fun document member => (still document member).2, count]
  rfl

/-- Where no document has changed, the output is the substituted text, and it holds the same
    documents. -/
theorem output_of_unchanged (done : (migrateText codec rules s text).result = .ok m)
    (none : m.documentsChanged = 0) :
    m.output = s.apply text ∧
      ∃ documents, codec.load m.output = .ok documents ∧
        ∀ document ∈ documents, document.Settled rules := by
  obtain ⟨documents, output, loaded, accepted, written, rfl⟩ := exists_of_migrateText done
  have still : ∀ document ∈ documents, (document.transform rules).changed = false :=
    still_of_countP none
  rw [writeDocuments_of_still still] at written
  obtain rfl : s.apply text = output := Except.ok.inj written
  refine ⟨rfl, documents, loaded, ?_⟩
  intro document member
  exact Node.settled_of_transform
    (Walked.outcome_eq_ok_iff.mpr ⟨accepted document member, still document member⟩)

theorem settled_of_readsAmong (keyed : codec.LoadsKeyed)
    (loaded : codec.load (s.apply text) = .ok documents)
    (done : (migrateText codec rules s text).result = .ok m) {output : String}
    (reads : codec.ReadsAmong output (documents.map fun document => (document.transform rules).left)) :
    ∃ again, codec.load output = .ok again ∧ ∀ document ∈ again, document.Settled rules := by
  obtain ⟨documents', -, loaded', accepted, -, -⟩ := exists_of_migrateText done
  obtain rfl : documents = documents' := Except.ok.inj (loaded.symm.trans loaded')
  obtain ⟨again, loadedAgain, among⟩ := reads
  refine ⟨again, loadedAgain, ?_⟩
  intro document member
  obtain ⟨old, oldMember, rfl⟩ := List.mem_map.mp (among document member)
  exact Node.settled_left_transform (keyed _ _ loaded old oldMember) (accepted old oldMember)

/-- Whatever the codec: where a new text holds the documents that were written, and where nothing is
    to be substituted in the output, migrating the output succeeds, reports no change and gives the
    output back. -/
theorem migrateText_output (keyed : codec.LoadsKeyed)
    (done : (migrateText codec rules s text).result = .ok m)
    (reads : 0 < m.documentsChanged → ∃ documents, codec.load (s.apply text) = .ok documents ∧
      codec.load m.output = .ok (documents.map fun document => (document.transform rules).left))
    (nothing : s.replaced = "" ∨ s.replaced = s.replacement ∨
      Text.occursIn s.replaced.toList m.output.toList = false) :
    ∃ again, (migrateText codec rules s m.output).result = .ok again ∧ again.changed = false ∧
      again.documents = m.documents ∧ again.output = m.output := by
  have same : s.apply m.output = m.output :=
    Substitution.apply_of_not_due (Substitution.isDue_eq_false_iff.mpr nothing)
  -- Written anew or not, the output holds as many documents as the text, and they are settled.
  have settled : ∃ documents, codec.load m.output = .ok documents ∧
      documents.length = m.documents ∧ ∀ document ∈ documents, document.Settled rules := by
    obtain ⟨documents, output, loaded, accepted, -, rfl⟩ := exists_of_migrateText done
    by_cases rewritten : 0 < documents.countP fun document => (document.transform rules).changed
    · obtain ⟨documents', loaded', loadedAgain⟩ := reads rewritten
      obtain rfl : documents = documents' := Except.ok.inj (loaded.symm.trans loaded')
      obtain ⟨again, loadedAgain', settled⟩ :=
        settled_of_readsAmong keyed loaded done ⟨_, loadedAgain, fun _ => id⟩
      obtain rfl := Except.ok.inj (loadedAgain.symm.trans loadedAgain')
      exact ⟨_, loadedAgain, List.length_map _, settled⟩
    · obtain ⟨unchanged, documents', loadedAgain, settled⟩ :=
        output_of_unchanged done (Nat.eq_zero_of_not_pos rewritten)
      rw [unchanged, loaded] at loadedAgain
      obtain rfl : documents = documents' := Except.ok.inj loadedAgain
      exact ⟨documents, unchanged ▸ loaded, rfl, settled⟩
  obtain ⟨documents, loaded, count, settled⟩ := settled
  have rerun := migrateText_of_settled (same ▸ loaded) settled
  rw [same] at rerun
  exact ⟨_, rerun, by simp [Migration.changed], count, rfl⟩

/-- A migration that reports no change has substituted nothing. -/
theorem not_isDue_of_unchanged (apart : s.Apart)
    (done : (migrateText codec rules s text).result = .ok m) (same : m.changed = false) :
    s.isDue text = false := by
  obtain ⟨documents, output, -, -, -, rfl⟩ := exists_of_migrateText done
  simp only [Migration.changed, Bool.or_eq_false_iff, bne_eq_false_iff_eq] at same
  cases due : s.isDue text with
  | false => rfl
  | true => exact absurd same.1 (Substitution.apply_ne_of_due apart due)

/-- A migration changes nothing in a text exactly when nothing is to be substituted there and the
    documents in it are settled. -/
theorem unchanged_iff (apart : s.Apart) :
    (∃ m, (migrateText codec rules s text).result = .ok m ∧ m.changed = false ∧ m.output = text) ↔
      s.isDue text = false ∧ ∃ documents, codec.load text = .ok documents ∧
        ∀ document ∈ documents, document.Settled rules := by
  constructor
  · rintro ⟨m, done, same, rfl⟩
    have none : m.documentsChanged = 0 := by
      simpa using (Bool.or_eq_false_iff.mp same).2
    exact ⟨not_isDue_of_unchanged apart done same, (output_of_unchanged done none).2⟩
  · rintro ⟨nothing, documents, loaded, settled⟩
    have same : s.apply text = text := Substitution.apply_of_not_due nothing
    rw [← same] at loaded
    refine ⟨_, migrateText_of_settled loaded settled, ?_, same⟩
    simp [Migration.changed, same]

/-! ## Files of manifests -/

theorem Yaml.codec_loadsKeyed : Yaml.codec.LoadsKeyed :=
  fun _ _ loaded => Yaml.wellKeyed_of_load loaded

theorem migrateText_output_arguments :
    let text := "apiVersion: cluster.x-k8s.io/v1beta1\nextraArgs: \x7b\x7d\n"
    let output := "apiVersion: cluster.x-k8s.io/v1beta2\nextraArgs: []\n"
    (migrateText Yaml.codec Rule.all .default text).result = .ok ⟨output, true, 1, 1⟩ ∧
      ∃ again, (migrateText Yaml.codec Rule.all .default output).result = .ok again ∧
        again.changed = false ∧ again.documents = 1 ∧ again.output = output := by
  intro text output
  let before : Mapping :=
    ⟨[("apiVersion", .string "cluster.x-k8s.io/v1beta2"), ("extraArgs", .mapping ⟨[]⟩)]⟩
  let after : Mapping :=
    ⟨[("apiVersion", .string "cluster.x-k8s.io/v1beta2"), ("extraArgs", .sequence [])]⟩
  have substituted : (Substitution.default.apply text != text) = true := by decide +kernel
  have loaded : Yaml.codec.load (Substitution.default.apply text) = .ok [.mapping before] := by
    decide +kernel
  have written : Yaml.dump [.mapping after] = output := by decide +kernel
  have loadedAgain : Yaml.codec.load output = .ok [.mapping after] := by decide +kernel
  have left : (Rule.applyAll Rule.all before).left = after := by decide +kernel
  have walked : ((Node.mapping before).transform Rule.all).outcome = .ok true ∧
      ((Node.mapping before).transform Rule.all).left = .mapping after := by
    rw [← left]
    exact Node.transform_of_settled_values (by decide +kernel) (by decide +kernel)
  obtain ⟨accepted, changed⟩ := Walked.outcome_eq_ok_iff.mp walked.1
  have done : (migrateText Yaml.codec Rule.all .default text).result =
      .ok ⟨output, true, 1, 1⟩ := by
    rw [migrateText_of_accepted loaded (List.forall_mem_singleton.mpr accepted),
      writeDocuments_transformed]
    simp only [List.any_cons, List.countP_singleton, changed, Bool.true_or, if_true, List.map_cons,
      List.map_nil, walked.2, Yaml.codec, written, substituted]
    rfl
  have nothing : Text.occursIn Substitution.default.replaced.toList output.toList = false := by
    decide +kernel
  rw [← walked.2, ← List.map_singleton] at loadedAgain
  have again := migrateText_output Yaml.codec_loadsKeyed done (fun _ => ⟨_, loaded, loadedAgain⟩)
    (.inr (.inr nothing))
  exact ⟨done, again⟩

/-- Migrating a migrated text changes nothing, unless documents have been written anew and the new
    text spells out the legacy identifier. What is assumed of writing YAML is that the documents
    which are read back are documents that have been written. -/
theorem rerun_unchanged_iff
    (loaded : Yaml.load (Substitution.default.apply text) = .ok documents)
    (done : (migrateText Yaml.codec Rule.all .default text).result = .ok m)
    (reads : 0 < m.documentsChanged → Yaml.codec.ReadsAmong m.output
      (documents.map fun document => (document.transform Rule.all).left)) :
    (∃ again, (migrateText Yaml.codec Rule.all .default m.output).result = .ok again ∧
        again.changed = false ∧ again.output = m.output) ↔
      ¬ (0 < m.documentsChanged ∧
        Text.occursIn Schema.legacyApiVersion.toList m.output.toList = true) := by
  have due : Substitution.default.isDue m.output =
      Text.occursIn Schema.legacyApiVersion.toList m.output.toList :=
    Substitution.isDue_eq_occursIn Substitution.apart_default
  rw [unchanged_iff Substitution.apart_default, due, ← Bool.not_eq_true]
  by_cases rewritten : 0 < m.documentsChanged
  · have settled := settled_of_readsAmong Yaml.codec_loadsKeyed loaded done (reads rewritten)
    simp [rewritten, settled]
  · have none : m.documentsChanged = 0 := Nat.eq_zero_of_not_pos rewritten
    obtain ⟨output, settled⟩ := output_of_unchanged done none
    have nothing : Substitution.default.isDue m.output = false :=
      output ▸ Substitution.not_isDue_apply Substitution.apart_default text
    rw [← due, nothing]
    simp [rewritten, settled]

/-- An escape hides the identifier from the first run, and the text that it writes shows it to the
    second one. -/
theorem rerun_unchanged_iff_escape :
    let text := "note: \"\\x63luster.x-k8s.io/v1beta1\"\nextraArgs: \x7b\x7d\n"
    let output := "note: cluster.x-k8s.io/v1beta1\nextraArgs: []\n"
    (migrateText Yaml.codec Rule.all .default text).result = .ok ⟨output, false, 1, 1⟩ ∧
      ¬ ∃ again, (migrateText Yaml.codec Rule.all .default output).result = .ok again ∧
        again.changed = false ∧ again.output = output := by
  intro text output
  let before : Mapping :=
    ⟨[("note", .string "cluster.x-k8s.io/v1beta1"), ("extraArgs", .mapping ⟨[]⟩)]⟩
  let after : Mapping := ⟨[("note", .string "cluster.x-k8s.io/v1beta1"), ("extraArgs", .sequence [])]⟩
  have same : Substitution.default.apply text = text := by decide +kernel
  have loaded : Yaml.load text = .ok [.mapping before] := by decide +kernel
  have written : Yaml.dump [.mapping after] = output := by decide +kernel
  have loadedAgain : Yaml.load output = .ok [.mapping after] := by decide +kernel
  have left : (Rule.applyAll Rule.all before).left = after := by decide +kernel
  have walked : ((Node.mapping before).transform Rule.all).outcome = .ok true ∧
      ((Node.mapping before).transform Rule.all).left = .mapping after := by
    rw [← left]
    exact Node.transform_of_settled_values (by decide +kernel) (by decide +kernel)
  obtain ⟨accepted, changed⟩ := Walked.outcome_eq_ok_iff.mp walked.1
  have done : (migrateText Yaml.codec Rule.all .default text).result =
      .ok ⟨output, false, 1, 1⟩ := by
    rw [← same] at loaded
    rw [migrateText_of_accepted loaded (List.forall_mem_singleton.mpr accepted),
      writeDocuments_transformed]
    simp only [List.any_cons, List.countP_singleton, changed, Bool.true_or, if_true, List.map_cons,
      List.map_nil, walked.2, Yaml.codec, written, same, bne_self_eq_false]
    rfl
  rw [← same] at loaded
  have reads : Yaml.codec.ReadsAmong output
      ([Node.mapping before].map fun document => (document.transform Rule.all).left) :=
    ⟨_, loadedAgain, by simp [walked.2]⟩
  refine ⟨done, mt (rerun_unchanged_iff loaded done fun _ => reads).mp ?_⟩
  exact not_not_intro ⟨Nat.one_pos, by decide +kernel⟩

end ManifestMigration
