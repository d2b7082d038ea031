import ManifestMigration.Proofs.Migration.Substituted
import ManifestMigration.Proofs.Rule.Triggers

/-! # Documents without triggers

The declared triggers of the rules tell all that a rule reacts to: where no mapping has one, at any
depth, a walk changes nothing, and a text of such documents is handed back as it is, comments and
quoting included.
-/

namespace ManifestMigration

variable {ε : Type} {rules : List Rule} {document : Node}

namespace Node

/-- No mapping in the document has a trigger of a rule of the list, as a key or as its kind. -/
def Untriggered (rules : List Rule) (document : Node) : Prop :=
  document.EveryMapping fun m => ∀ rule ∈ rules, rule.Untriggered m

instance : Decidable (document.Untriggered rules) :=
  inferInstanceAs (Decidable (document.EveryMapping fun m => ∀ rule ∈ rules, rule.Untriggered m))

theorem Untriggered.settled (untriggered : document.Untriggered rules) : document.Settled rules :=
  untriggered.mono fun _ none rule member => (none rule member).overlooks.settled

end Node

/-- A document without declared triggers is left as it is, and a text of such documents in which there
    is nothing to substitute is its own migration. -/
theorem untriggered_unchanged (rules : List Rule) :
    (∀ document : Node, document.Untriggered rules →
      (document.transform rules).outcome = .ok false ∧
        (document.transform rules).left = document) ∧
    (∀ (codec : Codec ε) (s : Substitution) text documents, codec.load text = .ok documents →
      (∀ document ∈ documents, document.Untriggered rules) → ¬ s.Finds text →
      ∃ m, (migrateText codec rules s text).result = .ok m ∧ m.changed = false ∧
        m.output = text ∧ m.documents = documents.length) := by
  constructor
  · intro document untriggered
    exact Node.transform_of_settled untriggered.settled
  · intro codec s text documents loaded untriggered nothing
    have same : s.apply text = text := by
      rw [Substitution.apply_eq_self_iff, Bool.eq_false_iff]
      exact mt Substitution.isDue_iff_finds.mp nothing
    have done := migrateText_of_settled (same.symm ▸ loaded)
      fun document member => (untriggered document member).settled
    rw [same, bne_self_eq_false] at done
    exact ⟨_, done, rfl, rfl, rfl⟩

/-- Legacy fields are there, but only for rules that are not in the list or under another kind. -/
theorem untriggered_unchanged_legacy :
    let rules : List Rule := [.healthCheck, .emptyEndpoint]
    let document := Node.mapping ⟨[("kind", .string "Cluster"), ("extraArgs", .mapping ⟨[]⟩),
      ("spec", .mapping ⟨[("maxUnhealthy", .string "40%")]⟩)]⟩
    let text := "# kept\nkind: Cluster\nextraArgs: \x7b\x7d\nspec:\n  maxUnhealthy: 40%\n"
    document.Untriggered rules ∧ Yaml.codec.load text = .ok [document] ∧
      ¬ Substitution.default.Finds text ∧
      (document.transform rules).outcome = .ok false ∧
      (document.transform rules).left = document ∧
      ∃ m, (migrateText Yaml.codec rules .default text).result = .ok m ∧ m.changed = false ∧
        m.output = text := by
  intro rules document text
  have untriggered : document.Untriggered rules := by decide +kernel
  have loaded : Yaml.codec.load text = .ok [document] := by decide +kernel
  have nothing : ¬ Substitution.default.Finds text := by
    rw [← Substitution.isDue_iff_finds]
    decide +kernel
  obtain ⟨walks, texts⟩ := untriggered_unchanged rules
  obtain ⟨m, done, unchanged, output, -⟩ := texts Yaml.codec .default text [document] loaded
    (List.forall_mem_singleton.mpr untriggered) nothing
  obtain ⟨outcome, left⟩ := walks document untriggered
  exact ⟨untriggered, loaded, nothing, outcome, left, m, done, unchanged, output⟩

end ManifestMigration
