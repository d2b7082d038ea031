import ManifestMigration.Proofs.Document.Mappings
import ManifestMigration.Yaml.Codec

/-! # Loaded documents are well keyed

The loader stores the fields of a mapping one after the other, and a key that comes again replaces
the value that it had. So whatever it builds holds each key once, aliases included.
-/

namespace ManifestMigration.Yaml

namespace Document

/-- What the loader builds with so much fuel is well keyed. -/
structure BuildsKeyed (d : Document) (fuel : Nat) : Prop where
  node : ∀ {depth path p built}, buildNode d fuel depth path p = .ok built → built.1.WellKeyed
  items : ∀ {depth path index p built}, buildItems d fuel depth path index p = .ok built →
    ∀ item ∈ built.1, item.WellKeyed
  fields : ∀ {depth path fields p built}, fields.WellKeyed →
    buildFields d fuel depth path fields p = .ok built → built.1.WellKeyed

variable {d : Document} {fuel : Nat}

theorem BuildsKeyed.node_succ (below : BuildsKeyed d fuel) {depth : Nat} {path : List Segment}
    {p : Progress} {built : Node × Progress}
    (done : buildNode d (fuel + 1) depth path p = .ok built) : built.1.WellKeyed := by
  rw [buildNode] at done
  split at done
  · cases done
  · next item mark rest found =>
      cases item with
      | «alias» anchor =>
          simp only at done
          split at done
          · cases done
          · next p' expanded =>
              split at done
              · cases done
              · next node p'' inside =>
                  cases done
                  have keyed : node.WellKeyed := below.node inside
                  exact keyed
      | scalar tag style text =>
          simp only at done
          split at done
          · cases done
            exact Node.wellKeyed_scalar _
          · cases done
      | sequenceStart tag =>
          simp only at done
          split at done
          · cases done
          · split at done
            · cases done
            · split at done
              · cases done
              · next items p' inside =>
                  cases done
                  exact Node.wellKeyed_sequence.mpr (below.items inside)
      | mappingStart tag =>
          simp only at done
          split at done
          · cases done
          · split at done
            · cases done
            · split at done
              · cases done
              · next fields p' inside =>
                  cases done
                  exact below.fields .empty inside
      | sequenceEnd => cases done
      | mappingEnd => cases done

theorem BuildsKeyed.items_succ (below : BuildsKeyed d fuel) {depth : Nat} {path : List Segment}
    {index : Nat} {p : Progress} {built : List Node × Progress}
    (done : buildItems d (fuel + 1) depth path index p = .ok built) :
    ∀ item ∈ built.1, item.WellKeyed := by
  rw [buildItems] at done
  split at done
  · cases done
    exact List.forall_mem_nil _
  · split at done
    · cases done
    · next first p' inside =>
        split at done
        · cases done
        · next rest p'' behind =>
            cases done
            exact List.forall_mem_cons.mpr ⟨below.node inside, below.items behind⟩

theorem BuildsKeyed.fields_succ (below : BuildsKeyed d fuel) {depth : Nat} {path : List Segment}
    {fields : Mapping} {p : Progress} {built : Mapping × Progress} (keyed : fields.WellKeyed)
    (done : buildFields d (fuel + 1) depth path fields p = .ok built) : built.1.WellKeyed := by
  rw [buildFields] at done
  split at done
  · cases done
    exact keyed
  · split at done
    · cases done
    · next segment key p' named =>
        split at done
        · cases done
        · next value p'' inside =>
            exact below.fields (keyed.insert key (below.node inside)) done

theorem buildsKeyed (d : Document) (fuel : Nat) : BuildsKeyed d fuel := by
  induction fuel with
  | zero =>
      constructor
      · intro depth path p built done
        rw [buildNode] at done
        cases done
      · intro depth path index p built done
        rw [buildItems] at done
        cases done
      · intro depth path fields p built _ done
        rw [buildFields] at done
        cases done
  | succ fuel below => exact ⟨below.node_succ, below.items_succ, below.fields_succ⟩

theorem wellKeyed_of_build {node : Node} (done : d.build = .ok node) : node.WellKeyed := by
  unfold build at done
  split at done
  · cases done
  · next built p inside =>
      split at done
      · cases done
        exact (buildsKeyed d _).node inside
      · cases done

end Document

theorem wellKeyed_of_buildAll {fuel : Nat} {events : List Event} {documents : List Node}
    (done : buildAll fuel events = .ok documents) : ∀ document ∈ documents, document.WellKeyed := by
  induction fuel generalizing events documents with
  | zero => cases done
  | succ fuel ih =>
      unfold buildAll at done
      split at done
      · cases done
        exact List.forall_mem_nil _
      · simp only at done
        split at done
        · cases done
        · next node first =>
            split at done
            · cases done
            · next nodes others =>
                cases done
                exact List.forall_mem_cons.mpr ⟨Document.wellKeyed_of_build first, ih others⟩

/-- Every mapping in the documents of a text holds each key once. -/
theorem wellKeyed_of_load {text : String} {documents : List Node}
    (loaded : load text = .ok documents) : ∀ document ∈ documents, document.WellKeyed := by
  unfold load at loaded
  split at loaded
  · cases loaded
    exact List.forall_mem_singleton.mpr (Node.wellKeyed_scalar _)
  · exact wellKeyed_of_buildAll loaded

end ManifestMigration.Yaml
