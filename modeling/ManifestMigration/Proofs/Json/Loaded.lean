import ManifestMigration.Json.Parse
import ManifestMigration.Proofs.Document.Mappings

/-! # Documents read from JSON are well keyed

The reader stores the fields of an object one after the other, so a key that comes again replaces
its value, and whatever is read holds each key once.
-/

namespace ManifestMigration.Json

/-- What is read with so much fuel is well keyed. -/
structure ReadsKeyed (fuel : Nat) : Prop where
  value : ∀ {depth text node rest}, readValue fuel depth text = some (node, rest) → node.WellKeyed
  items : ∀ {depth text items rest}, readItems fuel depth text = some (items, rest) →
    ∀ item ∈ items, item.WellKeyed
  fields : ∀ {depth fields text read rest}, fields.WellKeyed →
    readFields fuel depth fields text = some (read, rest) → read.WellKeyed

variable {fuel depth : Nat} {text rest : List Char}

theorem ReadsKeyed.items_succ (below : ReadsKeyed fuel) {items : List Node}
    (done : readItems (fuel + 1) depth text = some (items, rest)) :
    ∀ item ∈ items, item.WellKeyed := by
  rw [readItems] at done
  split at done
  · cases done
  · next item after first =>
      have keyed : item.WellKeyed := below.value first
      split at done
      · cases done
        exact List.forall_mem_singleton.mpr keyed
      · obtain ⟨result, later, made⟩ := Option.map_eq_some_iff.mp done
        cases made
        exact List.forall_mem_cons.mpr ⟨keyed, below.items later⟩
      · cases done

theorem ReadsKeyed.fields_succ (below : ReadsKeyed fuel) {fields read : Mapping}
    (keyed : fields.WellKeyed)
    (done : readFields (fuel + 1) depth fields text = some (read, rest)) : read.WellKeyed := by
  rw [readFields] at done
  split at done
  · split at done
    · cases done
    · next key after _ =>
        split at done
        · split at done
          · cases done
          · next value after inside =>
              have stored := keyed.insert (String.ofList key) (below.value inside)
              simp only at done
              split at done
              · cases done
                exact stored
              · exact below.fields stored done
              · cases done
        · cases done
  · cases done

end ManifestMigration.Json
