import ManifestMigration.Proofs.Rule.Endpoint
import ManifestMigration.Proofs.Rule.GroupReference
import ManifestMigration.Proofs.Rule.Moves.HealthCheck
import ManifestMigration.Proofs.Rule.TemplateReference

/-! # Undoing what a rule moves

The reference of a control plane moves into the template's own spec; references lose and gain
fields, and endpoints go, but nothing of them moves. So whatever rule is applied, a field of a shape
that is refused lay before at the path that comes of undoing the moves of the rule, and that path is
the same or a shorter one.
-/

namespace ManifestMigration

variable {m reference template moved : Mapping} {e : ShapeError} {path : Path} {rule : Rule}

namespace GroupReference

theorem liesAt_of_normalize (distinct : reference.keys.Nodup) (named : e.key ∈ ArgumentList.keys)
    (lies : e.LiesAt (.mapping (normalize reference).1) path) :
    e.LiesAt (.mapping reference) path := by
  unfold normalize at lies
  split at lies
  · have grouped := lies.of_erase (Dict.nodup_keys_insert distinct _ _)
    rcases grouped.of_insert (e.key_ne named (by decide)) with ⟨rest, -, inside⟩ | ⟨-, before⟩
    · exact absurd inside ShapeError.not_liesAt_scalar
    · exact before
  · exact lies.of_erase distinct

theorem liesAt_of_normalizeAt (keyed : m.WellKeyed) (named : e.key ∈ ArgumentList.keys)
    {key : String} (member : key ∈ keys) (lies : e.LiesAt (.mapping (normalizeAt key m).1) path) :
    e.LiesAt (.mapping m) path := by
  have noArguments : ∀ key ∈ keys, key ∉ ArgumentList.keys := by decide
  unfold normalizeAt at lies
  split at lies
  · next reference found =>
      rcases lies.of_insert (e.key_ne named (noArguments key member)) with
        ⟨rest, rfl, inside⟩ | ⟨-, before⟩
      · have distinct : reference.keys.Nodup := Dict.WellKeyed.nodup (keyed.of_get? found)
        exact ShapeError.liesAt_key.mpr ⟨_, found, liesAt_of_normalize distinct named inside⟩
      · exact before
  · exact lies

theorem liesAt_of_normalizeAll (keyed : m.WellKeyed) (named : e.key ∈ ArgumentList.keys)
    (lies : e.LiesAt (.mapping (revise m).left) path) : e.LiesAt (.mapping m) path := by
  rw [revise_eq_run] at lies
  refine (Revision.run_invariant (P := fun left => left.WellKeyed ∧
    (e.LiesAt (.mapping left) path → e.LiesAt (.mapping m) path)) ?_ ⟨keyed, id⟩).2 lies
  rintro key member left ⟨keyedLeft, back⟩
  exact ⟨wellKeyed_normalizeAt keyedLeft, fun lies =>
    back (liesAt_of_normalizeAt keyedLeft named member lies)⟩

end GroupReference

theorem Endpoint.liesAt_of_prune (distinct : m.keys.Nodup)
    (lies : e.LiesAt (.mapping (prune m).1) path) : e.LiesAt (.mapping m) path := by
  unfold prune at lies
  split at lies
  · exact lies.of_erase distinct
  · exact lies

namespace TemplateReference

/-- The reference moves into the template's own spec. -/
def templateMove : Move := ⟨[.key key], [.key "spec", .key key]⟩

def moves (m : Mapping) : List Move :=
  match template? m with
  | some (_, template) =>
    if (moveInTemplate? template).isSome then
      [(templateMove.below (.key "machineTemplate")).below (.key "spec")]
    else []
  | none => []

theorem liesAt_undo_templateMove (distinct : template.keys.Nodup)
    (named : e.key ∈ ArgumentList.keys) (made : moveInTemplate? template = some moved)
    (lies : e.LiesAt (.mapping moved) path) :
    e.LiesAt (.mapping template) (Move.undo [templateMove] path) := by
  obtain ⟨reference, stored, rfl⟩ := moveInTemplate?_eq_some made
  have inSpec := lies.of_insert (e.key_ne named (by decide))
  refine Move.undo_induction ?moved ?stayed
  case moved =>
    intro move member rest leads
    obtain rfl := List.mem_singleton.mp member
    rcases inSpec with ⟨below, same, inside⟩ | ⟨other, -⟩
    · cases leads.symm.trans same
      obtain ⟨value, found, inside⟩ := ShapeError.liesAt_key.mp inside
      cases found.symm.trans (Dict.get?_insert_self _ _ _)
      exact ShapeError.liesAt_key.mpr ⟨_, stored, inside⟩
    · exact absurd leads (other _)
  case stayed =>
    intro apart
    rcases inSpec with ⟨below, rfl, inside⟩ | ⟨-, before⟩
    · rcases inside.of_insert (e.key_ne named (by decide)) with ⟨rest, rfl, -⟩ | ⟨-, before⟩
      · exact absurd (List.prefix_append _ rest) (apart templateMove (List.mem_singleton_self _))
      · exact before.of_child
    · exact before.of_erase distinct

theorem liesAt_undo_moves (keyed : m.WellKeyed) (named : e.key ∈ ArgumentList.keys)
    (lies : e.LiesAt (.mapping (move m).1) path) :
    e.LiesAt (.mapping m) (Move.undo (moves m) path) := by
  rcases move_cases m with ⟨still, settled⟩ | ⟨spec, template, moved, found, made, fires⟩
  · rw [still] at lies
    suffices moves m = [] by rwa [this]
    unfold moves
    split
    · next spec template found =>
        obtain ⟨isPlane, storedSpec, storedTemplate⟩ := template?_eq_some_iff.mp found
        rw [moveInTemplate?_eq_none_iff.mpr (settled isPlane _ _ storedSpec storedTemplate)]
        rfl
    · rfl
  · obtain ⟨-, storedSpec, storedTemplate⟩ := template?_eq_some_iff.mp found
    have keyedSpec : spec.WellKeyed := keyed.of_get? storedSpec
    have keyedTemplate : template.WellKeyed := keyedSpec.of_get? storedTemplate
    have moves_eq : moves m =
        ([templateMove].map (.below (.key "machineTemplate"))).map (.below (.key "spec")) := by
      simp only [moves, found, made, Option.isSome_some, if_true, List.map_cons, List.map_nil]
    rw [fires] at lies
    rw [moves_eq]
    rcases lies.of_insert (e.key_ne named (by decide)) with ⟨below, rfl, inSpec⟩ | ⟨other, before⟩
    · rw [Move.undo_below]
      refine ShapeError.liesAt_key.mpr ⟨_, storedSpec, ?_⟩
      rcases inSpec.of_insert (e.key_ne named (by decide)) with
        ⟨rest, rfl, inside⟩ | ⟨other, before⟩
      · rw [Move.undo_below]
        exact ShapeError.liesAt_key.mpr
          ⟨_, storedTemplate, liesAt_undo_templateMove keyedTemplate.nodup named made inside⟩
      · rwa [Move.undo_below_of_ne other]
    · rwa [Move.undo_below_of_ne other]

end TemplateReference

namespace Rule

def moves : Rule → Mapping → List Move
  | argumentList => ArgumentList.moves
  | groupReference => fun _ => []
  | emptyEndpoint => fun _ => []
  | healthCheck => HealthCheck.moves
  | templateReference => TemplateReference.moves

/-- What is of a refused shape after a rule was so before, where the rule's moves are undone. -/
theorem liesAt_undo_moves (keyed : m.WellKeyed) (named : e.key ∈ ArgumentList.keys)
    (lies : e.LiesAt (.mapping (rule.apply m).left) path) :
    e.LiesAt (.mapping m) (Move.undo (rule.moves m) path) := by
  cases rule with
  | argumentList => exact ArgumentList.liesAt_undo_moves keyed named lies
  | groupReference => exact GroupReference.liesAt_of_normalizeAll keyed named lies
  | emptyEndpoint => exact Endpoint.liesAt_of_prune keyed.nodup lies
  | healthCheck => exact HealthCheck.liesAt_undo_moves keyed named lies
  | templateReference => exact TemplateReference.liesAt_undo_moves keyed named lies

/-- Whatever moves goes further down. -/
theorem moves_down : ∀ move ∈ rule.moves m, move.source.length < move.target.length := by
  intro move member
  cases rule with
  | argumentList =>
      obtain ⟨key, -, arguments, -, name, i, -, rfl⟩ := ArgumentList.mem_moves.mp member
      exact Nat.lt_succ_self 2
  | groupReference => cases member
  | emptyEndpoint => cases member
  | healthCheck =>
      simp only [moves, HealthCheck.moves] at member
      split at member
      · obtain ⟨inSpec, moves, rfl⟩ := List.mem_map.mp member
        exact Nat.succ_lt_succ (HealthCheck.specMoves_down inSpec moves)
      · cases member
  | templateReference =>
      simp only [moves, TemplateReference.moves] at member
      split at member
      · split at member
        · obtain rfl := List.mem_singleton.mp member
          decide
        · cases member
      · cases member

end Rule

end ManifestMigration
