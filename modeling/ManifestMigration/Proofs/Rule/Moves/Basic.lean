import ManifestMigration.Proofs.Rule.Refusal

/-! # What rules move

Rules take values from one place to another: an argument becomes the value of an item of a list, the
legacy fields of a health check go into its new blocks, and the reference of a control plane goes
into the template's own spec. The moves of a rule on a mapping can be undone on paths: a field that
would be refused in the mapping that the rule leaves lay, before the rule, at the path that comes of
undoing the moves (`Rule.liesAt_undo_moves`). Every move leads further down.
-/

namespace ManifestMigration

/-- The path is the other one, or it is shorter. -/
def SameOrShorter (path other : Path) : Prop := path = other ∨ path.length < other.length

namespace SameOrShorter

variable {a b c : Path}

theorem refl (a : Path) : SameOrShorter a a := .inl (Eq.refl a)

theorem trans (first : SameOrShorter a b) (second : SameOrShorter b c) : SameOrShorter a c := by
  rcases first with rfl | shorter
  · exact second
  · rcases second with rfl | shorter'
    · exact .inr shorter
    · exact .inr (Nat.lt_trans shorter shorter')

theorem cons (step : Step) (goesUp : SameOrShorter a b) :
    SameOrShorter (step :: a) (step :: b) :=
  goesUp.imp (congrArg (step :: ·)) Nat.succ_lt_succ

end SameOrShorter

/-- A value goes from one place to another, with all that is below it. -/
structure Move where
  source : Path
  target : Path
  deriving DecidableEq, Repr

namespace Move

variable {moves : List Move} {path : Path}

/-- The move, seen from above. -/
def below (above : Step) (move : Move) : Move := ⟨above :: move.source, above :: move.target⟩

/-- Where the part at a path was before some moves. -/
def undo : List Move → Path → Path
  | [], path => path
  | move :: rest, path =>
    if move.target <+: path then move.source ++ path.drop move.target.length else undo rest path

/-- What holds at the sources of the moves that lead to the path, and at the path itself if none
    does, holds where the moves are undone. -/
theorem undo_induction {P : Path → Prop}
    (moved : ∀ move ∈ moves, ∀ rest, path = move.target ++ rest → P (move.source ++ rest))
    (stayed : (∀ move ∈ moves, ¬ move.target <+: path) → P path) : P (undo moves path) := by
  induction moves with
  | nil => exact stayed (by simp)
  | cons move rest ih =>
      obtain ⟨first, others⟩ := List.forall_mem_cons.mp moved
      rw [undo]
      split
      · next leads =>
          obtain ⟨below, rfl⟩ := leads
          rw [List.drop_left]
          exact first below rfl
      · next apart => exact ih others fun none => stayed (List.forall_mem_cons.mpr ⟨apart, none⟩)

/-- Below a step, moves below the same step are undone as they are alone. -/
theorem undo_below (above : Step) (moves : List Move) (path : Path) :
    undo (moves.map (.below above)) (above :: path) = above :: undo moves path := by
  induction moves with
  | nil => rfl
  | cons move rest ih =>
      simp only [List.map_cons, undo, below, List.prefix_cons_inj, List.length_cons,
        List.drop_succ_cons, List.cons_append, ih]
      split <;> rfl

theorem undo_below_of_ne {above : Step} (other : ∀ rest, path ≠ above :: rest) :
    undo (moves.map (.below above)) path = path := by
  induction moves with
  | nil => rfl
  | cons move rest ih =>
      rw [List.map_cons, undo, if_neg, ih]
      rintro ⟨behind, same⟩
      exact other _ same.symm

theorem undo_sameOrShorter (down : ∀ move ∈ moves, move.source.length < move.target.length)
    (path : Path) : SameOrShorter (undo moves path) path := by
  refine undo_induction (P := (SameOrShorter · path)) ?_ fun _ => .refl path
  rintro move member rest rfl
  right
  have shorter := down move member
  simp only [List.length_append]
  omega

end Move

variable {m spec template : Mapping} {e : ShapeError} {path rest : Path}

theorem ShapeError.key_ne (named : e.key ∈ ArgumentList.keys) {other : String}
    (outside : other ∉ ArgumentList.keys) : e.key ≠ other := by
  rintro rfl
  exact outside named

/-! ## Argument lists -/

namespace ArgumentList

/-- Each argument becomes the value of the item in its place. -/
def movesAt (key : String) (arguments : Mapping) : List Move :=
  arguments.keys.zipIdx.map fun (name, i) =>
    ⟨[.key key, .key name], [.key key, .index i, .key "value"]⟩

def moves (m : Mapping) : List Move :=
  keys.flatMap fun key =>
    match m.get? key with
    | some (.mapping arguments) => movesAt key arguments
    | _ => []

theorem mem_moves {move : Move} :
    move ∈ moves m ↔ ∃ key ∈ keys, ∃ arguments, m.get? key = some (.mapping arguments) ∧
      ∃ name i, arguments.keys[i]? = some name ∧
        move = ⟨[.key key, .key name], [.key key, .index i, .key "value"]⟩ := by
  simp only [moves, List.mem_flatMap]
  refine exists_congr fun key => and_congr_right fun _ => ?_
  split
  · next arguments found =>
      simp only [movesAt, found, List.mem_map, Prod.exists, List.mem_zipIdx_iff_getElem?,
        Option.some.injEq, Node.mapping.injEq, exists_eq_left', eq_comm]
  · next other =>
      refine iff_of_false List.not_mem_nil ?_
      rintro ⟨arguments, found, -⟩
      exact other arguments found

/-- Under a key stands what stood there, or the list that a conversion made of it. -/
theorem get?_left_convert (m : Mapping) (key : String) :
    (convert m).left.get? key = m.get? key ∨
      key ∈ keys ∧ ∃ arguments, m.get? key = some (.mapping arguments) ∧
        (convert m).left.get? key = some (.sequence (items arguments)) := by
  rw [convert, convertKeys_eq_run]
  refine Revision.run_invariant (P := fun left => left.get? key = m.get? key ∨ key ∈ keys ∧
    ∃ arguments, m.get? key = some (.mapping arguments) ∧
      left.get? key = some (.sequence (items arguments))) ?_ (.inl rfl)
  intro name member left before
  by_cases same : key = name
  · subst same
    unfold convertAt
    split
    · exact before
    · next arguments found =>
        rcases before with same | ⟨-, arguments', -, converted⟩
        · exact .inr ⟨member, arguments, same ▸ found, Dict.get?_insert_self _ _ _⟩
        · cases found.symm.trans converted
    · exact before
    · exact before
  · rwa [get?_left_convertAt_of_ne same]

theorem getElem?_items {arguments : Mapping} {i : Nat} {argument : Node}
    (found : (items arguments)[i]? = some argument) :
    ∃ name value, arguments.entries[i]? = some (name, value) ∧ argument = item name value := by
  simp only [items, List.getElem?_map, Option.map_eq_some_iff] at found
  obtain ⟨⟨name, value⟩, entry, rfl⟩ := found
  exact ⟨name, value, entry, rfl⟩

theorem liesAt_item (named : e.key ∈ keys) {name : String} {value : Node} :
    e.LiesAt (item name value) path ↔
      ∃ rest, path = .key "value" :: rest ∧ e.LiesAt value rest := by
  let fields : Mapping := (Dict.empty.insert "name" (.string name)).insert "value" value
  have stands (other : String) : fields.get? other =
      if other = "value" then some value
      else if other = "name" then some (.string name) else none := by
    rw [Dict.get?_insert, Dict.get?_insert, Dict.get?_empty]
  rw [show item name value = .mapping fields from rfl]
  constructor
  · intro lies
    rcases lies.exists_key with rfl | ⟨other, rest, rfl⟩
    · obtain ⟨leaf, found, -⟩ := ShapeError.liesAt_nil.mp lies
      rw [stands, if_neg (e.key_ne named (by decide)), if_neg (e.key_ne named (by decide))] at found
      cases found
    · obtain ⟨stored, found, inside⟩ := ShapeError.liesAt_key.mp lies
      rw [stands] at found
      split at found
      · next isValue =>
          cases found
          exact ⟨rest, by rw [isValue], inside⟩
      · split at found
        · cases found
          exact absurd inside ShapeError.not_liesAt_scalar
        · cases found
  · rintro ⟨rest, rfl, inside⟩
    exact ShapeError.liesAt_key.mpr ⟨value, by simp [stands], inside⟩

/-- What lies in a converted list lay in the mapping, under the name of the argument. -/
theorem liesAt_items (named : e.key ∈ keys) {arguments : Mapping} (distinct : arguments.keys.Nodup)
    (lies : e.LiesAt (.sequence (items arguments)) path) :
    ∃ name i rest, arguments.keys[i]? = some name ∧ path = .index i :: .key "value" :: rest ∧
      e.LiesAt (.mapping arguments) (.key name :: rest) := by
  obtain ⟨i, below, rfl⟩ := lies.exists_index
  obtain ⟨argument, found, insideItem⟩ := ShapeError.liesAt_index.mp lies
  obtain ⟨name, value, entry, rfl⟩ := getElem?_items found
  obtain ⟨rest, rfl, inside⟩ := (liesAt_item named).mp insideItem
  have stored : arguments.get? name = some value :=
    Dict.get?_of_mem distinct (List.mem_of_getElem? entry)
  exact ⟨name, i, rest, by simp [Dict.keys, entry], rfl,
    ShapeError.liesAt_key.mpr ⟨value, stored, inside⟩⟩

theorem liesAt_undo_moves (keyed : m.WellKeyed) (named : e.key ∈ keys)
    (lies : e.LiesAt (.mapping (convert m).left) path) :
    e.LiesAt (.mapping m) (Move.undo (moves m) path) := by
  refine Move.undo_induction ?moved ?stayed
  case moved =>
    rintro move member rest rfl
    obtain ⟨key, -, arguments, found, name, i, atIndex, rfl⟩ := mem_moves.mp member
    obtain ⟨value, stored, inside⟩ := ShapeError.liesAt_key.mp lies
    rcases get?_left_convert m key with same | ⟨-, arguments', found', converted⟩
    · -- A refusal before this key: there is still a mapping, and no step to an index leads on.
      rw [same, found] at stored
      cases stored
      obtain ⟨_, _, leads, -⟩ := inside
      simp [Node.at?] at leads
    · cases found.symm.trans found'
      cases stored.symm.trans converted
      obtain ⟨name', j, rest', atIndex', same, inside⟩ :=
        liesAt_items named (Dict.WellKeyed.nodup (keyed.of_get? found)) inside
      cases same
      cases atIndex.symm.trans atIndex'
      exact ShapeError.liesAt_key.mpr ⟨_, found, inside⟩
  case stayed =>
    intro apart
    rcases lies.exists_key with rfl | ⟨key, below, rfl⟩
    · obtain ⟨leaf, stored, shape⟩ := ShapeError.liesAt_nil.mp lies
      rcases get?_left_convert m e.key with same | ⟨-, arguments, -, converted⟩
      · exact ShapeError.liesAt_nil.mpr ⟨leaf, same ▸ stored, shape⟩
      · cases stored.symm.trans converted
    · obtain ⟨value, stored, inside⟩ := ShapeError.liesAt_key.mp lies
      rcases get?_left_convert m key with same | ⟨member, arguments, found, converted⟩
      · exact ShapeError.liesAt_key.mpr ⟨value, same ▸ stored, inside⟩
      · cases stored.symm.trans converted
        obtain ⟨name, i, rest, atIndex, rfl, -⟩ :=
          liesAt_items named (Dict.WellKeyed.nodup (keyed.of_get? found)) inside
        exact absurd (List.prefix_append _ rest)
          (apart _ (mem_moves.mpr ⟨key, member, arguments, found, name, i, atIndex, rfl⟩))

end ArgumentList

end ManifestMigration
