import ManifestMigration.Files.Faults
import ManifestMigration.Proofs.Text.Pieces
import Mathlib.Data.List.Infix

/-! # Where paths lead

A path is followed through directories, and writing a file neither makes nor removes one. So a write
changes what stands where its path leads and nothing else, and afterwards every path that led
somewhere still leads there. Two paths may lead to one place; a text behind the last step of a path
leads elsewhere if it holds no slash.
-/

namespace ManifestMigration.Store

variable {store after : Store} {path other location suffix : String} {bytes held : ByteArray}
  {place : Place} {names steps : List String}

/-- A path leads to a location, whether or not something stands there. -/
def LeadsTo (store : Store) (path location : String) : Prop :=
  ∃ slash, store.locate path = .ok ⟨location, slash⟩

def LeadsToNull (store : Store) (path : String) : Prop :=
  ∃ location, store.LeadsTo path location ∧ store.at? location = some .nullDevice

theorem locate_eq_ok_iff {slash : Bool} :
    store.locate path = .ok ⟨location, slash⟩ ↔
      path ≠ "" ∧ decide (path.toList.getLast? = some '/') = slash ∧
        ∃ reached, store.follow [] (stepsOf (store.fromRoot path)) = .ok reached ∧
          locationOf reached = location := by
  unfold locate
  by_cases empty : path = ""
  · simp [empty]
  · rw [if_neg empty]
    cases store.follow [] (stepsOf (store.fromRoot path)) with
    | error fault => simp [Except.map]
    | ok reached => simp [Except.map, empty, and_comm]

theorem at?_root : store.at? "" = some .directory := by
  rw [at?, if_pos rfl]

theorem leadsToNull_congr (same : store.locate other = store.locate path) :
    store.LeadsToNull other ↔ store.LeadsToNull path := by
  simp only [LeadsToNull, LeadsTo, same]

theorem LeadsToNull.at?_eq {slash : Bool} (null : store.LeadsToNull path)
    (leads : store.locate path = .ok ⟨location, slash⟩) : store.at? location = some .nullDevice := by
  obtain ⟨_, ⟨_, leads'⟩, device⟩ := null
  cases leads.symm.trans leads'
  exact device

theorem not_leadsToNull_of_isFile (file : store.isFile path = true) : ¬ store.LeadsToNull path := by
  rintro ⟨location, ⟨slash, leads⟩, device⟩
  simp [isFile, leads, device] at file

/-! ## Reading and writing -/

/-- The bytes that are read at a location. -/
def bytesAt? (store : Store) (location : String) : Option ByteArray :=
  (store.at? location).bind StoreEntry.bytes?

theorem readBytes_eq_ok_iff :
    store.readBytes path = .ok bytes ↔
      ∃ location, store.locate path = .ok ⟨location, false⟩ ∧
        store.bytesAt? location = some bytes := by
  unfold readBytes
  cases leads : store.locate path with
  | error fault => simp
  | ok place =>
      obtain ⟨location, slash⟩ := place
      cases stands : store.at? location with
      | none => simp [bytesAt?, stands]
      | some entry =>
          cases slash <;> cases bytes? : entry.bytes? <;> simp [bytesAt?, stands, bytes?]

theorem readBytes_congr (same : store.locate other = store.locate path) :
    store.readBytes other = .ok bytes ↔ store.readBytes path = .ok bytes := by
  rw [readBytes_eq_ok_iff, readBytes_eq_ok_iff, same]

/-- Nothing is ever read from a null device. -/
theorem LeadsToNull.eq_empty (null : store.LeadsToNull path)
    (read : store.readBytes path = .ok bytes) : bytes = .empty := by
  obtain ⟨location, leads, stands⟩ := readBytes_eq_ok_iff.mp read
  rw [bytesAt?, null.at?_eq leads] at stands
  exact (Option.some.inj stands).symm

theorem at?_withBytes_of_ne {name : String} (differs : location ≠ name) :
    (store.withBytes name bytes).at? location = store.at? location := by
  unfold withBytes
  split
  · rfl
  · simp only [at?, Dict.get?_insert_of_ne _ _ differs]

theorem withBytes_of_null (null : store.at? location = some .nullDevice) :
    store.withBytes location bytes = store := by
  simp only [withBytes, null]

theorem at?_withBytes_self (plain : store.at? location ≠ some .nullDevice)
    (writable : store.at? location ≠ some .directory) :
    (store.withBytes location bytes).at? location = some (.file bytes) := by
  have inside : location ≠ "" := by
    rintro rfl
    exact writable at?_root
  unfold withBytes
  split
  · next null => exact absurd null plain
  · rw [at?, if_neg inside, Dict.get?_insert_self]

/-- A write that succeeds, with the store that it leaves. -/
def Writes (store : Store) (path : String) (bytes : ByteArray) (after : Store) : Prop :=
  store.writeBytes path bytes = (.ok (), after)

theorem writes_iff :
    store.Writes path bytes after ↔
      ∃ location, store.locate path = .ok ⟨location, false⟩ ∧
        store.at? location ≠ some .directory ∧ after = store.withBytes location bytes := by
  unfold Writes writeBytes
  cases leads : store.locate path with
  | error fault => simp
  | ok place =>
      obtain ⟨location, slash⟩ := place
      cases slash with
      | true => simp
      | false =>
          by_cases directory : store.at? location = some .directory
          · simp [directory]
          · simpa [eq_comm] using fun _ => Ne.symm directory

theorem left_writeBytes_of_error {e : FileError}
    (fails : (store.writeBytes path bytes).1 = .error e) :
    (store.writeBytes path bytes).2 = store := by
  unfold writeBytes at fails ⊢
  cases leads : store.locate path with
  | error fault => rfl
  | ok place =>
      simp only [leads] at fails ⊢
      split at fails
      · simp only [*]
      · simp only [*]
      · cases fails

theorem ne_directory_of_bytesAt? (stands : store.bytesAt? location = some bytes) :
    store.at? location ≠ some .directory := by
  intro directory
  rw [bytesAt?, directory] at stands
  cases stands

theorem bytesAt?_withBytes_self (plain : store.at? location ≠ some .nullDevice)
    (writable : store.at? location ≠ some .directory) :
    (store.withBytes location bytes).bytesAt? location = some bytes := by
  rw [bytesAt?, at?_withBytes_self plain writable]
  rfl

/-! ## Paths after a write -/

/-- The same locations hold directories, and the same one is worked in. -/
structure SameDirectories (store after : Store) : Prop where
  workingDirectory : store.workingDirectory = after.workingDirectory
  directory_iff : ∀ location,
    store.at? location = some .directory ↔ after.at? location = some .directory

theorem SameDirectories.refl (store : Store) : store.SameDirectories store := ⟨rfl, fun _ => Iff.rfl⟩

/-- What following a step takes. -/
theorem follow_cons_eq_ok_iff {step : String} {rest reached : List String} :
    store.follow names (step :: rest) = .ok reached ↔
      store.at? (locationOf names) = some .directory ∧
        store.follow
          (if step = "." then names else if step = ".." then names.tail else step :: names) rest =
            .ok reached := by
  rw [follow]
  split
  · next missing => simp [missing]
  · next directory =>
    rw [directory]
    split
    · simp
    · split <;> simp
  · next entry other stands =>
    refine iff_of_false nofun ?_
    rintro ⟨directory, -⟩
    exact other (Option.some.inj (stands.symm.trans directory))

theorem follow_congr (same : store.SameDirectories after) {reached : List String} :
    store.follow names steps = .ok reached ↔ after.follow names steps = .ok reached := by
  induction steps generalizing names with
  | nil => rfl
  | cons step rest ih =>
      rw [follow_cons_eq_ok_iff, follow_cons_eq_ok_iff, same.directory_iff, ih]

theorem locate_congr (same : store.SameDirectories after) :
    store.locate path = .ok place ↔ after.locate path = .ok place := by
  obtain ⟨location, slash⟩ := place
  simp only [locate_eq_ok_iff, follow_congr same, fromRoot, same.workingDirectory]

theorem sameDirectories_withBytes (writable : store.at? location ≠ some .directory) :
    store.SameDirectories (store.withBytes location bytes) where
  workingDirectory := by
    unfold withBytes
    split <;> rfl
  directory_iff other := by
    by_cases here : other = location
    · subst here
      by_cases null : store.at? other = some .nullDevice
      · rw [withBytes_of_null null]
      · rw [at?_withBytes_self null writable]
        exact iff_of_false writable nofun
    · rw [at?_withBytes_of_ne here]

namespace Writes

theorem sameDirectories (wrote : store.Writes path bytes after) : store.SameDirectories after := by
  obtain ⟨location, -, writable, rfl⟩ := writes_iff.mp wrote
  exact sameDirectories_withBytes writable

theorem exists_locate (wrote : store.Writes path bytes after) :
    ∃ place, store.locate path = .ok place := by
  obtain ⟨location, leads, -⟩ := writes_iff.mp wrote
  exact ⟨_, leads⟩

theorem locate_eq_iff (wrote : store.Writes path bytes after) :
    after.locate other = after.locate path ↔ store.locate other = store.locate path := by
  obtain ⟨place, leads⟩ := wrote.exists_locate
  rw [leads, (locate_congr wrote.sameDirectories).mp leads, ← locate_congr wrote.sameDirectories]

/-- A write alters nothing but what stands where its path leads. -/
theorem at?_eq (wrote : store.Writes path bytes after) (elsewhere : ¬ store.LeadsTo path location) :
    after.at? location = store.at? location := by
  obtain ⟨location', leads, -, rfl⟩ := writes_iff.mp wrote
  refine at?_withBytes_of_ne ?_
  rintro rfl
  exact elsewhere ⟨false, leads⟩

theorem leadsToNull_iff (wrote : store.Writes path bytes after) :
    after.LeadsToNull other ↔ store.LeadsToNull other := by
  have same := wrote.sameDirectories
  obtain ⟨location, leads, writable, rfl⟩ := writes_iff.mp wrote
  simp only [LeadsToNull, LeadsTo, ← locate_congr same]
  refine exists_congr fun location' => and_congr_right fun _ => ?_
  by_cases here : location' = location
  · subst here
    by_cases null : store.at? location' = some .nullDevice
    · rw [withBytes_of_null null]
    · rw [at?_withBytes_self null writable]
      exact iff_of_false nofun null
  · rw [at?_withBytes_of_ne here]

/-- What is written is read back, unless the path leads to a null device. -/
theorem readBytes_self_iff (wrote : store.Writes path bytes after) :
    after.readBytes path = .ok bytes ↔ (store.LeadsToNull path → bytes = .empty) := by
  constructor
  · intro read null
    exact (wrote.leadsToNull_iff.mpr null).eq_empty read
  · intro kept
    have same := wrote.sameDirectories
    obtain ⟨location, leads, writable, rfl⟩ := writes_iff.mp wrote
    have leads' := (locate_congr same).mp leads
    refine readBytes_eq_ok_iff.mpr ⟨location, leads', ?_⟩
    by_cases null : store.at? location = some .nullDevice
    · rw [withBytes_of_null null, bytesAt?, null, kept ⟨location, ⟨false, leads⟩, null⟩]
      rfl
    · exact bytesAt?_withBytes_self null writable

/-- A path that leads elsewhere reads what it did. -/
theorem readBytes_of_ne (wrote : store.Writes path bytes after)
    (elsewhere : store.locate other ≠ store.locate path) :
    after.readBytes other = .ok held ↔ store.readBytes other = .ok held := by
  obtain ⟨location, leads, writable, rfl⟩ := writes_iff.mp wrote
  simp only [readBytes_eq_ok_iff, ← locate_congr (sameDirectories_withBytes writable)]
  refine exists_congr fun location' => and_congr_right fun leads' => ?_
  have differs : location' ≠ location := by
    rintro rfl
    exact elsewhere (leads'.trans leads.symm)
  rw [bytesAt?, at?_withBytes_of_ne differs, ← bytesAt?]

/-- Writing what a path reads does not change what it reads, wherever it is written. -/
theorem readBytes_of_read (wrote : store.Writes path bytes after)
    (read : store.readBytes other = .ok bytes) : after.readBytes other = .ok bytes := by
  by_cases same : store.locate other = store.locate path
  · rw [readBytes_congr (wrote.locate_eq_iff.mpr same), wrote.readBytes_self_iff]
    exact fun null => null.eq_empty ((readBytes_congr same).mp read)
  · exact (wrote.readBytes_of_ne same).mpr read

end Writes

/-! ## A text behind a path -/

theorem follow_append (more : List String) :
    store.follow names (steps ++ more) =
      store.follow names steps >>= fun reached => store.follow reached more := by
  induction steps generalizing names with
  | nil => rfl
  | cons step rest ih =>
      simp only [List.cons_append, follow]
      split
      · rfl
      · split
        · exact ih
        · split <;> exact ih
      · rfl

/-- Above every name that has been reached there are directories. -/
def Grounded (store : Store) (names : List String) : Prop :=
  ∀ above, above <:+ names.tail → store.at? (locationOf above) = some .directory

theorem grounded_root (store : Store) : store.Grounded [] := by
  intro above among
  rw [List.suffix_nil.mp among]
  exact at?_root

theorem grounded_follow (grounded : store.Grounded names) {reached : List String}
    (followed : store.follow names steps = .ok reached) : store.Grounded reached := by
  induction steps generalizing names with
  | nil =>
      cases followed
      exact grounded
  | cons step rest ih =>
      obtain ⟨directory, followed⟩ := follow_cons_eq_ok_iff.mp followed
      refine ih ?_ followed
      split
      · exact grounded
      · split
        · intro above among
          exact grounded above (among.trans (List.tail_suffix _))
        · intro above among
          cases names with
          | nil => exact List.suffix_nil.mp among ▸ at?_root
          | cons name up =>
              rcases List.suffix_cons_iff.mp among with rfl | higher
              · exact directory
              · exact grounded above higher

theorem step_of_file {step : String} (grounded : store.Grounded names) {reached : List String}
    (followed : store.follow names [step] = .ok reached)
    (file : store.at? (locationOf reached) ≠ some .directory) :
    reached = step :: names := by
  obtain ⟨directory, followed⟩ := follow_cons_eq_ok_iff.mp followed
  cases followed
  split
  · next here =>
    simp only [if_pos here] at file
    exact absurd directory file
  · next notHere =>
    split
    · next up =>
      simp only [if_neg notHere, if_pos up] at file
      exact absurd (grounded _ List.suffix_rfl) file
    · rfl

theorem locationOf_cons_inj {step step' : String}
    (same : locationOf (step :: names) = locationOf (step' :: names)) : step = step' :=
  (String.append_right_inj _).mp same

/-- Text without a slash goes to the last step of a path that ends in none. -/
theorem stepsOf_append (some : path ≠ "") (ends : path.toList.getLast? ≠ .some '/')
    (free : '/' ∉ suffix.toList) :
    ∃ before last, stepsOf path = before ++ [last] ∧
      stepsOf (path ++ suffix) = before ++ [last ++ suffix] := by
  obtain ⟨before, last, split, splitMore, nonempty⟩ :=
    @Text.splitAll_append '/' path.toList suffix.toList free
  have filled : last ≠ [] := nonempty (by simpa using some) ends
  refine ⟨(before.filter (!·.isEmpty)).map String.ofList, String.ofList last, ?_, ?_⟩
  · simp [stepsOf, split, filled]
  · simp [stepsOf, splitMore, filled, String.ofList_append]

/-- A text behind a path stands behind the whole path from the root. -/
theorem fromRoot_append (some : path ≠ "") (suffix : String) :
    store.fromRoot (path ++ suffix) = store.fromRoot path ++ suffix := by
  have first : (path ++ suffix).toList.head? = path.toList.head? := by
    obtain ⟨c, rest, chars⟩ := List.exists_cons_of_ne_nil (by simpa using some : path.toList ≠ [])
    rw [String.toList_append, chars]
    rfl
  unfold fromRoot
  rw [first]
  split
  · rfl
  · exact (String.append_assoc ..).symm

theorem fromRoot_ends (some : path ≠ "") :
    (store.fromRoot path).toList.getLast? = path.toList.getLast? := by
  have filled : path.toList ≠ [] := by simpa using some
  unfold fromRoot
  split
  · rfl
  · rw [String.toList_append, List.getLast?_append_of_ne_nil _ filled]

/-- Where a file is read, a suffix without a slash leads elsewhere unless it is empty. -/
theorem locate_append_eq_iff (read : store.readBytes path = .ok bytes)
    (free : '/' ∉ suffix.toList) :
    store.locate (path ++ suffix) = store.locate path ↔ suffix = "" := by
  constructor
  · intro same
    obtain ⟨location, leads, stands⟩ := readBytes_eq_ok_iff.mp read
    have file := ne_directory_of_bytesAt? stands
    rw [leads] at same
    obtain ⟨some, noSlash, reached, followed, rfl⟩ := locate_eq_ok_iff.mp leads
    obtain ⟨-, -, reached', followed', there⟩ := locate_eq_ok_iff.mp same
    have ends : (store.fromRoot path).toList.getLast? ≠ .some '/' := by
      rw [fromRoot_ends some]
      exact of_decide_eq_false noSlash
    have nonempty : store.fromRoot path ≠ "" := by
      intro empty
      have last : (store.fromRoot path).toList.getLast? = path.toList.getLast? :=
        fromRoot_ends some
      rw [empty] at last
      exact some (by simpa using last.symm)
    obtain ⟨before, last, steps, stepsMore⟩ := stepsOf_append nonempty ends free
    rw [steps, follow_append] at followed
    rw [fromRoot_append some, stepsMore, follow_append] at followed'
    -- Both paths go the same way up to the last step.
    cases way : store.follow [] before with
    | error fault =>
        rw [way] at followed
        cases followed
    | ok names =>
        rw [way] at followed followed'
        have grounded := grounded_follow store.grounded_root way
        obtain rfl := step_of_file grounded followed file
        obtain rfl := step_of_file grounded followed' (there.symm ▸ file)
        have longer := congrArg String.toList (locationOf_cons_inj there)
        simpa using longer
  · rintro rfl
    rw [String.append_empty]

end ManifestMigration.Store
