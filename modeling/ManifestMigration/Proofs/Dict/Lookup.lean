import ManifestMigration.Document.Node

/-! # Looking up in dictionaries

Entries against look-ups, and look-ups after a change. A dictionary that holds each key once finds
exactly its entries, and finds nothing under a key that has been erased.
-/

namespace ManifestMigration.Dict

variable {α β : Type}

theorem mem_of_lookup {key : String} {value : α} {entries : List (String × α)}
    (found : entries.lookup key = some value) : (key, value) ∈ entries := by
  obtain ⟨before, after, rfl, -⟩ := List.lookup_eq_some_iff.mp found
  exact List.mem_append_right before List.mem_cons_self

theorem mem_of_get? {d : Dict α} {key : String} {value : α} (found : d.get? key = some value) :
    (key, value) ∈ d.entries :=
  mem_of_lookup found

theorem get?_of_mem {d : Dict α} (distinct : d.keys.Nodup) {key : String} {value : α}
    (member : (key, value) ∈ d.entries) : d.get? key = some value := by
  obtain ⟨entries⟩ := d
  simp only [keys, get?] at distinct member ⊢
  induction entries with
  | nil => cases member
  | cons entry rest ih =>
      obtain ⟨k, v⟩ := entry
      obtain ⟨fresh, distinct⟩ := List.nodup_cons.mp distinct
      rcases List.mem_cons.mp member with here | later
      · cases here
        simp
      · have differs : key ≠ k := by
          rintro rfl
          exact fresh (List.mem_map_of_mem (f := (·.1)) later)
        rw [List.lookup_cons, beq_eq_false_iff_ne.mpr differs]
        exact ih distinct later

theorem get?_eq_none_iff {d : Dict α} {key : String} : d.get? key = none ↔ key ∉ d.keys := by
  rw [← contains_iff_mem_keys]
  simp [contains]

theorem contains_eq_false_iff {d : Dict α} {key : String} :
    d.contains key = false ↔ d.get? key = none := by
  simp [contains]

theorem contains_eq_true_iff {d : Dict α} {key : String} :
    d.contains key = true ↔ ∃ value, d.get? key = some value := by
  simp [contains, Option.isSome_iff_exists]

theorem isEmpty_eq_false_of_get? {d : Dict α} {key : String} {value : α}
    (found : d.get? key = some value) : d.isEmpty = false := by
  obtain ⟨entries⟩ := d
  cases entries with
  | nil => cases found
  | cons entry rest => rfl

theorem isEmpty_eq_false_iff {d : Dict α} :
    d.isEmpty = false ↔ ∃ key value, d.get? key = some value := by
  constructor
  · intro nonempty
    obtain ⟨entries⟩ := d
    cases entries with
    | nil => cases nonempty
    | cons entry rest =>
        obtain ⟨k, v⟩ := entry
        exact ⟨k, v, by simp [get?]⟩
  · rintro ⟨key, value, found⟩
    exact isEmpty_eq_false_of_get? found

theorem eq_empty_of_isEmpty {d : Dict α} (nothing : d.isEmpty = true) : d = empty :=
  congrArg Dict.mk (List.isEmpty_iff.mp nothing)

/-! ## Changes -/

theorem contains_insert (d : Dict α) (key other : String) (value : α) :
    (d.insert key value).contains other = (other == key || d.contains other) := by
  unfold contains
  rw [get?_insert]
  by_cases same : other = key <;> simp [same]

theorem contains_erase_of_ne {key other : String} (d : Dict α) (differs : other ≠ key) :
    (d.erase key).contains other = d.contains other := by
  simp [contains, get?_erase_of_ne d differs]

theorem get?_erase_self {d : Dict α} (distinct : d.keys.Nodup) (key : String) :
    (d.erase key).get? key = none := by
  rw [get?_eq_none_iff, keys_erase]
  exact distinct.not_mem_erase

/-- Erasing a key hides whatever was hidden before. -/
theorem get?_erase_eq_none {d : Dict α} {other : String} (distinct : d.keys.Nodup) (key : String)
    (absent : other = key ∨ d.get? other = none) : (d.erase key).get? other = none := by
  by_cases same : other = key
  · exact same ▸ get?_erase_self distinct other
  · rw [get?_erase_of_ne d same]
    exact absent.resolve_left same

/-! ## Entries after a change -/

theorem mem_insertEntry {key : String} {value : α} {entry : String × α}
    {entries : List (String × α)} (member : entry ∈ insertEntry key value entries) :
    entry ∈ entries ∨ entry = (key, value) := by
  induction entries with
  | nil => exact .inr (List.mem_singleton.mp member)
  | cons head rest ih =>
      obtain ⟨k, v⟩ := head
      by_cases same : k = key
      · subst same
        simp only [insertEntry, if_true, List.mem_cons] at member
        rcases member with rfl | inRest
        · exact .inr rfl
        · exact .inl (List.mem_cons_of_mem _ inRest)
      · simp only [insertEntry, same, if_false, List.mem_cons] at member
        rcases member with rfl | inRest
        · exact .inl List.mem_cons_self
        · exact (ih inRest).imp_left (List.mem_cons_of_mem _)

theorem mem_entries_insert {d : Dict α} {key : String} {value : α} {entry : String × α}
    (member : entry ∈ (d.insert key value).entries) : entry ∈ d.entries ∨ entry = (key, value) :=
  mem_insertEntry member

theorem mem_eraseEntry {key : String} {entry : String × α} {entries : List (String × α)}
    (member : entry ∈ eraseEntry key entries) : entry ∈ entries := by
  induction entries with
  | nil => exact member
  | cons head rest ih =>
      obtain ⟨k, v⟩ := head
      by_cases same : k = key
      · simp only [eraseEntry, same, if_true] at member
        exact List.mem_cons_of_mem _ member
      · simp only [eraseEntry, same, if_false, List.mem_cons] at member
        rcases member with rfl | inRest
        · exact List.mem_cons_self
        · exact List.mem_cons_of_mem _ (ih inRest)

theorem mem_entries_erase {d : Dict α} {key : String} {entry : String × α}
    (member : entry ∈ (d.erase key).entries) : entry ∈ d.entries :=
  mem_eraseEntry member

theorem eraseEntry_eq_filter {key : String} {entries : List (String × α)}
    (distinct : (entries.map (·.1)).Nodup) :
    eraseEntry key entries = entries.filter (·.1 != key) := by
  induction entries with
  | nil => rfl
  | cons head rest ih =>
      obtain ⟨k, v⟩ := head
      obtain ⟨fresh, distinctRest⟩ := List.nodup_cons.mp distinct
      by_cases same : k = key
      · subst same
        have kept : rest.filter (·.1 != k) = rest := by
          refine List.filter_eq_self.mpr fun entry member => bne_iff_ne.mpr ?_
          intro same
          exact fresh (same ▸ List.mem_map_of_mem (f := (·.1)) member)
        simp [eraseEntry, kept]
      · have differs : (k != key) = true := bne_iff_ne.mpr same
        simp only [eraseEntry, same, if_false, List.filter_cons, differs, if_true, ih distinctRest]

theorem entries_erase {d : Dict α} (distinct : d.keys.Nodup) (key : String) :
    (d.erase key).entries = d.entries.filter (·.1 != key) :=
  eraseEntry_eq_filter distinct

/-- A new key comes last. -/
theorem insert_of_notMem {d : Dict α} {key : String} (value : α) (fresh : key ∉ d.keys) :
    d.insert key value = ⟨d.entries ++ [(key, value)]⟩ :=
  congrArg Dict.mk <| insertEntry_of_apart value fun _ member same =>
    fresh (same ▸ List.mem_map_of_mem (f := (·.1)) member)

/-- Storing entries with keys of their own adds them in their order. -/
theorem foldl_insert_of_nodup {d : Dict α} {entries : List (String × α)}
    (distinct : (d.keys ++ entries.map (·.1)).Nodup) :
    entries.foldl (fun d entry => d.insert entry.1 entry.2) d = ⟨d.entries ++ entries⟩ := by
  induction entries generalizing d with
  | nil => rw [List.append_nil]; rfl
  | cons entry rest ih =>
      rw [List.map_cons, List.append_cons] at distinct
      have fresh : entry.1 ∉ d.keys := fun member =>
        (List.nodup_append.mp (List.nodup_append.mp distinct).1).2.2 _ member _
          (List.mem_singleton_self _) rfl
      have keys : (d.insert entry.1 entry.2).keys = d.keys ++ [entry.1] := by
        rw [keys_insert, if_neg fresh]
      rw [List.foldl_cons, ih (by rwa [keys]), insert_of_notMem _ fresh, List.append_assoc]
      rfl

theorem ofList_of_nodup {entries : List (String × α)} (distinct : (entries.map (·.1)).Nodup) :
    ofList entries = ⟨entries⟩ :=
  foldl_insert_of_nodup (d := empty) distinct

/-! ## Every value replaced -/

def mapValues (f : α → β) (d : Dict α) : Dict β :=
  ⟨d.entries.map fun entry => (entry.1, f entry.2)⟩

@[simp] theorem keys_mapValues (f : α → β) (d : Dict α) : (d.mapValues f).keys = d.keys := by
  simp [keys, mapValues, Function.comp_def]

@[simp] theorem get?_mapValues (f : α → β) (d : Dict α) (key : String) :
    (d.mapValues f).get? key = (d.get? key).map f := by
  obtain ⟨entries⟩ := d
  simp only [get?, mapValues]
  induction entries with
  | nil => rfl
  | cons entry rest ih =>
      obtain ⟨k, v⟩ := entry
      simp only [List.map_cons, List.lookup_cons, ih]
      cases key == k <;> rfl

@[simp] theorem contains_mapValues (f : α → β) (d : Dict α) (key : String) :
    (d.mapValues f).contains key = d.contains key := by
  simp [contains]

theorem mapValues_eq_self {f : α → α} {d : Dict α} (fixed : ∀ entry ∈ d.entries, f entry.2 = entry.2) :
    d.mapValues f = d := by
  obtain ⟨entries⟩ := d
  refine congrArg Dict.mk ?_
  calc
    entries.map (fun entry => (entry.1, f entry.2)) = entries.map id :=
      List.map_congr_left fun entry member => by rw [fixed entry member]; rfl
    _ = entries := List.map_id entries

theorem entries_mapIdx (f : String → α → β) (d : Dict α) :
    (d.mapIdx fun _ => f).entries = d.entries.map fun entry => (entry.1, f entry.1 entry.2) := by
  rw [mapIdx, List.mapIdx_eq_zipIdx_map]
  calc
    d.entries.zipIdx.map (fun entry => (entry.1.1, f entry.1.1 entry.1.2))
      = (d.entries.zipIdx.map (·.1)).map fun entry => (entry.1, f entry.1 entry.2) := by
        rw [List.map_map]
        rfl
    _ = d.entries.map fun entry => (entry.1, f entry.1 entry.2) := by rw [List.zipIdx_map_fst]

theorem keys_mapIdx (f : String → α → β) (d : Dict α) : (d.mapIdx fun _ => f).keys = d.keys := by
  simp [keys, entries_mapIdx, Function.comp_def]

theorem get?_mapIdx (f : String → α → β) (d : Dict α) (key : String) :
    (d.mapIdx fun _ => f).get? key = (d.get? key).map (f key) := by
  rw [get?, entries_mapIdx, get?]
  induction d.entries with
  | nil => rfl
  | cons entry rest ih =>
      obtain ⟨k, v⟩ := entry
      by_cases same : key = k
      · subst same
        simp
      · have differs : (key == k) = false := by simpa using same
        simp only [List.map_cons, List.lookup_cons, differs, ih]

/-! ## The same fields in the same order -/

/-- Distinct keys, their order and what stands under them make up a dictionary. -/
theorem ext_of_get? {d e : Dict α} (distinct : d.keys.Nodup) (keys : d.keys = e.keys)
    (same : ∀ key, d.get? key = e.get? key) : d = e := by
  obtain ⟨xs⟩ := d
  obtain ⟨ys⟩ := e
  refine congrArg Dict.mk ?_
  simp only [Dict.keys, get?] at distinct keys same
  induction xs generalizing ys with
  | nil => exact (List.map_eq_nil_iff.mp keys.symm).symm
  | cons entry rest ih =>
      obtain ⟨k, v⟩ := entry
      cases ys with
      | nil => cases keys
      | cons entry' rest' =>
          obtain ⟨k', v'⟩ := entry'
          obtain ⟨rfl, keysRest⟩ := List.cons.inj keys
          obtain ⟨fresh, distinctRest⟩ := List.nodup_cons.mp distinct
          obtain rfl : v = v' := by simpa using same k
          refine congrArg _ (ih distinctRest rest' keysRest fun key => ?_)
          by_cases head : key = k
          · subst head
            have absent := get?_eq_none_iff (d := ⟨rest⟩) |>.mpr fresh
            have absent' := get?_eq_none_iff (d := ⟨rest'⟩) |>.mpr (keysRest ▸ fresh)
            exact absent.trans absent'.symm
          · have differs : (key == k) = false := by simpa using head
            simpa only [List.lookup_cons, differs] using same key

/-- Keys that are some of the distinct keys of a dictionary stand in the order that they have
    there. -/
theorem keys_eq_filter {d m : Dict α} (distinct : m.keys.Nodup) (among : d.keys.Sublist m.keys) :
    d.keys = m.keys.filter d.contains := by
  have mem (key : String) : d.contains key = decide (key ∈ d.keys) := by
    rw [Bool.eq_iff_iff, contains_iff_mem_keys, decide_eq_true_iff]
  simp only [funext mem]
  generalize d.keys = some, m.keys = all at distinct among
  induction among with
  | slnil => rfl
  | cons key among ih =>
      obtain ⟨fresh, distinct⟩ := List.nodup_cons.mp distinct
      rw [List.filter_cons_of_neg (by simpa using mt (among.subset ·) fresh)]
      exact ih distinct
  | cons_cons key among ih =>
      obtain ⟨fresh, distinct⟩ := List.nodup_cons.mp distinct
      rw [List.filter_cons_of_pos (by simp)]
      refine congrArg _ ((ih distinct).trans (List.filter_congr fun other member => ?_))
      have differs : other ≠ key := fun same => fresh (same ▸ member)
      simp [differs]

/-- What is left of a dictionary is determined by what stands under each key. -/
theorem ext_of_sublist {d e m : Dict α} (distinct : m.keys.Nodup) (left : d.keys.Sublist m.keys)
    (left' : e.keys.Sublist m.keys) (same : ∀ key, d.get? key = e.get? key) : d = e := by
  have contains : d.contains = e.contains := funext fun key => by rw [Dict.contains, same, Dict.contains]
  refine ext_of_get? (left.nodup distinct) ?_ same
  rw [keys_eq_filter distinct left, keys_eq_filter distinct left', contains]

end ManifestMigration.Dict
