/-! # Insertion ordered dictionaries

A dictionary keeps its entries in the order in which their keys first came in. Storing a value
under a key that is there already keeps the key where it is; erasing a key keeps the order of the
others. No operation here puts a key twice into a dictionary that holds each key once
(`nodup_keys_insert`, `nodup_keys_erase`).
-/

namespace ManifestMigration

/-- String keys with their values, in insertion order. -/
structure Dict (α : Type) where
  /-- The keys and values, oldest key first. -/
  entries : List (String × α)
  deriving Repr

namespace Dict

variable {α β : Type}

def empty : Dict α := ⟨[]⟩

instance : Inhabited (Dict α) := ⟨empty⟩

def size (d : Dict α) : Nat := d.entries.length

def isEmpty (d : Dict α) : Bool := d.entries.isEmpty

def keys (d : Dict α) : List String := d.entries.map (·.1)

def get? (d : Dict α) (key : String) : Option α := d.entries.lookup key

def contains (d : Dict α) (key : String) : Bool := (d.get? key).isSome

/-- Store a value in a list of entries: in place when the key is there, at the end otherwise. -/
def insertEntry (key : String) (value : α) : List (String × α) → List (String × α)
  | [] => [(key, value)]
  | (k, v) :: rest =>
    if k = key then (k, value) :: rest else (k, v) :: insertEntry key value rest

/-- Store a value under a key. A key that is there already keeps its place. -/
def insert (d : Dict α) (key : String) (value : α) : Dict α :=
  ⟨insertEntry key value d.entries⟩

/-- Drop the first entry of a key from a list of entries. -/
def eraseEntry (key : String) : List (String × α) → List (String × α)
  | [] => []
  | (k, v) :: rest => if k = key then rest else (k, v) :: eraseEntry key rest

/-- Drop a key. The other entries keep their order. -/
def erase (d : Dict α) (key : String) : Dict α := ⟨eraseEntry key d.entries⟩

def ofList (entries : List (String × α)) : Dict α :=
  entries.foldl (fun d entry => d.insert entry.1 entry.2) empty

/-- Replace every value by a function of its position, its key and itself. -/
def mapIdx (f : Nat → String → α → β) (d : Dict α) : Dict β :=
  ⟨d.entries.mapIdx fun i entry => (entry.1, f i entry.1 entry.2)⟩

/-! ## Looking up after a change -/

@[simp] theorem get?_empty (key : String) : (empty : Dict α).get? key = none := rfl

theorem lookup_insertEntry (key other : String) (value : α) (entries : List (String × α)) :
    (insertEntry key value entries).lookup other =
      if other = key then some value else entries.lookup other := by
  induction entries with
  | nil =>
    by_cases h : other = key
    · simp [insertEntry, h]
    · have : (other == key) = false := by simpa using h
      simp [insertEntry, List.lookup_cons, h, this]
  | cons entry rest ih =>
    obtain ⟨k, v⟩ := entry
    by_cases hk : k = key
    · subst hk
      by_cases h : other = k
      · simp [insertEntry, h]
      · have : (other == k) = false := by simpa using h
        simp [insertEntry, List.lookup_cons, h, this]
    · by_cases ho : other = k
      · subst ho; simp [insertEntry, hk]
      · have : (other == k) = false := by simpa using ho
        simp [insertEntry, List.lookup_cons, hk, this, ih]

theorem get?_insert (d : Dict α) (key other : String) (value : α) :
    (d.insert key value).get? other = if other = key then some value else d.get? other :=
  lookup_insertEntry key other value d.entries

@[simp] theorem get?_insert_self (d : Dict α) (key : String) (value : α) :
    (d.insert key value).get? key = some value := by
  simp [get?_insert]

theorem get?_insert_of_ne {key other : String} (d : Dict α) (value : α) (h : other ≠ key) :
    (d.insert key value).get? other = d.get? other := by
  simp [get?_insert, h]

theorem lookup_eraseEntry_of_ne {key other : String} (entries : List (String × α))
    (h : other ≠ key) : (eraseEntry key entries).lookup other = entries.lookup other := by
  induction entries with
  | nil => rfl
  | cons entry rest ih =>
    obtain ⟨k, v⟩ := entry
    by_cases hk : k = key
    · subst hk
      have : (other == k) = false := by simpa using h
      simp [eraseEntry, List.lookup_cons, this]
    · simp only [eraseEntry, hk, if_false, List.lookup_cons, ih]

theorem get?_erase_of_ne {key other : String} (d : Dict α) (h : other ≠ key) :
    (d.erase key).get? other = d.get? other :=
  lookup_eraseEntry_of_ne d.entries h

/-! ## Keys after a change -/

theorem lookup_isSome_iff_mem_keys (key : String) (entries : List (String × α)) :
    (entries.lookup key).isSome ↔ key ∈ entries.map (·.1) := by
  rw [List.lookup_isSome_iff, List.mem_map]
  exact exists_congr fun _ => and_congr_right fun _ => beq_iff_eq.trans eq_comm

theorem contains_iff_mem_keys (d : Dict α) (key : String) : d.contains key ↔ key ∈ d.keys :=
  lookup_isSome_iff_mem_keys key d.entries

theorem map_fst_insertEntry (key : String) (value : α) (entries : List (String × α)) :
    (insertEntry key value entries).map (·.1) =
      if key ∈ entries.map (·.1) then entries.map (·.1) else entries.map (·.1) ++ [key] := by
  induction entries with
  | nil => simp [insertEntry]
  | cons entry rest ih =>
    obtain ⟨k, v⟩ := entry
    by_cases hk : k = key
    · simp [insertEntry, hk]
    · have hk' : ¬ key = k := fun h => hk h.symm
      simp only [insertEntry, hk, if_false, List.map_cons, ih, List.mem_cons, hk', false_or]
      split <;> rfl

theorem keys_insert (d : Dict α) (key : String) (value : α) :
    (d.insert key value).keys = if key ∈ d.keys then d.keys else d.keys ++ [key] :=
  map_fst_insertEntry key value d.entries

theorem map_fst_eraseEntry (key : String) (entries : List (String × α)) :
    (eraseEntry key entries).map (·.1) = (entries.map (·.1)).erase key := by
  induction entries with
  | nil => rfl
  | cons entry rest ih =>
    obtain ⟨k, v⟩ := entry
    by_cases hk : k = key <;> simp [eraseEntry, hk, ih]

theorem keys_erase (d : Dict α) (key : String) : (d.erase key).keys = d.keys.erase key :=
  map_fst_eraseEntry key d.entries

theorem nodup_keys_insert {d : Dict α} (h : d.keys.Nodup) (key : String) (value : α) :
    (d.insert key value).keys.Nodup := by
  rw [keys_insert]
  split
  · exact h
  · next hk =>
    refine List.nodup_append.2 ⟨h, by simp, ?_⟩
    intro a ha b hb hab
    simp only [List.mem_singleton] at hb
    exact hk (hb ▸ hab ▸ ha)

theorem nodup_keys_erase {d : Dict α} (h : d.keys.Nodup) (key : String) :
    (d.erase key).keys.Nodup := by
  rw [keys_erase]
  exact h.erase key

/-! ## Changes behind other entries -/

theorem exists_of_lookup {key : String} {value : α} {entries : List (String × α)}
    (found : entries.lookup key = some value) :
    ∃ before after, entries = before ++ (key, value) :: after ∧
      ∀ entry ∈ before, entry.1 ≠ key := by
  obtain ⟨before, after, split, apart⟩ := List.lookup_eq_some_iff.mp found
  exact ⟨before, after, split, fun entry member => (bne_iff_ne.mp (apart entry member)).symm⟩

theorem apart_of_lookup {key : String} {entries : List (String × α)}
    (missing : entries.lookup key = none) : ∀ entry ∈ entries, entry.1 ≠ key := by
  intro entry member
  exact (bne_iff_ne.mp (List.lookup_eq_none_iff.mp missing entry member)).symm

theorem insertEntry_append {key : String} {before : List (String × α)} (value : α)
    (rest : List (String × α)) (apart : ∀ entry ∈ before, entry.1 ≠ key) :
    insertEntry key value (before ++ rest) = before ++ insertEntry key value rest := by
  induction before with
  | nil => rfl
  | cons entry before ih =>
    obtain ⟨differs, apart⟩ := List.forall_mem_cons.mp apart
    rw [List.cons_append, insertEntry, if_neg differs, ih apart, List.cons_append]

theorem eraseEntry_append {key : String} {before : List (String × α)} (rest : List (String × α))
    (apart : ∀ entry ∈ before, entry.1 ≠ key) :
    eraseEntry key (before ++ rest) = before ++ eraseEntry key rest := by
  induction before with
  | nil => rfl
  | cons entry before ih =>
    obtain ⟨differs, apart⟩ := List.forall_mem_cons.mp apart
    rw [List.cons_append, eraseEntry, if_neg differs, ih apart, List.cons_append]

/-- A key that is not there comes last. -/
theorem insertEntry_of_apart {key : String} {entries : List (String × α)} (value : α)
    (apart : ∀ entry ∈ entries, entry.1 ≠ key) :
    insertEntry key value entries = entries ++ [(key, value)] := by
  have last := insertEntry_append value [] apart
  rwa [List.append_nil] at last

theorem eraseEntry_of_apart {key : String} {entries : List (String × α)}
    (apart : ∀ entry ∈ entries, entry.1 ≠ key) : eraseEntry key entries = entries := by
  have nothing := eraseEntry_append [] apart
  rwa [List.append_nil, eraseEntry, List.append_nil] at nothing

/-! ## Changes that change nothing -/

theorem insertEntry_of_lookup {key : String} {value : α} {entries : List (String × α)}
    (found : entries.lookup key = some value) : insertEntry key value entries = entries := by
  obtain ⟨before, after, rfl, apart⟩ := exists_of_lookup found
  rw [insertEntry_append value _ apart, insertEntry, if_pos rfl]

/-- Storing what is stored already changes nothing. -/
theorem insert_of_get? {d : Dict α} {key : String} {value : α} (h : d.get? key = some value) :
    d.insert key value = d := by
  cases d
  exact congrArg Dict.mk (insertEntry_of_lookup h)

/-- Erasing what is not there changes nothing. -/
theorem erase_of_none {d : Dict α} {key : String} (missing : d.get? key = none) :
    d.erase key = d := by
  cases d
  exact congrArg Dict.mk (eraseEntry_of_apart (apart_of_lookup missing))

end Dict

end ManifestMigration
