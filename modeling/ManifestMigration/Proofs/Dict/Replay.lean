import Mathlib.Data.Set.Card
import ManifestMigration.Proofs.Document.Paths

/-! # Mappings as insertion ordered dictionaries

Whatever is done to a mapping, it stays a finite map whose keys stand in the order in which they
came: a key that was stored while it was not there is behind all keys that were there then. The
operations on a mapping are replayed on such a map, which knows for every key what is stored under
it and when it came, and the two agree after every step and in every reply.
-/

namespace ManifestMigration

inductive Operation where
  /-- Store a value under a key, whether the key is there or not. -/
  | insert (key : String) (value : Node)
  /-- Drop a key. -/
  | remove (key : String)
  /-- Take the contents out of the mapping under a key. -/
  | detach (key : String)
  /-- Replace the value under a key if the key is there. -/
  | overwrite (key : String) (value : Node)
  /-- Replace all values. The keys are distinct, so a function of them reaches every value. -/
  | replaceAll (f : String → Node → Node)

inductive Reply where
  /-- The value that was stored under the key. -/
  | previous (value : Option Node)
  /-- The contents that were taken out. -/
  | contents (fields : Mapping)
  /-- The values that were handed out, in order. -/
  | values (values : List Node)

namespace Operation

def run : Operation → Mapping → Reply × Mapping
  | insert key value, m => (.previous (m.get? key), m.insert key value)
  | remove key, m => (.previous (m.get? key), m.erase key)
  | detach key, m => (.contents (m.detach key).1, (m.detach key).2)
  | overwrite key value, m =>
    (.previous (m.get? key), if m.contains key then m.insert key value else m)
  | replaceAll f, m => (.values (m.entries.map (·.2)), m.mapIdx fun _ => f)

end Operation

/-! ## Replaying -/

/-- A finite map that knows when its keys came. -/
structure Replay where
  /-- What is stored under a key. -/
  stored : String → Option Node
  /-- When the key was last stored while it was not there. -/
  arrived : String → Nat
  /-- How many operations there have been. -/
  clock : Nat

namespace Replay

def start : Replay := ⟨fun _ => none, fun _ => 0, 0⟩

/-- Store or drop what is under a key. -/
def put (r : Replay) (key : String) (value : Option Node) : Replay :=
  { r with stored := fun other => if other = key then value else r.stored other }

/-- Note that a key has come, unless it is there. -/
def arrive (r : Replay) (key : String) : Replay :=
  { r with arrived := fun other =>
      if other = key ∧ r.stored key = none then r.clock else r.arrived other }

/-- Replay one operation, but for the clock. -/
def effect (r : Replay) : Operation → Replay
  | .insert key value => (r.arrive key).put key (some value)
  | .remove key => r.put key none
  | .detach key =>
    match r.stored key with
    | some (.mapping _) => r.put key (some (.mapping .empty))
    | _ => r
  | .overwrite key value => if (r.stored key).isSome then r.put key (some value) else r
  | .replaceAll f => { r with stored := fun key => (r.stored key).map (f key) }

def tick (r : Replay) : Replay := { r with clock := r.clock + 1 }

def step (r : Replay) (operation : Operation) : Replay := (r.effect operation).tick

/-- The keys of the map in the order in which they came. -/
structure Lists (r : Replay) (keys : List String) : Prop where
  complete : ∀ key, key ∈ keys ↔ (r.stored key).isSome
  ordered : keys.Pairwise fun first second => r.arrived first < r.arrived second

/-- What an operation on the map returns. -/
def Answers (r : Replay) : Operation → Reply → Prop
  | .insert key _, reply => reply = .previous (r.stored key)
  | .remove key, reply => reply = .previous (r.stored key)
  | .detach key, reply =>
    reply = .contents (((r.stored key).bind Node.mapping?).getD .empty)
  | .overwrite key _, reply => reply = .previous (r.stored key)
  | .replaceAll _, reply =>
    ∃ keys values, r.Lists keys ∧ values.map some = keys.map r.stored ∧ reply = .values values

/-- The mapping stores what the map stores, and its keys stand in the order in which they came,
    before whatever may come next. -/
structure Tracks (r : Replay) (m : Mapping) : Prop where
  distinct : m.keys.Nodup
  get? : ∀ key, m.get? key = r.stored key
  ordered : m.keys.Pairwise fun first second => r.arrived first < r.arrived second
  recent : ∀ key ∈ m.keys, r.arrived key < r.clock

variable {r : Replay} {m : Mapping} {key : String} {value : Node}

/-! ## Steps -/

namespace Tracks

theorem start : Tracks start .empty :=
  ⟨List.nodup_nil, fun _ => rfl, List.Pairwise.nil, fun _ member => nomatch member⟩

theorem mem_keys_iff (tracks : Tracks r m) : key ∈ m.keys ↔ (r.stored key).isSome := by
  rw [← Dict.contains_iff_mem_keys, Dict.contains, tracks.get?]

theorem tick (tracks : Tracks r m) : Tracks r.tick m :=
  { tracks with recent := fun key member => Nat.lt_succ_of_lt (tracks.recent key member) }

/-- Nothing arrives where a key is there. -/
theorem arrive_of_mem (tracks : Tracks r m) (there : key ∈ m.keys) : r.arrive key = r := by
  have stored : r.stored key ≠ none :=
    Option.isSome_iff_ne_none.mp (tracks.mem_keys_iff.mp there)
  simp only [arrive, stored, and_false, if_false]

/-- A new value for a key that is there leaves the keys as they are. -/
theorem insert_of_mem (tracks : Tracks r m) (there : key ∈ m.keys) (value : Node) :
    Tracks (r.put key (some value)) (m.insert key value) := by
  have keys : (m.insert key value).keys = m.keys := by rw [Dict.keys_insert, if_pos there]
  refine ⟨keys ▸ tracks.distinct, fun other => ?_, keys ▸ tracks.ordered, keys ▸ tracks.recent⟩
  rw [Dict.get?_insert, tracks.get?]
  rfl

/-- A new key comes behind all others. -/
theorem insert_of_notMem (tracks : Tracks r m) (absent : key ∉ m.keys) (value : Node) :
    Tracks ((r.arrive key).put key (some value)).tick (m.insert key value) := by
  have keys : (m.insert key value).keys = m.keys ++ [key] := by rw [Dict.keys_insert, if_neg absent]
  have free : r.stored key = none := by
    rwa [tracks.mem_keys_iff, Option.not_isSome_iff_eq_none] at absent
  have now : (r.arrive key).arrived key = r.clock := by simp [arrive, free]
  have before : ∀ other ∈ m.keys, (r.arrive key).arrived other = r.arrived other := by
    intro other member
    have differs : other ≠ key := by
      rintro rfl
      exact absent member
    simp [arrive, differs]
  refine ⟨Dict.nodup_keys_insert tracks.distinct key value, fun other => ?_, ?_, ?_⟩
  · rw [Dict.get?_insert, tracks.get?]
    rfl
  · rw [keys, List.pairwise_append]
    refine ⟨?_, List.pairwise_singleton _ _, ?_⟩
    · refine tracks.ordered.imp_of_mem fun {first second} inFirst inSecond earlier => ?_
      change (r.arrive key).arrived first < (r.arrive key).arrived second
      rwa [before first inFirst, before second inSecond]
    · intro other member last isLast
      obtain rfl := List.mem_singleton.mp isLast
      change (r.arrive last).arrived other < (r.arrive last).arrived last
      rw [before other member, now]
      exact tracks.recent other member
  · intro other member
    change (r.arrive key).arrived other < r.clock + 1
    rw [keys, List.mem_append, List.mem_singleton] at member
    rcases member with there | rfl
    · rw [before other there]
      exact Nat.lt_succ_of_lt (tracks.recent other there)
    · rw [now]
      exact Nat.lt_succ_self _

theorem erase (tracks : Tracks r m) (key : String) : Tracks (r.put key none) (m.erase key) := by
  have keys : (m.erase key).keys.Sublist m.keys := by
    rw [Dict.keys_erase]
    exact List.erase_sublist
  refine ⟨Dict.nodup_keys_erase tracks.distinct key, fun other => ?_, tracks.ordered.sublist keys,
    fun other member => tracks.recent other (keys.subset member)⟩
  by_cases same : other = key
  · subst same
    rw [Dict.get?_erase_self tracks.distinct]
    simp [put]
  · rw [Dict.get?_erase_of_ne m same, tracks.get?]
    simp [put, same]

theorem detach (tracks : Tracks r m) (key : String) :
    Tracks (r.effect (.detach key)) (m.detach key).2 := by
  simp only [effect, Dict.detach]
  rw [← tracks.get?]
  split
  · next fields stored =>
      have there : key ∈ m.keys := tracks.mem_keys_iff.mpr (by rw [← tracks.get?, stored]; rfl)
      rw [Dict.hasChild, stored]
      exact tracks.insert_of_mem there _
  · next other =>
      have none : m.hasChild key = false := by
        rw [Dict.hasChild]
        split
        · next fields stored => exact absurd stored (other fields)
        · rfl
      rw [none]
      exact tracks

theorem replaceAll (tracks : Tracks r m) (f : String → Node → Node) :
    Tracks (r.effect (.replaceAll f)) (m.mapIdx fun _ => f) := by
  have keys : (m.mapIdx fun _ => f).keys = m.keys := Dict.keys_mapIdx _ m
  refine ⟨keys ▸ tracks.distinct, fun other => ?_, keys ▸ tracks.ordered, keys ▸ tracks.recent⟩
  rw [Dict.get?_mapIdx, tracks.get?]
  rfl

/-- One step keeps track. -/
theorem step (tracks : Tracks r m) (operation : Operation) :
    Tracks (r.step operation) (operation.run m).2 := by
  cases operation with
  | insert key value =>
      by_cases there : key ∈ m.keys
      · rw [Replay.step, effect, tracks.arrive_of_mem there]
        exact (tracks.insert_of_mem there value).tick
      · exact tracks.insert_of_notMem there value
  | remove key => exact (tracks.erase key).tick
  | detach key => exact (tracks.detach key).tick
  | overwrite key value =>
      rw [Replay.step, effect, Operation.run]
      by_cases there : key ∈ m.keys
      · rw [if_pos (tracks.mem_keys_iff.mp there),
          if_pos ((Dict.contains_iff_mem_keys m key).mpr there)]
        exact (tracks.insert_of_mem there value).tick
      · rw [if_neg fun stored => there (tracks.mem_keys_iff.mpr stored),
          if_neg fun stored => there ((Dict.contains_iff_mem_keys m key).mp stored)]
        exact tracks.tick
  | replaceAll f => exact (tracks.replaceAll f).tick

theorem lists (tracks : Tracks r m) : r.Lists m.keys :=
  ⟨fun _ => tracks.mem_keys_iff, tracks.ordered⟩

theorem answers (tracks : Tracks r m) (operation : Operation) :
    r.Answers operation (operation.run m).1 := by
  cases operation with
  | insert key value => exact congrArg Reply.previous (tracks.get? key)
  | remove key => exact congrArg Reply.previous (tracks.get? key)
  | detach key =>
      refine congrArg Reply.contents ?_
      rw [← tracks.get?, Dict.detach, Dict.child]
      cases m.get? key with
      | none => rfl
      | some value => cases value <;> rfl
  | overwrite key value => exact congrArg Reply.previous (tracks.get? key)
  | replaceAll f =>
      refine ⟨m.keys, m.entries.map (·.2), tracks.lists, ?_, rfl⟩
      rw [Dict.keys, List.map_map, List.map_map]
      refine List.map_congr_left fun entry member => ?_
      have stored := Dict.get?_of_mem tracks.distinct member
      exact (tracks.get? entry.1 ▸ stored).symm

end Tracks

end Replay

end ManifestMigration
