import ManifestMigration.Dict
import ManifestMigration.Number.Binary64

/-! # Document trees

A document is a tree of mappings, sequences and scalars. Mappings are insertion ordered
dictionaries, so the order of keys is part of a document. A tree is well keyed (`WellKeyed`) when
every mapping in it holds each of its keys once.
-/

namespace ManifestMigration

/-- The leaves of a document. -/
inductive Scalar where
  | string (text : String)
  | integer (value : Int64)
  /-- Integers above the largest signed one. -/
  | unsigned (value : UInt64)
  | float (value : Binary64)
  | bool (value : Bool)
  | null
  deriving DecidableEq, Repr

/-- A document, or a part of one. -/
inductive Node where
  | mapping (fields : Dict Node)
  | sequence (items : List Node)
  | scalar (value : Scalar)
  deriving Repr

/-- The contents of a mapping node. -/
abbrev Mapping := Dict Node

/-- The shapes that messages tell apart. -/
inductive Shape where
  | mapping | sequence | string | integer | float | boolean | null
  deriving DecidableEq, Repr

def Shape.name : Shape → String
  | .mapping => "mapping"
  | .sequence => "sequence"
  | .string => "string"
  | .integer => "integer"
  | .float => "float"
  | .boolean => "boolean"
  | .null => "null"

def Scalar.shape : Scalar → Shape
  | .string _ => .string
  | .integer _ => .integer
  | .unsigned _ => .integer
  | .float _ => .float
  | .bool _ => .boolean
  | .null => .null

namespace Node

instance : Inhabited Node := ⟨.scalar .null⟩

abbrev string (text : String) : Node := .scalar (.string text)

abbrev integer (value : Int64) : Node := .scalar (.integer value)

abbrev null : Node := .scalar .null

def shape : Node → Shape
  | .mapping _ => .mapping
  | .sequence _ => .sequence
  | .scalar value => value.shape

def mapping? : Node → Option Mapping
  | .mapping fields => some fields
  | _ => none

def sequence? : Node → Option (List Node)
  | .sequence items => some items
  | _ => none

def string? : Node → Option String
  | .scalar (.string text) => some text
  | _ => none

def isNull : Node → Bool
  | .scalar .null => true
  | _ => false

mutual

/-- Every mapping in the tree holds each of its keys once. -/
def WellKeyed : Node → Prop
  | .mapping ⟨entries⟩ => (entries.map (·.1)).Nodup ∧ WellKeyedEntries entries
  | .sequence items => WellKeyedItems items
  | .scalar _ => True

def WellKeyedEntries : List (String × Node) → Prop
  | [] => True
  | (_, value) :: rest => value.WellKeyed ∧ WellKeyedEntries rest

def WellKeyedItems : List Node → Prop
  | [] => True
  | item :: rest => item.WellKeyed ∧ WellKeyedItems rest

end

end Node

namespace Dict

def string? (m : Mapping) (key : String) : Option String := (m.get? key).bind Node.string?

/-- The mapping stored under a key; the empty one when there is none. -/
def child (m : Mapping) (key : String) : Mapping :=
  match m.get? key with
  | some (.mapping fields) => fields
  | _ => empty

/-- A mapping is stored under the key. -/
def hasChild (m : Mapping) (key : String) : Bool :=
  match m.get? key with
  | some (.mapping _) => true
  | _ => false

theorem child_congr {m m' : Mapping} {key : String} (same : m'.get? key = m.get? key) :
    m'.child key = m.child key := by
  rw [child, same, child]

theorem hasChild_congr {m m' : Mapping} {key : String} (same : m'.get? key = m.get? key) :
    m'.hasChild key = m.hasChild key := by
  rw [hasChild, same, hasChild]

theorem child_erase_of_ne {key other : String} (m : Mapping) (differs : other ≠ key) :
    (m.erase key).child other = m.child other :=
  child_congr (get?_erase_of_ne m differs)

theorem hasChild_erase_of_ne {key other : String} (m : Mapping) (differs : other ≠ key) :
    (m.erase key).hasChild other = m.hasChild other :=
  hasChild_congr (get?_erase_of_ne m differs)

theorem child_of_not_hasChild {m : Mapping} {key : String} (none : m.hasChild key = false) :
    m.child key = empty := by
  unfold hasChild at none
  unfold child
  split
  · next fields held =>
    rw [held] at none
    cases none
  · rfl

/-- Take the contents out of the mapping stored under a key. The key stays and holds an empty
    mapping; where no mapping is stored, nothing comes out and nothing changes. -/
def detach (m : Mapping) (key : String) : Mapping × Mapping :=
  (m.child key, if m.hasChild key then m.insert key (.mapping empty) else m)

/-- The mapping says that it is of this kind. -/
def hasKind (m : Mapping) (kind : String) : Bool := m.string? "kind" == some kind

end Dict

end ManifestMigration
