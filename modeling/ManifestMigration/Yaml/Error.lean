import ManifestMigration.Text.Quoted
import ManifestMigration.Yaml.Source

/-! # Errors in YAML texts

A text is refused because its syntax is wrong or because a document in it holds something that a
document tree cannot hold. The message of the second kind of error names the place: the path from
the root of the document, and the line and column.
-/

namespace ManifestMigration.Yaml

/-- One edge of a path in a message. -/
inductive Segment where
  | key (text : String)
  /-- The value of a key that is not written as a scalar. -/
  | unknownKey
  | index (i : Nat)
  deriving DecidableEq, Repr

/-- A path in a message; the root is a dot. -/
def renderPath (path : List Segment) : String :=
  let step (written : String) (segment : Segment) : String :=
    let parent := if written = "." then "" else written ++ "."
    match segment with
    | .key text => parent ++ text
    | .unknownKey => parent ++ "?"
    | .index i => written ++ "[" ++ toString i ++ "]"
  path.foldl step "."

/-- What stands at a place of a document. -/
inductive Role where
  | node
  | key
  deriving DecidableEq, Repr

def Role.expected : Role → String
  | .node => "a mapping, a sequence or an untagged scalar"
  | .key => "a scalar mapping key"

inductive TaggedType where
  | boolean | integer | float | null
  deriving DecidableEq, Repr

def TaggedType.expected : TaggedType → String
  | .boolean => "a boolean"
  | .integer => "an integer"
  | .float => "a float"
  | .null => "null"

/-- Why something has no place in a document tree. -/
inductive Mismatch where
  /-- A node with a tag of its own. -/
  | tagged
  /-- An integer of more than 64 bits. -/
  | wideInteger (value : Int)
  | sequence
  | mapping
  /-- A text that does not say what its tag asks for. -/
  | unreadable (text : String) (type : TaggedType)
  deriving DecidableEq, Repr

def Mismatch.message (role : Role) : Mismatch → String
  | .tagged => "invalid type: enum, expected " ++ role.expected
  | .wideInteger value =>
    "invalid type: integer `" ++ toString value ++ "` as " ++
      (if value < 0 then "i128" else "u128") ++ ", expected " ++ role.expected
  | .sequence => "invalid type: sequence, expected " ++ role.expected
  | .mapping => "invalid type: map, expected " ++ role.expected
  | .unreadable text type =>
    "invalid value: string " ++ Text.quoted text ++ ", expected " ++ type.expected

inductive LoadError where
  | malformed
  | mismatch (cause : Mismatch) (role : Role) (path : List Segment) (mark : Mark)
  /-- An alias without an anchor before it. -/
  | unknownAnchor (mark : Mark)
  /-- Collections are nested too deeply. -/
  | tooDeep (mark : Mark)
  /-- Aliases are expanded too often. -/
  | tooManyAliases
  deriving DecidableEq, Repr

/-- A place in a message. The first place of a text goes without saying. -/
def Mark.suffix (m : Mark) : String :=
  if m.line = 0 ∧ m.column = 0 then ""
  else " at line " ++ toString (m.line + 1) ++ " column " ++ toString (m.column + 1)

/-- The message of an error. The words for an error of syntax are left to the parser. -/
def LoadError.message? : LoadError → Option String
  | .malformed => none
  | .mismatch cause role path mark =>
    let place := renderPath path
    some ((if place = "." then "" else place ++ ": ") ++ cause.message role ++ mark.suffix)
  | .unknownAnchor mark => some ("unknown anchor" ++ mark.suffix)
  | .tooDeep mark => some ("recursion limit exceeded" ++ mark.suffix)
  | .tooManyAliases => some "repetition limit exceeded"

end ManifestMigration.Yaml
