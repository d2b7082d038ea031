import ManifestMigration.Json.Print

/-! # JSON on several lines

Every item and every field stands on a line of its own, indented by two spaces for each level. Empty
arrays and objects stay on one line.
-/

namespace ManifestMigration.Json

def newLine (level : Nat) : List Char := '\n' :: List.replicate (2 * level) ' '

mutual

def prettyNode (level : Nat) : Node → List Char
  | .scalar value => printScalar value
  | .sequence [] => ['[', ']']
  | .sequence (item :: rest) => '[' :: prettyItems (level + 1) (item :: rest) ++ newLine level ++ [']']
  | .mapping ⟨[]⟩ => ['{', '}']
  | .mapping ⟨field :: rest⟩ =>
    '{' :: prettyFields (level + 1) (field :: rest) ++ newLine level ++ ['}']

def prettyItems (level : Nat) : List Node → List Char
  | [] => []
  | [item] => newLine level ++ prettyNode level item
  | item :: rest => newLine level ++ prettyNode level item ++ ',' :: prettyItems level rest

def prettyFields (level : Nat) : List (String × Node) → List Char
  | [] => []
  | [(key, value)] => newLine level ++ printString key ++ ':' :: ' ' :: prettyNode level value
  | (key, value) :: rest =>
    newLine level ++ printString key ++ ':' :: ' ' :: prettyNode level value ++
      ',' :: prettyFields level rest

end

/-- A document as a text of several lines. -/
def pretty (node : Node) : String := String.ofList (prettyNode 0 node)

end ManifestMigration.Json
