import ManifestMigration.CommandLine.Arguments
import ManifestMigration.Json.Pretty

/-! # Listing the rules

The rules in the order in which they are applied, as a table for people or as JSON.
-/

namespace ManifestMigration.CommandLine

/-- A text filled up with spaces to a width. -/
def padRight (width : Nat) (text : String) : String :=
  text ++ String.ofList (List.replicate (width - text.length) ' ')

def ruleRow (number id description : String) : String :=
  "  " ++ padRight 3 number ++ " " ++ padRight 42 id ++ " " ++ description ++ "\n"

def ruleTable (rules : List Rule) : String :=
  "Migration rules (applied to every mapping, in this order):\n\n" ++
    ruleRow "#" "ID" "DESCRIPTION" ++ ruleRow "-" "--" "-----------" ++
    String.join (rules.zipIdx.map fun (rule, i) =>
      ruleRow (toString (i + 1)) rule.id rule.description)

/-- A rule as a document, its keys in alphabetical order. -/
def ruleDocument (rule : Rule) (order : Nat) : Node :=
  .mapping (.ofList [
    ("description", .string rule.description),
    ("id", .string rule.id),
    ("order", .integer (Int64.ofNat order)),
    ("triggers", .sequence (rule.triggers.map .string))])

def listRules (rules : List Rule) : ListFormat → String
  | .text => ruleTable rules
  | .json =>
    Json.pretty (.sequence (rules.zipIdx.map fun (rule, i) => ruleDocument rule (i + 1))) ++ "\n"

end ManifestMigration.CommandLine
