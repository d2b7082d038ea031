import ManifestMigration.Document.Node
import ManifestMigration.Number.Layout

/-! # Documents as JSON

Compact JSON: no blanks, fields in the order of their mapping, and escapes only where the format
asks for them. Numbers that are not finite are written as null.
-/

namespace ManifestMigration.Json

/-- Floats have a point or an exponent; the exponent comes in below 1e-5 and from 1e16 on and shows
    its sign. -/
def floatLayout : Binary64.Layout := ⟨fun e => -5 ≤ e && e ≤ 15, true, true⟩

def escapeChar (c : Char) : List Char :=
  if c = '"' then ['\\', '"']
  else if c = '\\' then ['\\', '\\']
  else if c.toNat = 0x08 then ['\\', 'b']
  else if c.toNat = 0x0C then ['\\', 'f']
  else if c = '\n' then ['\\', 'n']
  else if c = '\r' then ['\\', 'r']
  else if c = '\t' then ['\\', 't']
  else if c.toNat < 0x20 then
    ['\\', 'u', '0', '0', Nat.digitChar (c.toNat / 16), Nat.digitChar (c.toNat % 16)]
  else [c]

def printString (text : String) : List Char :=
  '"' :: (text.toList.flatMap escapeChar ++ ['"'])

def printScalar : Scalar → List Char
  | .string text => printString text
  | .integer value =>
    (if value.toInt < 0 then ['-'] else []) ++ Nat.toDigits 10 value.toInt.natAbs
  | .unsigned value => Nat.toDigits 10 value.toNat
  | .float value =>
    if value.isFinite then (value.layOut floatLayout).toList else ['n', 'u', 'l', 'l']
  | .bool true => ['t', 'r', 'u', 'e']
  | .bool false => ['f', 'a', 'l', 's', 'e']
  | .null => ['n', 'u', 'l', 'l']

mutual

def printNode : Node → List Char
  | .scalar value => printScalar value
  | .sequence items => '[' :: (printItems items ++ [']'])
  | .mapping ⟨entries⟩ => '{' :: (printFields entries ++ ['}'])

def printItems : List Node → List Char
  | [] => []
  | [item] => printNode item
  | item :: rest => printNode item ++ ',' :: printItems rest

def printFields : List (String × Node) → List Char
  | [] => []
  | [(key, value)] => printString key ++ ':' :: printNode value
  | (key, value) :: rest => printString key ++ ':' :: (printNode value ++ ',' :: printFields rest)

end

def print (node : Node) : String := String.ofList (printNode node)

end ManifestMigration.Json
