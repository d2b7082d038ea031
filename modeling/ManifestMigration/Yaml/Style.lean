import ManifestMigration.Yaml.Scalar
import ManifestMigration.Yaml.Source
import ManifestMigration.Yaml.Token

/-! # Styles for strings

How a string is written in YAML. A string of several lines is wanted as a literal block, a string
that would read back as something else in single quotes, and any other plain. A style that cannot
hold the string gives way to the next safer one; double quotes hold every string.
-/

namespace ManifestMigration.Yaml

/-- The characters that only double quotes can hold. -/
def isSpecial (c : Char) : Bool :=
  let n := c.toNat
  !(n == 0xA || (0x20 ≤ n && n ≤ 0x7E) || (0xA0 ≤ n && n ≤ 0xD7FF) ||
    (0xE000 ≤ n && n ≤ 0xFFFD && n != 0xFEFF) || 0x10000 ≤ n)

/-- Somewhere in a text two neighbours pass a test. -/
def anyNeighbours (p : Char → Char → Bool) : List Char → Bool
  | a :: b :: rest => p a b || anyNeighbours p (b :: rest)
  | _ => false

/-- The characters that cannot start a plain string. -/
def isLeadingIndicator (c : Char) : Bool :=
  c ∈ ['#', ',', '[', ']', '{', '}', '&', '*', '!', '|', '>', '\'', '"', '%', '@', '`']

/-- The text starts with what looks like an indicator. -/
def startsLikeIndicator : List Char → Bool
  | '-' :: '-' :: '-' :: _ => true
  | '.' :: '.' :: '.' :: _ => true
  | c :: rest => isLeadingIndicator c || ((c = '-' || c = '?' || c = ':') && startsBlank rest)
  | [] => false

/-- A colon before a blank or the end, or a number sign behind a blank, stands in the text. -/
def holdsIndicator (text : List Char) : Bool :=
  text.getLast? == some ':' ||
    anyNeighbours (fun a b => (a = ':' && startsBlank [b]) || (startsBlank [a] && b = '#')) text

structure Spacing where
  hasBreak : Bool
  hasSpecial : Bool
  startsSpace : Bool
  endsSpace : Bool
  startsBreak : Bool
  endsBreak : Bool
  spaceBeforeBreak : Bool
  spaceAfterBreak : Bool

/-- Look where spaces and line breaks stand in a text. -/
def Spacing.of (text : List Char) : Spacing where
  hasBreak := text.any isBreak
  hasSpecial := text.any isSpecial
  startsSpace := text.head? == some ' '
  endsSpace := text.getLast? == some ' '
  startsBreak := text.head?.any isBreak
  endsBreak := text.getLast?.any isBreak
  spaceBeforeBreak := anyNeighbours (fun a b => a == ' ' && isBreak b) text
  spaceAfterBreak := anyNeighbours (fun a b => isBreak a && b == ' ') text

def allowsPlain (text : List Char) : Bool :=
  let s := Spacing.of text
  !(text.isEmpty || startsLikeIndicator text || holdsIndicator text || s.hasBreak || s.hasSpecial ||
    s.startsSpace || s.endsSpace || s.startsBreak || s.endsBreak)

def allowsSingleQuoted (text : List Char) : Bool :=
  let s := Spacing.of text
  !(s.spaceBeforeBreak || s.spaceAfterBreak || s.hasSpecial)

def allowsLiteral (text : List Char) : Bool :=
  let s := Spacing.of text
  !(s.endsSpace || s.spaceBeforeBreak || s.hasSpecial)

/-- As a plain scalar the text would read back as something else than a string, or as a number of
    another notation. -/
def looksLikeValue (text : String) : Bool :=
  plainValue text != .string || isZeroLed text.toList

def wantedStyle (text : String) : ScalarStyle :=
  if text.toList.any (· == '\n') then .literal
  else if looksLikeValue text then .singleQuoted
  else .plain

def styleOf (text : String) : ScalarStyle :=
  let chars := text.toList
  let safest : ScalarStyle := if allowsSingleQuoted chars then .singleQuoted else .doubleQuoted
  match wantedStyle text with
  | .literal => if allowsLiteral chars then .literal else .doubleQuoted
  | .plain => if allowsPlain chars then .plain else safest
  | _ => safest

/-- A key can be written before its colon on one line. -/
def isSimpleKey (key : String) : Bool :=
  !key.toList.any isBreak && key.utf8ByteSize ≤ 128

end ManifestMigration.Yaml
