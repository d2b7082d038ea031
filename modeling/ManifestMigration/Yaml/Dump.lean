import ManifestMigration.Yaml.Style

/-! # Writing YAML

Documents are written in block style with two columns of indentation. Nothing is wrapped, and empty
collections stand in brackets. A sequence that is the value of a key is not indented further than
the key.
-/

namespace ManifestMigration.Yaml

def spaces (n : Nat) : List Char := List.replicate n ' '

/-! ## Strings -/

/-- Upper case hexadecimal digits, at least so many. -/
def hexDigits (width n : Nat) : List Char :=
  let digits := (Nat.toDigits 16 n).map Char.toUpper
  List.replicate (width - digits.length) '0' ++ digits

/-- The letter that escapes a character, if there is one. -/
def escapeLetter? (c : Char) : Option Char :=
  match c.toNat with
  | 0x00 => some '0'
  | 0x07 => some 'a'
  | 0x08 => some 'b'
  | 0x09 => some 't'
  | 0x0A => some 'n'
  | 0x0B => some 'v'
  | 0x0C => some 'f'
  | 0x0D => some 'r'
  | 0x1B => some 'e'
  | 0x22 => some '"'
  | 0x5C => some '\\'
  | 0x85 => some 'N'
  | 0xA0 => some '_'
  | 0x2028 => some 'L'
  | 0x2029 => some 'P'
  | _ => none

def escapeDoubleQuoted (c : Char) : List Char :=
  if isSpecial c || isBreak c || c == '"' || c == '\\' then
    match escapeLetter? c with
    | some letter => ['\\', letter]
    | none =>
      if c.toNat ≤ 0xFF then '\\' :: 'x' :: hexDigits 2 c.toNat
      else if c.toNat ≤ 0xFFFF then '\\' :: 'u' :: hexDigits 4 c.toNat
      else '\\' :: 'U' :: hexDigits 8 c.toNat
  else [c]

def doubleQuoted (text : List Char) : List Char :=
  '"' :: (text.flatMap escapeDoubleQuoted ++ ['"'])

/-- Characters between single quotes. What follows a line break starts on the column of the
    indentation; so does the closing quote. -/
def singleQuotedChars (indent : Nat) (afterBreak : Bool) : List Char → List Char
  | [] => if afterBreak then spaces indent else []
  | c :: rest =>
    if isBreak c then c :: singleQuotedChars indent true rest
    else
      (if afterBreak then spaces indent else []) ++
        ((if c = '\'' then ['\'', '\''] else [c]) ++ singleQuotedChars indent false rest)

def singleQuoted (indent : Nat) (text : List Char) : List Char :=
  '\'' :: (singleQuotedChars indent false text ++ ['\''])

/-- Lines of a literal block, indented unless they are empty. -/
def literalChars (indent : Nat) (afterBreak : Bool) : List Char → List Char
  | [] => []
  | c :: rest =>
    if isBreak c then c :: literalChars indent true rest
    else (if afterBreak then spaces indent else []) ++ c :: literalChars indent false rest

/-- How the line breaks at the end of a literal block are to be read. -/
def chompingIndicator (text : List Char) : List Char :=
  match text.reverse with
  | [] => ['-']
  | last :: before =>
    if !isBreak last then ['-']
    else
      match before with
      | [] => ['+']
      | c :: _ => if isBreak c then ['+'] else []

/-- A literal block. Its indentation is given where it could not be seen. -/
def literal (indent : Nat) (text : List Char) : List Char :=
  let hint := if text.head?.any (fun c => c == ' ' || isBreak c) then ['2'] else []
  '|' :: (hint ++ (chompingIndicator text ++ '\n' :: literalChars indent true text))

/-- A string whose further lines start on a column. -/
def writeString (indent : Nat) (text : String) : List Char :=
  match styleOf text with
  | .literal => literal indent text.toList
  | .singleQuoted => singleQuoted indent text.toList
  | .doubleQuoted => doubleQuoted text.toList
  | _ => text.toList

/-! ## Leaves -/

/-- Floats have a point or an exponent; the exponent comes in below 1e-5 and from 1e16 on. -/
def floatLayout : Binary64.Layout := ⟨fun e => -5 ≤ e && e ≤ 15, true, false⟩

def floatText (x : Binary64) : String :=
  if x.isNaN then ".nan"
  else if x.isFinite then x.layOut floatLayout
  else if x.isNegative then "-.inf" else ".inf"

def writeScalar (indent : Nat) : Scalar → List Char
  | .string text => writeString indent text
  | .integer value => (toString value.toInt).toList
  | .unsigned value => (toString value.toNat).toList
  | .float value => (floatText value).toList
  | .bool value => (if value then "true" else "false").toList
  | .null => "null".toList

/-! ## Trees -/

def endLine (text : List Char) : List Char :=
  if text.getLast?.any isBreak then text else text ++ ['\n']

/-- Go on with a new line at a column. -/
def onNewLine (indent : Nat) (before after : List Char) : List Char :=
  endLine before ++ (spaces indent ++ after)

mutual

def writeInline (indent : Nat) : Node → List Char
  | .scalar value => writeScalar indent value
  | .sequence [] => ['[', ']']
  | .sequence items => writeItems indent items
  | .mapping ⟨[]⟩ => ['{', '}']
  | .mapping ⟨entries⟩ => writeEntries indent entries

/-- A node behind the colon of a key that starts at a column. -/
def writeValue (indent : Nat) : Node → List Char
  | .scalar value => ' ' :: writeScalar (indent + 2) value
  | .sequence [] => [' ', '[', ']']
  | .sequence items => '\n' :: (spaces indent ++ writeItems indent items)
  | .mapping ⟨[]⟩ => [' ', '{', '}']
  | .mapping ⟨entries⟩ => '\n' :: (spaces (indent + 2) ++ writeEntries (indent + 2) entries)

def writeEntries (indent : Nat) : List (String × Node) → List Char
  | [] => []
  | (key, value) :: rest =>
    let written := writeString (indent + 2) key
    let entry :=
      if isSimpleKey key then written ++ ':' :: writeValue indent value
      else
        onNewLine indent ('?' :: ' ' :: written) (':' :: ' ' :: writeInline (indent + 2) value)
    if rest.isEmpty then entry else onNewLine indent entry (writeEntries indent rest)

def writeItems (indent : Nat) : List Node → List Char
  | [] => []
  | item :: rest =>
    let written := '-' :: ' ' :: writeInline (indent + 2) item
    if rest.isEmpty then written else onNewLine indent written (writeItems indent rest)

end

def writeDocument : Node → List Char
  | .scalar value => endLine (writeScalar 2 value)
  | node => endLine (writeInline 0 node)

/-- Documents behind the marker that separates them from the one before. A null document is
    empty. -/
def writeDocuments : List Node → List Char
  | [] => []
  | document :: rest =>
    (if document.isNull then [] else writeDocument document) ++
      (if rest.isEmpty then [] else "---\n".toList ++ writeDocuments rest)

def dump (documents : List Node) : String := String.ofList (writeDocuments documents)

end ManifestMigration.Yaml
