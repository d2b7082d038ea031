import ManifestMigration.Text.Digit
import ManifestMigration.Yaml.Token

/-! # Tags, anchors and directives

The tokens that are not content: directives before a document, and the anchors and tags of nodes.
-/

namespace ManifestMigration.Yaml.Token

/-- Read a letter, or something that counts as one. -/
def readName (c : Cursor) : List Char × Cursor := c.takeWhile isNameChar

def readAnchor (c : Cursor) : Option (List Char × Cursor) :=
  let (name, c) := readName c
  let ends := match c.rest with
    | ch :: _ => startsBlank [ch] || ch ∈ ['?', ':', ',', ']', '}', '%', '@', '`']
    | [] => true
  if name.isEmpty || !ends then none else some (name, c)

/-- Read a tag handle: an exclamation mark, letters, and perhaps another exclamation mark. -/
def readHandle (c : Cursor) : Option (List Char × Cursor) :=
  if c.sees '!' then
    let (name, c) := readName (c.skip 1)
    if c.sees '!' then some ('!' :: (name ++ ['!']), c.skip 1) else some ('!' :: name, c)
  else none

/-- The number of bytes that a first byte announces in UTF-8. -/
def widthOfLead? (lead : Nat) : Option Nat :=
  if lead < 0x80 then some 1
  else if lead < 0xC0 then none
  else if lead < 0xE0 then some 2
  else if lead < 0xF0 then some 3
  else if lead < 0xF8 then some 4
  else none

/-- Read one byte that is written as a percent sign and two hexadecimal digits. -/
def readEscapedByte (c : Cursor) : Option (Nat × Cursor) :=
  match c.rest with
  | '%' :: high :: low :: _ =>
    match Text.digitOf? 16 high, Text.digitOf? 16 low with
    | some h, some l => some (16 * h + l, c.skip 3)
    | _, _ => none
  | _ => none

def readContinuation : Nat → Nat → Cursor → Option (Nat × Cursor)
  | 0, bits, c => some (bits, c)
  | n + 1, bits, c =>
    match readEscapedByte c with
    | some (byte, c') =>
      if 0x80 ≤ byte ∧ byte < 0xC0 then readContinuation n (64 * bits + (byte - 0x80)) c' else none
    | none => none

def replacementChar : Char := Char.ofNat 0xFFFD

/-- Read a character that is written as the bytes of its UTF-8 form. -/
def readEscapedChar (c : Cursor) : Option (Char × Cursor) :=
  match readEscapedByte c with
  | none => none
  | some (lead, c) =>
    match widthOfLead? lead with
    | none => none
    | some width =>
      let bits := match width with
        | 1 => lead
        | 2 => lead - 0xC0
        | 3 => lead - 0xE0
        | _ => lead - 0xF0
      match readContinuation (width - 1) bits c with
      | none => none
      | some (code, c) =>
        let least := match width with
          | 1 => 0
          | 2 => 0x80
          | 3 => 0x800
          | _ => 0x10000
        if least ≤ code ∧ code.isValidChar then some (Char.ofNat code, c)
        else some (replacementChar, c)

/-- The character may stand in a tag; the flow indicators only in directives and between angle
    brackets. -/
def isTagChar (verbatim : Bool) (ch : Char) : Bool :=
  isNameChar ch || ch ∈ [';', '/', '?', ':', '@', '&', '=', '+', '$', '.', '%', '!', '~', '*',
    '\'', '(', ')'] || (verbatim && ch ∈ [',', '[', ']'])

/-- Read the characters of a tag, at most so many. -/
def readTagChars (verbatim : Bool) : Nat → Cursor → Option (List Char × Cursor)
  | 0, c => some ([], c)
  | fuel + 1, c =>
    match c.rest with
    | ch :: _ =>
      if ch = '%' then
        match readEscapedChar c with
        | some (decoded, c') =>
          (readTagChars verbatim fuel c').map fun (more, c'') => (decoded :: more, c'')
        | none => none
      else if isTagChar verbatim ch then
        (readTagChars verbatim fuel (c.skip 1)).map fun (more, c'') => (ch :: more, c'')
      else some ([], c)
    | [] => some ([], c)

/-- Read a tag text behind what has been read of it. Nothing at all is an error. -/
def readTagText (verbatim : Bool) (head : List Char) (c : Cursor) :
    Option (List Char × Cursor) :=
  match readTagChars verbatim c.rest.length c with
  | some (chars, c') =>
    if head.isEmpty && chars.isEmpty then none else some (head.drop 1 ++ chars, c')
  | none => none

def readTagParts (c : Cursor) : Option (List Char × List Char × Cursor) :=
  match c.rest with
  | '!' :: '<' :: _ =>
    match readTagText true [] (c.skip 2) with
    | some (suffix, c') => if c'.sees '>' then some ([], suffix, c'.skip 1) else none
    | none => none
  | _ =>
    match readHandle c with
    | none => none
    | some (handle, c) =>
      if 1 < handle.length ∧ handle.getLast? = some '!' then
        (readTagText false [] c).map fun (suffix, c') => (handle, suffix, c')
      else
        (readTagText false handle c).map fun (suffix, c') =>
          if suffix.isEmpty then ([], ['!'], c') else (['!'], suffix, c')

/-- Read a tag. A blank or the end must follow it, or, inside a flow collection, a comma. -/
def readTag (inFlow : Bool) (c : Cursor) : Option (TokenKind × Cursor) :=
  match readTagParts c with
  | some (handle, suffix, c') =>
    if c'.seesBlankOrEnd || (inFlow && c'.sees ',') then some (.tag handle suffix, c') else none
  | none => none

def readVersionNumber (c : Cursor) : Option (Nat × Cursor) :=
  let (digits, c') := c.takeWhile Char.isDigit
  if digits.isEmpty || 9 < digits.length then none
  else some (Text.decimalValue digits, c')

def readVersion (c : Cursor) : Option (TokenKind × Cursor) :=
  match readVersionNumber (c.skipWhile isBlank) with
  | none => none
  | some (major, c) =>
    if c.sees '.' then
      (readVersionNumber (c.skip 1)).map fun (minor, c') => (.version major minor, c')
    else none

/-- Read the handle and the text of a tag directive. -/
def readTagDirective (c : Cursor) : Option (TokenKind × Cursor) :=
  match readHandle (c.skipWhile isBlank) with
  | none => none
  | some (handle, c) =>
    if handle ≠ ['!'] ∧ handle.getLast? ≠ some '!' then none
    else if !c.seesBlank then none
    else
      match readTagText true [] (c.skipWhile isBlank) with
      | some (stem, c') => if c'.seesBlankOrEnd then some (.tagDirective handle stem, c') else none
      | none => none

/-- Read a directive behind its percent sign, with the rest of its line. The place where the
    directive itself ends comes along. -/
def readDirective (c : Cursor) : Option (TokenKind × Mark × Cursor) :=
  let (name, c) := readName c
  if name.isEmpty || !c.seesBlankOrEnd then none
  else
    let content :=
      if name = "YAML".toList then readVersion c
      else if name = "TAG".toList then readTagDirective c
      else none
    match content with
    | none => none
    | some (kind, c) =>
      let after := c.skipWhile isBlank
      let after := if after.sees '#' then after.skipToLineEnd else after
      if after.seesLineEnd then some (kind, c.mark, after.skipBreak) else none

end ManifestMigration.Yaml.Token
