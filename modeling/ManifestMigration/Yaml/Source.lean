/-! # YAML source text

The characters of a YAML text, the places in it, and a cursor that reads it from left to right. A
place counts lines, columns and all characters from zero. A carriage return with the line feed that
follows it is one line break of two characters.
-/

namespace ManifestMigration.Yaml

/-- A place in a text, counted in characters from zero. -/
structure Mark where
  index : Nat
  line : Nat
  column : Nat
  deriving DecidableEq, Repr

def Mark.start : Mark := ⟨0, 0, 0⟩

/-! ## Characters -/

/-- The mark that may stand before the first character of a line. -/
def isByteOrderMark (c : Char) : Bool := c.toNat == 0xFEFF

def isAllowed (c : Char) : Bool :=
  let n := c.toNat
  n == 0x9 || n == 0xA || n == 0xD || (0x20 ≤ n && n ≤ 0x7E) || n == 0x85 ||
    (0xA0 ≤ n && n ≤ 0xD7FF) || (0xE000 ≤ n && n ≤ 0xFFFD) || 0x10000 ≤ n

def isBreak (c : Char) : Bool :=
  c == '\n' || c == '\r' || c.toNat == 0x85 || c.toNat == 0x2028 || c.toNat == 0x2029

def isBlank (c : Char) : Bool := c == ' ' || c == '\t'

/-- A letter, a digit, a hyphen or an underscore, all of ASCII: the characters of names. -/
def isNameChar (c : Char) : Bool := c.isAlphanum || c == '-' || c == '_'

/-- The rest of a text goes on with a blank or a line break, or ends. -/
def startsBlank : List Char → Bool
  | [] => true
  | c :: _ => isBlank c || isBreak c

/-! ## The cursor -/

/-- What is still to be read, and where it starts. -/
structure Cursor where
  rest : List Char
  mark : Mark
  deriving Repr

namespace Cursor

def ofText (text : List Char) : Cursor := ⟨text, .start⟩

def column (c : Cursor) : Nat := c.mark.column

def atEnd (c : Cursor) : Bool := c.rest.isEmpty

/-- Go over some characters of the current line. -/
def skip (c : Cursor) (n : Nat) : Cursor :=
  let passed := (c.rest.take n).length
  ⟨c.rest.drop n, { c.mark with
    index := c.mark.index + passed, column := c.mark.column + passed }⟩

def sees (c : Cursor) (ch : Char) : Bool := c.rest.head? == some ch

def seesBlank (c : Cursor) : Bool := c.rest.head?.any isBlank

def seesBreak (c : Cursor) : Bool := c.rest.head?.any isBreak

def seesBlankOrEnd (c : Cursor) : Bool := startsBlank c.rest

def seesLineEnd (c : Cursor) : Bool := c.atEnd || c.seesBreak

/-- Read the characters up to the first that fails a test that line breaks fail too. -/
def takeWhile (c : Cursor) (p : Char → Bool) : List Char × Cursor :=
  let taken := c.rest.takeWhile p
  (taken, c.skip taken.length)

/-- Go over the characters up to the first that fails a test that line breaks fail too. -/
def skipWhile (c : Cursor) (p : Char → Bool) : Cursor := (c.takeWhile p).2

def skipToLineEnd (c : Cursor) : Cursor := c.skipWhile (fun ch => !isBreak ch)

/-- The place behind a line break of so many characters. -/
def newLine (c : Cursor) (rest : List Char) (width : Nat) : Cursor :=
  ⟨rest, { index := c.mark.index + width, line := c.mark.line + 1, column := 0 }⟩

/-- Read a line break. It counts as a line feed, unless it is a line or paragraph separator. -/
def lineBreak? (c : Cursor) : Option (Char × Cursor) :=
  match c.rest with
  | '\r' :: '\n' :: rest => some ('\n', c.newLine rest 2)
  | ch :: rest =>
    if isBreak ch then
      some (if ch.toNat = 0x2028 ∨ ch.toNat = 0x2029 then ch else '\n', c.newLine rest 1)
    else none
  | [] => none

def skipBreak (c : Cursor) : Cursor :=
  match c.lineBreak? with
  | some (_, c') => c'
  | none => c

/-- A line that marks the start or the end of a document comes next. -/
def atDocumentMarker (c : Cursor) : Bool :=
  c.column == 0 &&
    match c.rest with
    | '-' :: '-' :: '-' :: rest => startsBlank rest
    | '.' :: '.' :: '.' :: rest => startsBlank rest
    | _ => false

end Cursor

/-! ## Folding -/

/-- The blanks and line breaks between two pieces of a scalar. -/
structure Gap where
  /-- The blanks before the first line break. -/
  blanks : List Char
  /-- A line was broken. -/
  broken : Bool
  /-- The first line break, unless it was escaped. -/
  firstBreak : Option Char
  /-- The line breaks after it. -/
  moreBreaks : List Char

namespace Gap

/-- Nothing between the pieces. -/
def none : Gap := ⟨[], false, .none, []⟩

/-- An escaped line break between the pieces. -/
def escapedBreak : Gap := ⟨[], true, .none, []⟩

/-- What a gap contributes to a scalar. One line feed turns into a space, and a line feed before
    other line breaks into nothing. -/
def text (g : Gap) : List Char :=
  if g.broken then
    match g.firstBreak with
    | some '\n' => if g.moreBreaks.isEmpty then [' '] else g.moreBreaks
    | some ch => ch :: g.moreBreaks
    | .none => g.moreBreaks
  else g.blanks

/-- Read on in a gap, at most so many characters. A tab before the column of the indentation is an
    error. -/
def read (indent : Nat) : Nat → Cursor → Gap → Option (Gap × Cursor)
  | 0, c, g => some (g, c)
  | fuel + 1, c, g =>
    match c.lineBreak? with
    | some (ch, c') =>
      read indent fuel c' <|
        if g.broken then { g with moreBreaks := g.moreBreaks ++ [ch] }
        else { g with blanks := [], broken := true, firstBreak := some ch }
    | .none =>
      match c.rest with
      | ' ' :: _ =>
        read indent fuel (c.skip 1) <|
          if g.broken then g else { g with blanks := g.blanks ++ [' '] }
      | '\t' :: _ =>
        if g.broken && c.column < indent then .none
        else
          read indent fuel (c.skip 1) <|
            if g.broken then g else { g with blanks := g.blanks ++ ['\t'] }
      | _ => some (g, c)

end Gap

end ManifestMigration.Yaml
