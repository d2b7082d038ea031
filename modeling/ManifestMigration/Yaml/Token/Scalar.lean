import ManifestMigration.Text.Digit
import ManifestMigration.Yaml.Token

/-! # Scalars in a text

Reading quoted, plain and block scalars. The text that comes out has its escapes resolved and its
lines folded as the style asks.
-/

namespace ManifestMigration.Yaml.Token

/-! ## Quoted scalars -/

def escapedChar? : Char → Option Char
  | '0' => some (Char.ofNat 0x00)
  | 'a' => some (Char.ofNat 0x07)
  | 'b' => some (Char.ofNat 0x08)
  | 't' | '\t' => some '\t'
  | 'n' => some '\n'
  | 'v' => some (Char.ofNat 0x0B)
  | 'f' => some (Char.ofNat 0x0C)
  | 'r' => some '\r'
  | 'e' => some (Char.ofNat 0x1B)
  | ' ' => some ' '
  | '"' => some '"'
  | '/' => some '/'
  | '\\' => some '\\'
  | 'N' => some (Char.ofNat 0x85)
  | '_' => some (Char.ofNat 0xA0)
  | 'L' => some (Char.ofNat 0x2028)
  | 'P' => some (Char.ofNat 0x2029)
  | _ => none

def escapeWidth? : Char → Option Nat
  | 'x' => some 2
  | 'u' => some 4
  | 'U' => some 8
  | _ => none

def readEscape (c : Cursor) : Option (Char × Cursor) :=
  match c.rest with
  | [] => none
  | letter :: rest =>
    match escapedChar? letter with
    | some ch => some (ch, c.skip 1)
    | none =>
      match escapeWidth? letter with
      | none => none
      | some width =>
        if (rest.take width).length < width then none
        else
          match Text.digits? 16 (rest.take width) with
          | some code =>
            if code.isValidChar then some (Char.ofNat code, c.skip (1 + width)) else none
          | none => none

/-- Read the characters of a quoted scalar up to the next blank, line break or closing quote, at
    most so many. They come before those already read, newest first. An escaped line break is gone
    over, and the flag says so. -/
def readQuotedPiece (double : Bool) :
    Nat → Cursor → List Char → Option (List Char × Cursor × Bool)
  | 0, c, read => some (read, c, false)
  | fuel + 1, c, read =>
    match c.rest with
    | [] => some (read, c, false)
    | ch :: rest =>
      if isBlank ch || isBreak ch then some (read, c, false)
      else if double then
        if ch = '"' then some (read, c, false)
        else if ch = '\\' then
          let c₁ := c.skip 1
          if c₁.seesBreak then some (read, c₁.skipBreak, true)
          else
            match readEscape c₁ with
            | some (decoded, c₂) => readQuotedPiece double fuel c₂ (decoded :: read)
            | none => none
        else readQuotedPiece double fuel (c.skip 1) (ch :: read)
      else if ch = '\'' then
        if rest.head? = some '\'' then readQuotedPiece double fuel (c.skip 2) ('\'' :: read)
        else some (read, c, false)
      else readQuotedPiece double fuel (c.skip 1) (ch :: read)

/-- Read the pieces of a quoted scalar, at most so many, up to its closing quote. -/
def readQuotedPieces (double : Bool) :
    Nat → Cursor → List Char → Option (List Char × Cursor)
  | 0, _, _ => none
  | fuel + 1, c, read =>
    if c.atDocumentMarker || c.atEnd then none
    else
      match readQuotedPiece double (c.rest.length + 1) c read with
      | none => none
      | some (read, c, escaped) =>
        if c.sees (if double then '"' else '\'') then some (read.reverse, c.skip 1)
        else
          match Gap.read 0 (c.rest.length + 1) c (if escaped then .escapedBreak else .none) with
          | none => none
          | some (gap, c) => readQuotedPieces double fuel c (gap.text.reverse ++ read)

def readQuoted (double : Bool) (c : Cursor) : Option (List Char × Cursor) :=
  readQuotedPieces double (c.rest.length + 1) c []

/-! ## Plain scalars -/

/-- The flow indicators that end a plain scalar in a flow collection. -/
def isFlowIndicator (ch : Char) : Bool := ch ∈ [',', '[', ']', '{', '}']

/-- The length of the next piece of a plain scalar. In a flow collection a colon directly before
    a flow indicator is an error. -/
def plainPieceLength (inFlow : Bool) : List Char → Option Nat
  | [] => some 0
  | ch :: rest =>
    if isBlank ch || isBreak ch then some 0
    else if ch = ':' && inFlow && rest.head?.any (fun d => isFlowIndicator d || d = '?') then none
    else if (ch = ':' && startsBlank rest) || (inFlow && isFlowIndicator ch) then some 0
    else (plainPieceLength inFlow rest).map (· + 1)

structure PlainRead where
  /-- The characters read, newest first. -/
  read : List Char
  /-- Where the last of them ends. -/
  last : Mark
  /-- Where the reading goes on. -/
  cursor : Cursor
  /-- A line break follows the last character. -/
  broken : Bool

/-- Read the pieces of a plain scalar, at most so many, behind a gap. -/
def readPlainPieces (inFlow : Bool) (indent : Nat) :
    Nat → Gap → PlainRead → Option PlainRead
  | 0, _, p => some p
  | fuel + 1, gap, p =>
    let c := p.cursor
    if c.atDocumentMarker || c.sees '#' then some p
    else
      match plainPieceLength inFlow c.rest with
      | none => none
      | some n =>
        let c₁ := c.skip n
        let p₁ : PlainRead :=
          if n = 0 then p
          else ⟨(c.rest.take n).reverse ++ (gap.text.reverse ++ p.read), c₁.mark, c₁, false⟩
        let gap₁ := if n = 0 then gap else .none
        if c₁.seesBlank || c₁.seesBreak then
          match Gap.read indent (c₁.rest.length + 1) c₁ gap₁ with
          | none => none
          | some (gap₂, c₂) =>
            let p₂ : PlainRead := { p₁ with cursor := c₂, broken := gap₂.broken }
            if !inFlow && c₂.column < indent then some p₂
            else readPlainPieces inFlow indent fuel gap₂ p₂
        else some p₁

/-- Read a plain scalar in a collection whose content starts at a column. -/
def readPlain (inFlow : Bool) (indent : Nat) (c : Cursor) : Option PlainRead :=
  readPlainPieces inFlow indent (c.rest.length + 1) .none ⟨[], c.mark, c, false⟩

/-! ## Block scalars -/

/-- What becomes of the line breaks at the end of a block scalar. -/
inductive Chomping where
  | strip | clip | keep
  deriving DecidableEq, Repr

structure BlockHeader where
  chomping : Chomping
  /-- The indentation that the header gives, from one to nine. -/
  increment : Option Nat

def readChomping (c : Cursor) : Option (Chomping × Cursor) :=
  if c.sees '+' then some (.keep, c.skip 1)
  else if c.sees '-' then some (.strip, c.skip 1)
  else none

/-- Read an indentation indicator. Zero is an error, which the outer level of the result tells. -/
def readIncrement (c : Cursor) : Option (Option Nat × Cursor) :=
  match c.rest with
  | ch :: _ =>
    if ch = '0' then none
    else if ch.isDigit then some (some (ch.toNat - '0'.toNat), c.skip 1)
    else some (none, c)
  | [] => some (none, c)

/-- Read the indicators of a block scalar, in either order. -/
def readBlockHeader (c : Cursor) : Option (BlockHeader × Cursor) :=
  match readChomping c with
  | some (chomping, c) => (readIncrement c).map fun (increment, c) => (⟨chomping, increment⟩, c)
  | none =>
    match readIncrement c with
    | none => none
    | some (none, c) => some (⟨.clip, none⟩, c)
    | some (some increment, c) =>
      match readChomping c with
      | some (chomping, c) => some (⟨chomping, some increment⟩, c)
      | none => some (⟨.clip, some increment⟩, c)

/-- The lines before the next line of content: the line breaks, the widest indentation, where the
    last break ends and where the reading goes on. -/
structure BlockBreaks where
  breaks : List Char
  widest : Nat
  last : Mark
  cursor : Cursor

/-- Go over indentation and empty lines, at most so many. Where the indentation is not known yet,
    any number of spaces is gone over. A tab in place of indentation is an error. -/
def readBlockBreaks (indent : Option Nat) : Nat → BlockBreaks → Option BlockBreaks
  | 0, b => some b
  | fuel + 1, b =>
    let inIndent (c : Cursor) : Bool := indent.all fun n => c.column < n
    let spaces := (b.cursor.rest.takeWhile (· == ' ')).length
    let width := match indent with
      | some n => min spaces (n - b.cursor.column)
      | none => spaces
    let c := b.cursor.skip width
    let b := { b with widest := max b.widest c.column, cursor := c }
    if inIndent c && c.sees '\t' then none
    else
      match c.lineBreak? with
      | some (ch, c') =>
        readBlockBreaks indent fuel
          { b with breaks := b.breaks ++ [ch], last := c'.mark, cursor := c' }
      | none => some b

structure BlockRead where
  /-- The characters read, newest first. -/
  read : List Char
  /-- The line break behind the last line of content. -/
  lineBreak : Option Char
  /-- The last line of content started with a blank. -/
  startedBlank : Bool
  /-- The lines before the next line of content. -/
  before : BlockBreaks

/-- Read the lines of a block scalar, at most so many. -/
def readBlockLines (folded : Bool) (indent : Nat) : Nat → BlockRead → Option BlockRead
  | 0, b => some b
  | fuel + 1, b =>
    let c := b.before.cursor
    if c.column = indent ∧ !c.atEnd then
      let startsBlank := c.seesBlank
      let joint :=
        if folded && b.lineBreak == some '\n' && !b.startedBlank && !startsBlank then
          if b.before.breaks.isEmpty then [' '] else []
        else b.lineBreak.toList
      let (line, c) := c.takeWhile (fun ch => !isBreak ch)
      let read := line.reverse ++ (b.before.breaks.reverse ++ (joint.reverse ++ b.read))
      let (lineBreak, c) := match c.lineBreak? with
        | some (ch, c') => (some ch, c')
        | none => (none, c)
      match readBlockBreaks (some indent) (c.rest.length + 1) ⟨[], 0, c.mark, c⟩ with
      | none => none
      | some before => readBlockLines folded indent fuel ⟨read, lineBreak, startsBlank, before⟩
    else some b

/-- Read a block scalar behind its indicator. The column of the parent's content comes from the
    indentation of the collection around it, which is one less. The result holds the text, the
    place where the scalar ends, and the cursor. -/
def readBlock (folded : Bool) (indent : Int) (c : Cursor) :
    Option (List Char × Mark × Cursor) :=
  match readBlockHeader c with
  | none => none
  | some (header, c) =>
    let c := c.skipWhile isBlank
    let c := if c.sees '#' then c.skipToLineEnd else c
    if !c.seesLineEnd then none
    else
      let c := c.skipBreak
      let given := header.increment.map fun n => (max indent 0).toNat + n
      match readBlockBreaks given (c.rest.length + 1) ⟨[], 0, c.mark, c⟩ with
      | none => none
      | some before =>
        let column := given.getD (max (max before.widest (indent + 1).toNat) 1)
        match readBlockLines folded column (before.cursor.rest.length + 1)
            ⟨[], none, false, before⟩ with
        | none => none
        | some b =>
          let tail := match header.chomping with
            | .strip => []
            | .clip => b.lineBreak.toList
            | .keep => b.lineBreak.toList ++ b.before.breaks
          some (b.read.reverse ++ tail, b.before.last, b.before.cursor)

end ManifestMigration.Yaml.Token
