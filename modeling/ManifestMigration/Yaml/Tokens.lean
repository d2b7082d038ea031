import ManifestMigration.Yaml.Token.Scalar
import ManifestMigration.Yaml.Token.Tag

/-! # The tokens of a YAML text

A text is read token by token. The layout of block collections comes from the columns: content
further to the right opens a collection, and content further to the left closes one. A token that
may turn out to be a simple key is remembered on its flow level until a colon makes it one or its
line ends.
-/

namespace ManifestMigration.Yaml

/-- A token that a colon on the same line would make a key. -/
structure PossibleKey where
  /-- The number of the token, counted from the start of the text. -/
  number : Nat
  /-- Where the token starts. -/
  mark : Mark
  /-- Without a colon there is an error, because only a key may stand here. -/
  required : Bool

/-- The reading of a text into tokens. -/
structure Reader where
  cursor : Cursor
  /-- The tokens read so far, newest first. -/
  tokens : List Token
  /-- How many tokens there are. -/
  count : Nat
  /-- The possible key of the current flow level. -/
  key : Option PossibleKey
  /-- The possible keys of the flow levels around it, innermost first. -/
  outerKeys : List (Option PossibleKey)
  /-- The column of the current block collection, or -1 outside of all. -/
  indent : Int
  /-- The columns of the block collections around it, innermost first. -/
  outerIndents : List Int
  /-- A simple key may start here. -/
  keyAllowed : Bool

namespace Reader

def ofText (text : List Char) : Reader :=
  ⟨.ofText text, [], 0, none, [], -1, [], true⟩

def inFlow (r : Reader) : Bool := !r.outerKeys.isEmpty

def push (r : Reader) (kind : TokenKind) (first last : Mark) : Reader :=
  { r with tokens := ⟨kind, first, last⟩ :: r.tokens, count := r.count + 1 }

def insertAt (r : Reader) (number : Nat) (kind : TokenKind) (mark : Mark) : Reader :=
  { r with
    tokens := r.tokens.insertIdx (r.count - number) ⟨kind, mark, mark⟩, count := r.count + 1 }

def pushIndicator (r : Reader) (kind : TokenKind) (width : Nat) : Reader :=
  let after := r.cursor.skip width
  { r.push kind r.cursor.mark after.mark with cursor := after }

/-! ## Possible keys -/

/-- The key can no longer be one: it is on an earlier line, or too far back. -/
def isStale (here : Mark) (key : PossibleKey) : Bool :=
  key.mark.line < here.line || key.mark.index + 1024 < here.index

/-- Forget a key that can no longer be one. If it had to be one, there is an error. -/
def refreshKey (here : Mark) : Option PossibleKey → Option (Option PossibleKey)
  | none => some none
  | some key =>
    if isStale here key then if key.required then none else some none else some (some key)

/-- Forget all keys that can no longer be ones. -/
def refreshKeys (r : Reader) : Option Reader := do
  let outerKeys ← r.outerKeys.mapM (refreshKey r.cursor.mark)
  let key ← refreshKey r.cursor.mark r.key
  return { r with key, outerKeys }

/-- Give up the possible key of this level. If it had to be one, there is an error. -/
def dropKey (r : Reader) : Option Reader :=
  match r.key with
  | some key => if key.required then none else some { r with key := none }
  | none => some r

/-- Remember that the next token may be a key. -/
def saveKey (r : Reader) : Option Reader :=
  if r.keyAllowed then
    r.dropKey.map fun r =>
      { r with key := some ⟨r.count, r.cursor.mark, !r.inFlow && r.indent == r.cursor.column⟩ }
  else some r

/-! ## Indentation -/

/-- Open a block collection at a column, unless there is one already. Its token goes before the one
    with a number, or at the end. -/
def openBlock (r : Reader) (column : Nat) (kind : TokenKind) (before : Option Nat) (mark : Mark) :
    Reader :=
  if r.inFlow || (column : Int) ≤ r.indent then r
  else
    let r := { r with indent := column, outerIndents := r.indent :: r.outerIndents }
    match before with
    | some number => r.insertAt number kind mark
    | none => r.push kind mark mark

/-- Close the block collections to the right of a column. -/
def closeBlocks (column : Int) : List Int → Reader → Reader
  | [], r => r
  | outer :: rest, r =>
    if column < r.indent then
      closeBlocks column rest
        { r.push .blockEnd r.cursor.mark r.cursor.mark with indent := outer, outerIndents := rest }
    else r

/-- Close the block collections to the right of a column; in a flow collection there is nothing
    to close. -/
def unindent (r : Reader) (column : Int) : Reader :=
  if r.inFlow then r else closeBlocks column r.outerIndents r

/-! ## Between tokens -/

/-- Go over blanks, comments and line breaks, at most so many lines. A line break allows a key
    again. Tabs count as blanks only where no key may start. -/
def skipToToken : Nat → Reader → Reader
  | 0, r => r
  | fuel + 1, r =>
    let c := r.cursor
    let c := if c.column = 0 && c.rest.head?.any isByteOrderMark then c.skip 1 else c
    let tabs := r.inFlow || !r.keyAllowed
    let c := c.skipWhile fun ch => ch == ' ' || (tabs && ch == '\t')
    let c := if c.sees '#' then c.skipToLineEnd else c
    match c.lineBreak? with
    | some (_, c) =>
      skipToToken fuel { r with cursor := c, keyAllowed := r.keyAllowed || !r.inFlow }
    | none => { r with cursor := c }

/-! ## Tokens -/

def readEnd (r : Reader) : Option Reader :=
  let m := r.cursor.mark
  let mark := if m.column = 0 then m else { m with line := m.line + 1, column := 0 }
  let r := ({ r with cursor := { r.cursor with mark := mark } }.unindent (-1))
  r.dropKey.map fun r => { r with keyAllowed := false }.push .streamEnd mark mark

def readDirective (r : Reader) : Option Reader := do
  let r ← (r.unindent (-1)).dropKey
  let (kind, last, after) ← Token.readDirective (r.cursor.skip 1)
  return { r.push kind r.cursor.mark last with keyAllowed := false, cursor := after }

def readDocumentMarker (r : Reader) (kind : TokenKind) : Option Reader :=
  (r.unindent (-1)).dropKey.map fun r => { r with keyAllowed := false }.pushIndicator kind 3

def openFlow (r : Reader) (kind : TokenKind) : Option Reader :=
  r.saveKey.map fun r =>
    { r with key := none, outerKeys := r.key :: r.outerKeys, keyAllowed := true }.pushIndicator
      kind 1

def closeFlow (r : Reader) (kind : TokenKind) : Option Reader :=
  r.dropKey.map fun r =>
    let r := match r.outerKeys with
      | key :: outerKeys => { r with key, outerKeys }
      | [] => r
    { r with keyAllowed := false }.pushIndicator kind 1

def readFlowEntry (r : Reader) : Option Reader :=
  r.dropKey.map fun r => { r with keyAllowed := true }.pushIndicator .flowEntry 1

def readBlockEntry (r : Reader) : Option Reader :=
  if !r.inFlow && !r.keyAllowed then none
  else
    let r := r.openBlock r.cursor.column .blockSequenceStart none r.cursor.mark
    r.dropKey.map fun r => { r with keyAllowed := true }.pushIndicator .blockEntry 1

def readKey (r : Reader) : Option Reader :=
  if !r.inFlow && !r.keyAllowed then none
  else
    let r := r.openBlock r.cursor.column .blockMappingStart none r.cursor.mark
    r.dropKey.map fun r => { r with keyAllowed := !r.inFlow }.pushIndicator .key 1

/-- The colon of a value. It makes the possible key of this level a key. -/
def readValue (r : Reader) : Option Reader :=
  match r.key with
  | some key =>
    let r := r.insertAt key.number .key key.mark
    let r := r.openBlock key.mark.column .blockMappingStart (some key.number) key.mark
    some ({ r with key := none, keyAllowed := false }.pushIndicator .value 1)
  | none =>
    if !r.inFlow && !r.keyAllowed then none
    else
      let r := r.openBlock r.cursor.column .blockMappingStart none r.cursor.mark
      some ({ r with keyAllowed := !r.inFlow }.pushIndicator .value 1)

def readAnchor (r : Reader) (kind : List Char → TokenKind) : Option Reader := do
  let r ← r.saveKey
  let (name, after) ← Token.readAnchor (r.cursor.skip 1)
  return { r.push (kind name) r.cursor.mark after.mark with keyAllowed := false, cursor := after }

def readTag (r : Reader) : Option Reader := do
  let r ← r.saveKey
  let (kind, after) ← Token.readTag r.inFlow r.cursor
  return { r.push kind r.cursor.mark after.mark with keyAllowed := false, cursor := after }

def readBlockScalar (r : Reader) (style : ScalarStyle) : Option Reader := do
  let r ← r.dropKey
  let (text, last, after) ←
    Token.readBlock (style == .folded) r.indent (r.cursor.skip 1)
  return { r.push (.scalar style text) r.cursor.mark last with
    keyAllowed := true, cursor := after }

def readQuotedScalar (r : Reader) (style : ScalarStyle) : Option Reader := do
  let r ← r.saveKey
  let (text, after) ← Token.readQuoted (style == .doubleQuoted) (r.cursor.skip 1)
  return { r.push (.scalar style text) r.cursor.mark after.mark with
    keyAllowed := false, cursor := after }

/-- A plain scalar. If it ends before a line break, a key may follow. -/
def readPlainScalar (r : Reader) : Option Reader := do
  let r ← r.saveKey
  let p ← Token.readPlain r.inFlow (r.indent + 1).toNat r.cursor
  return { r.push (.scalar .plain p.read.reverse) r.cursor.mark p.last with
    keyAllowed := p.broken, cursor := p.cursor }

/-- The characters that cannot start a plain scalar by themselves. -/
def isIndicator (ch : Char) : Bool :=
  ch ∈ ['-', '?', ':', ',', '[', ']', '{', '}', '#', '&', '*', '!', '|', '>', '\'', '"', '%', '@',
    '`']

/-- Read the token that starts with a character which does not start a document marker. -/
def readContent (r : Reader) (ch : Char) (rest : List Char) : Option Reader :=
  let blankNext := startsBlank rest
  if ch = '[' then r.openFlow .flowSequenceStart
  else if ch = '{' then r.openFlow .flowMappingStart
  else if ch = ']' then r.closeFlow .flowSequenceEnd
  else if ch = '}' then r.closeFlow .flowMappingEnd
  else if ch = ',' then r.readFlowEntry
  else if ch = '-' && blankNext then r.readBlockEntry
  else if ch = '?' && (r.inFlow || blankNext) then r.readKey
  else if ch = ':' && (r.inFlow || blankNext) then r.readValue
  else if ch = '*' then r.readAnchor .alias
  else if ch = '&' then r.readAnchor .anchor
  else if ch = '!' then r.readTag
  else if ch = '|' && !r.inFlow then r.readBlockScalar .literal
  else if ch = '>' && !r.inFlow then r.readBlockScalar .folded
  else if ch = '\'' then r.readQuotedScalar .singleQuoted
  else if ch = '"' then r.readQuotedScalar .doubleQuoted
  else if !(isBlank ch || isIndicator ch) || ch = '-' || ch = '?' || ch = ':' then
    r.readPlainScalar
  else none

/-- Read the next token, or a few that belong together. -/
def step (r : Reader) : Option Reader :=
  match (skipToToken (r.cursor.rest.length + 1) r).refreshKeys with
  | none => none
  | some r =>
    let r := r.unindent r.cursor.column
    match r.cursor.rest with
    | [] => r.readEnd
    | ch :: rest =>
      if r.cursor.column = 0 && ch = '%' then r.readDirective
      else if r.cursor.atDocumentMarker then
        r.readDocumentMarker (if ch = '-' then .documentStart else .documentEnd)
      else r.readContent ch rest

/-- The tokens that no possible key can still come before, oldest first. -/
def settled (r : Reader) : List Token :=
  let numbers := (r.key :: r.outerKeys).filterMap (·.map (·.number))
  let settledCount := numbers.foldl min r.count
  (r.tokens.drop (r.count - settledCount)).reverse

/-- Read tokens to the end of the text or to an error, at most so many. After an error the tokens
    remain that were certain before it. -/
def readAll : Nat → Reader → List Token
  | 0, r => r.settled
  | fuel + 1, r =>
    match r.step.bind refreshKeys with
    | none => r.settled
    | some r' =>
      match r'.tokens with
      | ⟨.streamEnd, _, _⟩ :: _ => r'.tokens.reverse
      | _ => readAll fuel r'

end Reader

/-- The tokens of a text. They end with the end of the text; after an error they just stop. A text
    with a character that no YAML text may hold has no tokens. -/
def tokens (text : List Char) : List Token :=
  if text.all isAllowed then Reader.readAll (text.length + 2) (.ofText text) else []

end ManifestMigration.Yaml
