import ManifestMigration.Toml.Text
import ManifestMigration.Toml.Word

/-! # TOML documents

A document is a row of lines: headers that open tables, and assignments to the keys of the table
that was opened last. Reading one gives its table, or nothing if the text is no document.
-/

namespace ManifestMigration.Toml

def isKeyChar (c : Char) : Bool := c.isAlphanum || c == '-' || c == '_'

/-- Read one part of a key: a word, or a string of one line. -/
def readSimpleKey? (text : List Char) : Option (String × List Char) :=
  match text with
  | '"' :: rest => (readBasic? rest).map fun (chars, after) => (String.ofList chars, after)
  | '\'' :: rest => (readLiteral? rest).map fun (chars, after) => (String.ofList chars, after)
  | _ =>
    let key := text.takeWhile isKeyChar
    if key.isEmpty then none else some (String.ofList key, text.drop key.length)

/-- Read a key with dots between its parts, and the blanks behind it, with fuel for its parts. -/
def readKey? : Nat → List Char → Option (List String × List Char)
  | 0, _ => none
  | fuel + 1, text => do
    let (key, rest) ← readSimpleKey? (skipBlanks text)
    match skipBlanks rest with
    | '.' :: rest =>
      let (path, rest) ← readKey? fuel rest
      return (key :: path, rest)
    | rest => return ([key], rest)

mutual

/-- Read a value, with fuel for the depth and the length of what it holds. -/
def readValue? : Nat → List Char → Option (Value × List Char)
  | 0, _ => none
  | fuel + 1, text =>
    match text with
    | '[' :: rest => do
      let rest ← skipGap? false rest
      let (items, rest) ← readItems? fuel rest
      return (.array items, rest)
    | '{' :: rest =>
      match skipBlanks rest with
      | '}' :: rest => some (.table .braces .empty, rest)
      | rest => do
        let (entries, rest) ← readFields? fuel rest .empty
        return (.table .braces entries, rest)
    | c :: _ =>
      if c == '"' || c == '\'' then
        (readString? text).map fun (chars, rest) => (.string (String.ofList chars), rest)
      else
        let (word, rest) := splitWord text
        (wordValue? word).map fun value => (value, rest)
    | [] => none

/-- Read the items of an array up to its end. A comma may follow the last one. -/
def readItems? : Nat → List Char → Option (List Value × List Char)
  | 0, _ => none
  | fuel + 1, text =>
    match text with
    | ']' :: rest => some ([], rest)
    | _ => do
      let (item, rest) ← readValue? fuel text
      match ← skipGap? false rest with
      | ']' :: rest => return ([item], rest)
      | ',' :: rest =>
        let (items, rest) ← readItems? fuel (← skipGap? false rest)
        return (item :: items, rest)
      | _ => none

/-- Read the assignments of a table in braces up to its end. A comma stands between them. -/
def readFields? : Nat → List Char → Table → Option (Table × List Char)
  | 0, _, _ => none
  | fuel + 1, text, table => do
    let (path, rest) ← readKey? fuel text
    match rest with
    | '=' :: rest =>
      let (value, rest) ← readValue? fuel (skipBlanks rest)
      let table ← table.assign value path
      match skipBlanks rest with
      | '}' :: rest => return (table, rest)
      | ',' :: rest => readFields? fuel rest table
      | _ => none
    | _ => none

end

/-- A document while it is read: its table, and the path of the table that was opened last. -/
structure Draft where
  root : Table
  opened : List String

/-- Read a header behind its first bracket, without the end of its line. -/
def readHeader? (draft : Draft) (text : List Char) : Option (Draft × List Char) :=
  match text with
  | '[' :: rest => do
    let (path, rest) ← readKey? rest.length rest
    match rest with
    | ']' :: ']' :: rest => return (⟨← draft.root.openItem path, path⟩, rest)
    | _ => none
  | _ => do
    let (path, rest) ← readKey? text.length text
    match rest with
    | ']' :: rest => return (⟨← draft.root.openTable path, path⟩, rest)
    | _ => none

/-- Read an assignment, without the end of its line. -/
def readAssignment? (draft : Draft) (text : List Char) : Option (Draft × List Char) := do
  let (path, rest) ← readKey? text.length text
  match rest with
  | '=' :: rest =>
    let (value, rest) ← readValue? (2 * rest.length + 1) (skipBlanks rest)
    let root ← Table.modifyOpen (Table.assign value path) draft.opened draft.root
    return ({ draft with root }, rest)
  | _ => none

/-- Read the lines of a document, with fuel for their number. -/
def readLines? : Nat → Draft → List Char → Option Draft
  | _, draft, [] => some draft
  | 0, _, _ => none
  | fuel + 1, draft, text =>
    match skipBlanks text with
    | '[' :: rest => do
      let (draft, rest) ← readHeader? draft rest
      readLines? fuel draft (← skipLineEnd? rest)
    | text =>
      match skipLineEnd? text with
      | some rest => readLines? fuel draft rest
      | none => do
        let (draft, rest) ← readAssignment? draft text
        readLines? fuel draft (← skipLineEnd? rest)

/-- Read a document. A byte order mark before it is skipped. -/
def parse? (text : String) : Option Table :=
  let text := match text.toList with
    | '\uFEFF' :: rest => rest
    | text => text
  (readLines? text.length ⟨.empty, []⟩ text).map (·.root)

end ManifestMigration.Toml
