import ManifestMigration.Text.Digit

/-! # Strings and comments of TOML

Strings are quoted by one or by three quotes, double ones with escapes or single ones without.
Three quotes hold several lines. A reader here takes the text behind an opening quote and gives the
characters and the text behind the closing quote.
-/

namespace ManifestMigration.Toml

def isBlank (c : Char) : Bool := c == ' ' || c == '\t'

def skipBlanks (text : List Char) : List Char := text.dropWhile isBlank

/-- The character may stand in a comment or a string: tabs and everything but control characters. -/
def isAllowed (c : Char) : Bool := c == '\t' || (0x20 ≤ c.toNat && c.toNat != 0x7F)

def skipBreak? : List Char → Option (List Char)
  | '\n' :: rest => some rest
  | '\r' :: '\n' :: rest => some rest
  | _ => none

/-- The text behind blanks, a comment, and a line break or the end of all. -/
def skipLineEnd? (text : List Char) : Option (List Char) :=
  let text := skipBlanks text
  let text := if text.head? = some '#' then text.dropWhile isAllowed else text
  if text.isEmpty then some [] else skipBreak? text

/-- The text behind blanks, line breaks and comments. The flag says that a comment has begun. -/
def skipGap? : Bool → List Char → Option (List Char)
  | _, '\n' :: rest => skipGap? false rest
  | _, '\r' :: '\n' :: rest => skipGap? false rest
  | true, c :: rest => if isAllowed c then skipGap? true rest else none
  | false, ' ' :: rest => skipGap? false rest
  | false, '\t' :: rest => skipGap? false rest
  | false, '#' :: rest => skipGap? true rest
  | _, rest => some rest

def escapedChar? : Char → Option Char
  | 'b' => some (Char.ofNat 0x08)
  | 't' => some '\t'
  | 'n' => some '\n'
  | 'f' => some (Char.ofNat 0x0C)
  | 'r' => some '\r'
  | '"' => some '"'
  | '\\' => some '\\'
  | _ => none

/-- The character that the first so many characters name by its number in base 16, and the rest. -/
def numberedChar? (width : Nat) (text : List Char) : Option (Char × List Char) :=
  if text.length < width then none
  else
    match Text.digits? 16 (text.take width) with
    | some code => if code.isValidChar then some (Char.ofNat code, text.drop width) else none
    | none => none

def readEscape? : List Char → Option (Char × List Char)
  | 'u' :: rest => numberedChar? 4 rest
  | 'U' :: rest => numberedChar? 8 rest
  | letter :: rest => (escapedChar? letter).map fun c => (c, rest)
  | [] => none

theorem length_numberedChar?_le {width : Nat} {text rest : List Char} {c : Char}
    (h : numberedChar? width text = some (c, rest)) : rest.length ≤ text.length := by
  unfold numberedChar? at h
  split at h
  · cases h
  · split at h
    · split at h
      · cases h; simp
      · cases h
    · cases h

theorem length_readEscape?_lt {text rest : List Char} {c : Char}
    (h : readEscape? text = some (c, rest)) : rest.length < text.length := by
  unfold readEscape? at h
  split at h
  · exact Nat.lt_succ_of_le (length_numberedChar?_le h)
  · exact Nat.lt_succ_of_le (length_numberedChar?_le h)
  · obtain ⟨d, -, hd⟩ := Option.map_eq_some_iff.1 h
    cases hd
    simp
  · cases h

/-- Read a string between double quotes. -/
def readBasic? (text : List Char) : Option (List Char × List Char) :=
  match text with
  | [] => none
  | '"' :: rest => some ([], rest)
  | '\\' :: rest =>
    match _h : readEscape? rest with
    | some (c, rest') => (readBasic? rest').map fun (chars, after) => (c :: chars, after)
    | none => none
  | c :: rest =>
    if isAllowed c then (readBasic? rest).map fun (chars, after) => (c :: chars, after) else none
termination_by text.length
decreasing_by
  · have := length_readEscape?_lt _h; simp only [List.length_cons]; omega
  · simp

/-- Read a string between single quotes. -/
def readLiteral? : List Char → Option (List Char × List Char)
  | [] => none
  | c :: rest =>
    if c = '\'' then some ([], rest)
    else if isAllowed c then
      (readLiteral? rest).map fun (chars, after) => (c :: chars, after)
    else none

/-- The text behind a backslash at the end of a line, without the blanks and line breaks that
    follow. Only blanks may stand between the backslash and the end of its line. -/
def skipContinuation? (text : List Char) : Option (List Char) :=
  (skipBreak? (skipBlanks text)).map fun _ =>
    text.dropWhile fun c => isBlank c || c == '\n' || c == '\r'

/-- The quotes that belong to a string of several lines before its closing quotes, and the text
    behind them, if the text starts with closing quotes. Two quotes can stand before them. -/
def readClosing? (quote : Char) (text : List Char) : Option (List Char × List Char) :=
  let quotes := text.takeWhile (· == quote)
  if quotes.length < 3 then none
  else
    let count := min quotes.length 5
    some (quotes.take (count - 3), text.drop count)

/-- Read a string between three double quotes, with fuel for its characters. -/
def readLongBasic? : Nat → List Char → Option (List Char × List Char)
  | 0, _ => none
  | fuel + 1, text =>
    match readClosing? '"' text with
    | some closed => some closed
    | none =>
      match text with
      | [] => none
      | '\\' :: rest =>
        match skipContinuation? rest with
        | some rest' => readLongBasic? fuel rest'
        | none =>
          match readEscape? rest with
          | some (c, rest') =>
            (readLongBasic? fuel rest').map fun (chars, after) => (c :: chars, after)
          | none => none
      | '\r' :: '\n' :: rest =>
        (readLongBasic? fuel rest).map fun (chars, after) => ('\r' :: '\n' :: chars, after)
      | c :: rest =>
        if c = '\n' || isAllowed c then
          (readLongBasic? fuel rest).map fun (chars, after) => (c :: chars, after)
        else none

/-- Read a string between three single quotes, with fuel for its characters. -/
def readLongLiteral? : Nat → List Char → Option (List Char × List Char)
  | 0, _ => none
  | fuel + 1, text =>
    match readClosing? '\'' text with
    | some closed => some closed
    | none =>
      match text with
      | [] => none
      | '\r' :: '\n' :: rest =>
        (readLongLiteral? fuel rest).map fun (chars, after) => ('\r' :: '\n' :: chars, after)
      | c :: rest =>
        if c = '\n' || isAllowed c then
          (readLongLiteral? fuel rest).map fun (chars, after) => (c :: chars, after)
        else none

/-- The text of a string of several lines without the line break that may open it. -/
def skipFirstBreak (text : List Char) : List Char := (skipBreak? text).getD text

def readString? : List Char → Option (List Char × List Char)
  | '"' :: '"' :: '"' :: rest => readLongBasic? (rest.length + 1) (skipFirstBreak rest)
  | '\'' :: '\'' :: '\'' :: rest => readLongLiteral? (rest.length + 1) (skipFirstBreak rest)
  | '"' :: rest => readBasic? rest
  | '\'' :: rest => readLiteral? rest
  | _ => none

end ManifestMigration.Toml
