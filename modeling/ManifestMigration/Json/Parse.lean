import ManifestMigration.Document.Node
import ManifestMigration.Number.Scaling
import ManifestMigration.Text.Digit

/-! # Documents from JSON

Reading JSON into document trees. Whole numbers within 64 bits stay exact; other numbers, and the
negative zero, are floats. A key that comes again replaces the value and keeps its place. Arrays and
objects nest at most 127 deep.
-/

namespace ManifestMigration.Json

def isBlank (c : Char) : Bool := c == ' ' || c == '\n' || c == '\t' || c == '\r'

def skipBlanks (text : List Char) : List Char := text.dropWhile isBlank

/-! ## Strings -/

/-- The characters that the letter of an escape stands for. -/
def escapedChar? : Char → Option Char
  | '"' => some '"'
  | '\\' => some '\\'
  | '/' => some '/'
  | 'b' => some (Char.ofNat 0x08)
  | 'f' => some (Char.ofNat 0x0C)
  | 'n' => some '\n'
  | 'r' => some '\r'
  | 't' => some '\t'
  | _ => none

/-- The first half of a pair that writes a character beyond 16 bits. -/
def isHighHalf (code : Nat) : Bool := 0xD800 ≤ code && code < 0xDC00

def isLowHalf (code : Nat) : Bool := 0xDC00 ≤ code && code < 0xE000

def joinHalves (high low : Nat) : Char :=
  Char.ofNat (0x10000 + (high - 0xD800) * 0x400 + (low - 0xDC00))

/-- The characters of a string behind its opening quote, and the text behind the closing one. -/
def readString : List Char → Option (List Char × List Char)
  | [] => none
  | '"' :: rest => some ([], rest)
  | '\\' :: 'u' :: a :: b :: c :: d :: rest =>
    match Text.digits? 16 [a, b, c, d] with
    | none => none
    | some code =>
      if isLowHalf code then none
      else if isHighHalf code then
        match rest with
        | '\\' :: 'u' :: e :: f :: g :: h :: rest' =>
          match Text.digits? 16 [e, f, g, h] with
          | none => none
          | some low =>
            if isLowHalf low then
              (readString rest').map fun (chars, after) => (joinHalves code low :: chars, after)
            else none
        | _ => none
      else (readString rest).map fun (chars, after) => (Char.ofNat code :: chars, after)
  | '\\' :: letter :: rest =>
    match escapedChar? letter with
    | some ch => (readString rest).map fun (chars, after) => (ch :: chars, after)
    | none => none
  | ch :: rest =>
    if ch = '\\' || ch.toNat < 0x20 then none
    else (readString rest).map fun (chars, after) => (ch :: chars, after)

/-! ## Numbers -/

/-- The digits of a number as far as 64 bits hold them. -/
structure Significand where
  value : Nat
  /-- A digit did not fit; the digits behind it are left out too. -/
  full : Bool
  /-- How many digits have been taken or left out. -/
  taken : Nat
  dropped : Nat

def Significand.push (s : Significand) (digit : Char) : Significand :=
  let value := 10 * s.value + (digit.toNat - '0'.toNat)
  if s.full || Nat.pow 2 64 ≤ value then { s with full := true, dropped := s.dropped + 1 }
  else { s with value, taken := s.taken + 1 }

def Significand.ofDigits (value : Nat) (digits : List Char) : Significand :=
  digits.foldl Significand.push ⟨value, false, 0, 0⟩

/-- Read the digits before the point: a zero alone, or digits that do not start with one. -/
def readWhole (text : List Char) : Option (List Char × List Char) :=
  match text with
  | '0' :: rest => if rest.head?.any Char.isDigit then none else some (['0'], rest)
  | _ =>
    let digits := text.takeWhile Char.isDigit
    if digits.isEmpty then none else some (digits, text.dropWhile Char.isDigit)

/-- Read the point and the digits behind it, if there is a point. -/
def readFraction : List Char → Option (Option (List Char) × List Char)
  | '.' :: rest =>
    let digits := rest.takeWhile Char.isDigit
    if digits.isEmpty then none else some (some digits, rest.dropWhile Char.isDigit)
  | text => some (none, text)

/-- Read the exponent with its sign, if there is one. -/
def readExponent (text : List Char) : Option (Option Int × List Char) :=
  match text with
  | 'e' :: rest | 'E' :: rest =>
    let (negative, body) := match rest with
      | '-' :: body => (true, body)
      | '+' :: body => (false, body)
      | body => (false, body)
    let digits := body.takeWhile Char.isDigit
    if digits.isEmpty then none
    else
      let size := Text.decimalValue digits
      some (some (if negative then -(size : Int) else size), body.dropWhile Char.isDigit)
  | _ => some (none, text)

/-- The leaf that the parts of a number make. Digits before the point that do not fit raise the
    power of ten, digits behind it that do not fit are left out. -/
def leafOfNumber? (negative : Bool) (whole : List Char) (fraction : Option (List Char))
    (exponent : Option Int) : Option Scalar :=
  let head := Significand.ofDigits 0 whole
  if !head.full && fraction.isNone && exponent.isNone then
    if !negative then
      some (if head.value < Nat.pow 2 63 then .integer (Int64.ofNat head.value)
        else .unsigned (UInt64.ofNat head.value))
    else if head.value = 0 || Nat.pow 2 63 < head.value then
      some (.float (.ofDecimal true head.value 0))
    else some (.integer (Int64.ofInt (-head.value)))
  else
    let all := Significand.ofDigits head.value (fraction.getD [])
    let power : Int := (head.dropped : Int) - all.taken + exponent.getD 0
    (Binary64.scaled? all.value power).map fun x => .float (x.withSign negative)

def readNumber (text : List Char) : Option (Scalar × List Char) := do
  let (negative, text) := match text with
    | '-' :: rest => (true, rest)
    | _ => (false, text)
  let (whole, text) ← readWhole text
  let (fraction, text) ← readFraction text
  let (exponent, text) ← readExponent text
  return (← leafOfNumber? negative whole fraction exponent, text)

/-! ## Trees -/

/-- How deep arrays and objects may nest. -/
def depthLimit : Nat := 127

mutual

/-- Read a value, in at most so many steps down. -/
def readValue : Nat → Nat → List Char → Option (Node × List Char)
  | 0, _, _ => none
  | fuel + 1, depth, text =>
    match skipBlanks text with
    | 'n' :: 'u' :: 'l' :: 'l' :: rest => some (.null, rest)
    | 't' :: 'r' :: 'u' :: 'e' :: rest => some (.scalar (.bool true), rest)
    | 'f' :: 'a' :: 'l' :: 's' :: 'e' :: rest => some (.scalar (.bool false), rest)
    | '"' :: rest =>
      (readString rest).map fun (chars, after) => (.string (String.ofList chars), after)
    | '[' :: rest =>
      match depth with
      | 0 => none
      | depth + 1 =>
        match skipBlanks rest with
        | ']' :: after => some (.sequence [], after)
        | body => (readItems fuel depth body).map fun (items, after) => (.sequence items, after)
    | '{' :: rest =>
      match depth with
      | 0 => none
      | depth + 1 =>
        match skipBlanks rest with
        | '}' :: after => some (.mapping .empty, after)
        | body =>
          (readFields fuel depth .empty body).map fun (fields, after) => (.mapping fields, after)
    | body => (readNumber body).map fun (value, after) => (.scalar value, after)

/-- Read items up to the closing bracket. -/
def readItems : Nat → Nat → List Char → Option (List Node × List Char)
  | 0, _, _ => none
  | fuel + 1, depth, text =>
    match readValue fuel depth text with
    | none => none
    | some (item, after) =>
      match skipBlanks after with
      | ']' :: rest => some ([item], rest)
      | ',' :: rest =>
        (readItems fuel depth rest).map fun (items, after) => (item :: items, after)
      | _ => none

/-- Read fields up to the closing brace and add them to those before. -/
def readFields : Nat → Nat → Mapping → List Char → Option (Mapping × List Char)
  | 0, _, _, _ => none
  | fuel + 1, depth, fields, text =>
    match skipBlanks text with
    | '"' :: rest =>
      match readString rest with
      | none => none
      | some (key, after) =>
        match skipBlanks after with
        | ':' :: rest =>
          match readValue fuel depth rest with
          | none => none
          | some (value, after) =>
            let fields := fields.insert (String.ofList key) value
            match skipBlanks after with
            | '}' :: rest => some (fields, rest)
            | ',' :: rest => readFields fuel depth fields rest
            | _ => none
        | _ => none
    | _ => none

end

/-- Read a document. Nothing but blanks may follow it. -/
def parse? (text : String) : Option Node :=
  let chars := text.toList
  match readValue (chars.length + 1) depthLimit chars with
  | some (node, rest) => if (skipBlanks rest).isEmpty then some node else none
  | none => none

end ManifestMigration.Json
