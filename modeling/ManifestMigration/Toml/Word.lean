import ManifestMigration.Text.Digit
import ManifestMigration.Text.Occurrence
import ManifestMigration.Toml.Table

/-! # Words of TOML

Booleans, numbers, dates and times are written as words without quotes. A word that is none of them
has no value.
-/

namespace ManifestMigration.Toml

/-! ## Numbers -/

/-- Digits of a base in groups that single underscores separate. -/
def areDigits (base : Nat) (text : List Char) : Bool :=
  match text with
  | [] => false
  | [c] => (Text.digitOf? base c).isSome
  | c :: '_' :: rest => (Text.digitOf? base c).isSome && areDigits base rest
  | c :: d :: rest => (Text.digitOf? base c).isSome && areDigits base (d :: rest)

def dropSign : List Char → List Char
  | '+' :: rest => rest
  | '-' :: rest => rest
  | text => text

/-- A whole decimal number without a sign: a zero alone, or digits that do not start with one. -/
def isWhole (text : List Char) : Bool :=
  areDigits 10 text && (text.head? != some '0' || text == ['0'])

/-- An integer, decimal with a sign or not, or without a sign in one of the bases 2, 8 and 16. -/
def isInteger : List Char → Bool
  | '0' :: 'x' :: rest => areDigits 16 rest
  | '0' :: 'o' :: rest => areDigits 8 rest
  | '0' :: 'b' :: rest => areDigits 2 rest
  | text => isWhole (dropSign text)

/-- A decimal number with a fraction or without. -/
def isDecimal (text : List Char) : Bool :=
  match Text.splitOnce '.' text with
  | none => isWhole text
  | some (whole, fraction) => isWhole whole && areDigits 10 fraction

/-- A float: a fraction, an exponent or both, or one of the names of what is no finite number. -/
def isFloat (text : List Char) : Bool :=
  let text := dropSign text
  if text == ['i', 'n', 'f'] || text == ['n', 'a', 'n'] then true
  else
    let mantissa := text.takeWhile fun c => c != 'e' && c != 'E'
    match text.drop mantissa.length with
    | [] => mantissa.contains '.' && isDecimal mantissa
    | _ :: exponent => isDecimal mantissa && areDigits 10 (dropSign exponent)

/-! ## Dates and times -/

/-- Two decimal digits that write a number within bounds. -/
def isPair (low high : Nat) (a b : Char) : Bool :=
  match Text.digits? 10 [a, b] with
  | some n => low ≤ n && n ≤ high
  | none => false

def daysOf (year month : Nat) : Nat :=
  if month = 2 then
    if year % 4 = 0 ∧ (year % 100 ≠ 0 ∨ year % 400 = 0) then 29 else 28
  else if month ∈ [4, 6, 9, 11] then 30 else 31

def isDate : List Char → Bool
  | [a, b, c, d, '-', m, n, '-', e, f] =>
    match Text.digits? 10 [a, b, c, d], Text.digits? 10 [m, n] with
    | some year, some month =>
      1 ≤ month && month ≤ 12 && isPair 1 (daysOf year month) e f
    | _, _ => false
  | _ => false

/-- The part of a second behind the point, if there is one. -/
def isSecondFraction : List Char → Bool
  | [] => true
  | '.' :: digits => (Text.digits? 10 digits).isSome
  | _ => false

/-- A time of the day. The last minute of a day can have a second more. -/
def isTime : List Char → Bool
  | h :: i :: ':' :: m :: n :: ':' :: s :: t :: rest =>
    isPair 0 23 h i && isPair 0 59 m n && isPair 0 60 s t && isSecondFraction rest
  | _ => false

/-- The distance from universal time: none, or hours and minutes. -/
def isOffset : List Char → Bool
  | ['Z'] | ['z'] => true
  | [sign, h, i, ':', m, n] => (sign == '+' || sign == '-') && isPair 0 23 h i && isPair 0 59 m n
  | _ => false

def isZonedTime (text : List Char) : Bool :=
  let time := text.takeWhile fun c => c.isDigit || c == ':' || c == '.'
  isTime time && (time.length == text.length || isOffset (text.drop time.length))

/-- A date, a time, or both with a letter or a space between them. -/
def isMoment (text : List Char) : Bool :=
  isDate text || isTime text ||
    (isDate (text.take 10) &&
      match text.drop 10 with
      | mark :: time => (mark == 'T' || mark == 't' || mark == ' ') && isZonedTime time
      | [] => false)

/-! ## Words -/

def endsWord (c : Char) : Bool :=
  c ∈ [' ', '\t', '\n', '\r', ',', ']', '}', '#', '=', '"', '\'', '[', '{']

def wordValue? (word : List Char) : Option Value :=
  if word == ['t', 'r', 'u', 'e'] then some (.boolean true)
  else if word == ['f', 'a', 'l', 's', 'e'] then some (.boolean false)
  else if isInteger word || isFloat word then some (.number (String.ofList word))
  else if isMoment word then some (.moment (String.ofList word))
  else none

/-- The first word of a text, and the rest. A date goes on behind a space if a digit follows. -/
def splitWord (text : List Char) : List Char × List Char :=
  let word := text.takeWhile (!endsWord ·)
  match isDate word, text.drop word.length with
  | true, ' ' :: c :: rest =>
    if c.isDigit then
      let time := (c :: rest).takeWhile (!endsWord ·)
      (word ++ ' ' :: time, (c :: rest).drop time.length)
    else (word, ' ' :: c :: rest)
  | _, rest => (word, rest)

end ManifestMigration.Toml
