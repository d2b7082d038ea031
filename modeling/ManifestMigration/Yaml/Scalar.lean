import ManifestMigration.Document.Node
import ManifestMigration.Number.Layout
import ManifestMigration.Text.Digit

/-! # The values of scalars

A plain scalar without a tag is a null, a boolean, an integer, a float or a string, whichever it
can be read as first. Integers may be written in the bases 2, 8, 10 and 16; a decimal one with more
digits after a leading zero is a string. Integers that fit into 128 but not into 64 bits have a
reading that no document can hold; beyond that they are floats.
-/

namespace ManifestMigration.Yaml

def isNullText (text : String) : Bool := text ∈ ["null", "Null", "NULL", "~"]

def boolOfText? (text : String) : Option Bool :=
  if text ∈ ["true", "True", "TRUE"] then some true
  else if text ∈ ["false", "False", "FALSE"] then some false
  else none

/-- More digits follow a leading zero. -/
def isZeroLed (text : List Char) : Bool :=
  let digits := match text with
    | '-' :: rest | '+' :: rest => rest
    | _ => text
  match digits with
  | '0' :: d :: rest => (d :: rest).all Char.isDigit
  | _ => false

/-- Read the digits behind the mark of a base. -/
def based? : List Char → Option Nat
  | '0' :: 'x' :: rest => Text.digits? 16 rest
  | '0' :: 'o' :: rest => Text.digits? 8 rest
  | '0' :: 'b' :: rest => Text.digits? 2 rest
  | _ => none

def natural? (text : List Char) : Option Nat :=
  let body := match text with
    | '+' :: rest => rest
    | _ => text
  match based? body with
  | some n => some n
  | none => if isZeroLed text then none else Text.digits? 10 body

def negated? : List Char → Option Nat
  | '-' :: body =>
    match based? body with
    | some n => some n
    | none => if isZeroLed ('-' :: body) then none else Text.digits? 10 body
  | _ => none

inductive WholeNumber where
  | integer (value : Int64)
  | unsigned (value : UInt64)
  /-- Too large for 64 bits but not for 128. -/
  | wide (value : Int)
  deriving DecidableEq, Repr

/-- Read a whole number that fits into 128 bits. -/
def wholeNumber? (text : List Char) : Option WholeNumber :=
  match natural? text with
  | some n =>
    if n < Nat.pow 2 63 then some (.integer (Int64.ofNat n))
    else if n < Nat.pow 2 64 then some (.unsigned (UInt64.ofNat n))
    else if n < Nat.pow 2 128 then some (.wide n)
    else none
  | none =>
    match negated? text with
    | some n =>
      if n ≤ Nat.pow 2 63 then some (.integer (Int64.ofInt (-n)))
      else if n ≤ Nat.pow 2 127 then some (.wide (-n))
      else none
    | none => none

/-- The parts of a decimal number: its digits as one number, and the power of ten of the last
    one. -/
structure DecimalText where
  negative : Bool
  coefficient : Nat
  exponent : Int

def exponent? (text : List Char) : Option Int :=
  match text with
  | '-' :: digits => (Text.digits? 10 digits).map fun n => -(n : Int)
  | '+' :: digits => (Text.digits? 10 digits).map Int.ofNat
  | digits => (Text.digits? 10 digits).map Int.ofNat

/-- Read a decimal number with an optional sign, point and exponent. There must be a digit. -/
def decimal? (text : List Char) : Option DecimalText :=
  let (negative, body) := match text with
    | '-' :: rest => (true, rest)
    | '+' :: rest => (false, rest)
    | _ => (false, text)
  let whole := body.takeWhile Char.isDigit
  let (fraction, tail) := match body.dropWhile Char.isDigit with
    | '.' :: rest => (rest.takeWhile Char.isDigit, rest.dropWhile Char.isDigit)
    | tail => ([], tail)
  match Text.digits? 10 (whole ++ fraction) with
  | none => none
  | some coefficient =>
    let number (exponent : Int) : DecimalText :=
      ⟨negative, coefficient, exponent - fraction.length⟩
    match tail with
    | [] => some (number 0)
    | 'e' :: rest | 'E' :: rest => (exponent? rest).map number
    | _ => none

/-- Read a float: an infinity, a NaN or a decimal number within the finite doubles. -/
def float? (text : String) : Option Binary64 :=
  if text ∈ [".inf", ".Inf", ".INF", "+.inf", "+.Inf", "+.INF"] then some (.infinity false)
  else if text ∈ ["-.inf", "-.Inf", "-.INF"] then some (.infinity true)
  else if text ∈ [".nan", ".NaN", ".NAN"] then some .nan
  else
    match text.toList with
    | '+' :: '+' :: _ | '+' :: '-' :: _ => none
    | chars =>
      match decimal? chars with
      | some d =>
        let x := Binary64.ofDecimal d.negative d.coefficient d.exponent
        if x.isFinite then some x else none
      | none => none

inductive PlainValue where
  | null
  | bool (value : Bool)
  | whole (value : WholeNumber)
  | float (value : Binary64)
  | string
  deriving DecidableEq, Repr

def plainValue (text : String) : PlainValue :=
  if text.isEmpty || isNullText text then .null
  else
    match boolOfText? text with
    | some b => .bool b
    | none =>
      match wholeNumber? text.toList with
      | some n => .whole n
      | none =>
        if isZeroLed text.toList then .string
        else
          match float? text with
          | some x => .float x
          | none => .string

end ManifestMigration.Yaml
