import ManifestMigration.Number.Shortest

/-! # Numbers as text

How the digits of a number are laid out. A number is written with a point at its place, or with
one digit before the point and a power of ten after an `e`; which of the two, and a few details,
is up to a `Layout`.
-/

namespace ManifestMigration.Binary64

/-- The choices in writing a number. -/
structure Layout where
  /-- Write numbers with this leading power of ten without an exponent. -/
  positional : Int → Bool
  /-- Write `.0` after a whole number. -/
  wholePoint : Bool
  /-- Write the plus sign of an exponent. -/
  exponentPlus : Bool

/-- A number with its point in place, from its digits and the power of ten of the last one. -/
def positionalDigits (wholePoint : Bool) (digits : List Char) (exponent : Int) : List Char :=
  let point := (digits.length : Int) + exponent
  if 0 ≤ exponent then
    digits ++ List.replicate exponent.toNat '0' ++ if wholePoint then ['.', '0'] else []
  else if 0 < point then
    digits.take point.toNat ++ '.' :: digits.drop point.toNat
  else
    '0' :: '.' :: (List.replicate (-point).toNat '0' ++ digits)

/-- A number with an exponent, from its digits and the power of ten of the first one. -/
def exponentDigits (plus : Bool) (digits : List Char) (leading : Int) : List Char :=
  let mantissa := match digits with
    | [] => []
    | [d] => [d]
    | d :: rest => d :: '.' :: rest
  let sign := if leading < 0 then ['-'] else if plus then ['+'] else []
  mantissa ++ 'e' :: sign ++ Nat.toDigits 10 leading.natAbs

/-- A finite number as text, by the shortest decimal. -/
def layOut (layout : Layout) (x : Binary64) : String :=
  let sign := if x.isNegative then ['-'] else []
  let body :=
    if x.isZero then positionalDigits layout.wholePoint ['0'] 0
    else
      let d := x.shortest
      let digits := Nat.toDigits 10 d.digits
      if layout.positional d.leading then positionalDigits layout.wholePoint digits d.exponent
      else exponentDigits layout.exponentPlus digits d.leading
  String.ofList (sign ++ body)

/-- Plain numbers: all digits, and no point in a whole number. -/
def plainLayout : Layout := ⟨fun _ => true, false, false⟩

/-- A number as plain text, with words for what is no number. -/
def plainText (x : Binary64) : String :=
  if x.isNaN then "NaN"
  else if x.isFinite then x.layOut plainLayout
  else if x.isNegative then "-inf" else "inf"

end ManifestMigration.Binary64
