import ManifestMigration.Number.Rounding

/-! # Shortest decimals

The decimal number with the fewest digits that rounds to a given double, and among those the
nearest to it; halfway between two, the one with the even last digit.
-/

namespace ManifestMigration.Binary64

/-- A decimal number `digits * 10 ^ exponent`. -/
structure Decimal where
  digits : Nat
  exponent : Int
  deriving DecidableEq, Repr

/-- The place value of the first digit, as a power of ten. -/
def Decimal.leading (d : Decimal) : Int := d.exponent + digitCount d.digits - 1

/-- A positive quotient. -/
structure Quotient where
  num : Nat
  den : Nat

/-- The largest power of ten that a positive quotient reaches. -/
def Quotient.magnitude (q : Quotient) : Int :=
  if q.den ≤ q.num then digitCount (q.num / q.den) - 1
  else -(digitCount ((q.den + q.num - 1) / q.num - 1) : Int)

/-- The numbers that round to a positive double: between the halfway points to its neighbours,
    which belong to it when its fraction is even. All three are counted in units of `unit`. -/
structure Basin where
  low : Nat
  value : Nat
  high : Nat
  closed : Bool
  unit : Quotient

/-- The numbers that round to a positive finite double. -/
def basin (x : Binary64) : Basin :=
  let (m, e) := x.magnitude
  let shift : Int := (e : Int) - 1076
  { low := if m = Nat.pow 2 52 ∧ 0 < e then 4 * m - 1 else 4 * m - 2
    value := 4 * m
    high := 4 * m + 2
    closed := m % 2 == 0
    unit := ⟨Nat.pow 2 shift.toNat, Nat.pow 2 (-shift).toNat⟩ }

/-- The best number on the grid of a power of ten that rounds to the double. -/
def Basin.onGrid? (b : Basin) (exponent : Int) : Option Nat :=
  -- In units of the grid: `x` units of the basin are `x * num / den` of the grid.
  let num := b.unit.num * Nat.pow 10 (-exponent).toNat
  let den := b.unit.den * Nat.pow 10 exponent.toNat
  let below := b.value * num / den
  let inside (candidate : Nat) : Bool :=
    let c := candidate * den
    if b.closed then b.low * num ≤ c && c ≤ b.high * num
    else b.low * num < c && c < b.high * num
  let down := 2 * (b.value * num - below * den)
  match inside below, inside (below + 1) with
  | true, true =>
    some (if down < den || (down == den && below % 2 == 0) then below else below + 1)
  | true, false => some below
  | false, true => some (below + 1)
  | false, false => none

/-- Drop the zeros at the end of a number, counting them. At most so many are dropped. -/
def stripZeros : Nat → Nat → Int → Decimal
  | 0, n, exponent => ⟨n, exponent⟩
  | fuel + 1, n, exponent =>
    if n % 10 = 0 ∧ n ≠ 0 then stripZeros fuel (n / 10) (exponent + 1) else ⟨n, exponent⟩

/-- Search the grids with so many digits after the first, and then with more of them. -/
def Basin.search (b : Basin) (leading : Int) : Nat → Nat → Decimal
  | 0, more => ⟨b.value, leading - more⟩
  | fuel + 1, more =>
    let exponent := leading - more
    match b.onGrid? exponent with
    | some n => stripZeros 17 n exponent
    | none => b.search leading fuel (more + 1)

/-- The shortest decimal of a finite double that is not zero, without its sign. Seventeen digits
    always suffice. -/
def shortest (x : Binary64) : Decimal :=
  let b := x.basin
  let leading := Quotient.magnitude ⟨b.value * b.unit.num, b.unit.den⟩
  b.search leading 17 0

end ManifestMigration.Binary64
