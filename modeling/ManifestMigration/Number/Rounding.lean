import ManifestMigration.Number.Binary64

/-! # Rounding to doubles

The double nearest to a decimal number, computed exactly; halfway between two doubles, the one
with the even fraction. Numbers too large for any finite double round to infinity.
-/

namespace ManifestMigration.Binary64

/-- The double nearest to a positive quotient, without its sign bit. -/
def bitsOfQuotient (num den : Nat) : Nat :=
  -- The quotient lies between `2 ^ (size - 1)` and `2 ^ (size + 1)`.
  let size : Int := (Nat.log2 num : Int) - (Nat.log2 den : Int)
  let scaled (exponent : Int) : Nat × Nat :=
    (num * Nat.pow 2 (-exponent).toNat, den * Nat.pow 2 exponent.toNat)
  let first := max (size - 53) (-1074)
  let (n, d) := scaled first
  let exponent := if n / d < Nat.pow 2 53 then first else first + 1
  let (n, d) := scaled exponent
  let quotient := n / d
  let twice := 2 * (n % d)
  let rounded := if d < twice || (twice == d && quotient % 2 == 1) then quotient + 1 else quotient
  min ((exponent + 1074).toNat * Nat.pow 2 52 + rounded) (2047 * Nat.pow 2 52)

/-- The decimal digits of a number, as a count; zero has none. -/
def digitCount (n : Nat) : Nat := if n = 0 then 0 else (Nat.toDigits 10 n).length

/-- The double nearest to `coefficient * 10 ^ exponent`, with a sign. -/
def ofDecimal (negative : Bool) (coefficient : Nat) (exponent : Int) : Binary64 :=
  let magnitude :=
    if coefficient = 0 then 0
    else
      let size := (digitCount coefficient : Int) + exponent
      if size > 310 then 2047 * Nat.pow 2 52
      else if size < -330 then 0
      else bitsOfQuotient (coefficient * Nat.pow 10 exponent.toNat) (Nat.pow 10 (-exponent).toNat)
  ⟨UInt64.ofNat ((if negative then Nat.pow 2 63 else 0) + magnitude)⟩

end ManifestMigration.Binary64
