import ManifestMigration.Number.Rounding

/-! # Products and quotients of doubles

Multiplying and dividing positive finite doubles with one rounding, and reading a decimal number in
two roundings: first its digits, then their product or quotient with a power of ten. That is quick
but not always the nearest double.
-/

namespace ManifestMigration.Binary64

def times (x y : Binary64) : Binary64 :=
  let (m, e) := x.magnitude
  let (n, f) := y.magnitude
  ⟨UInt64.ofNat (bitsOfQuotient (m * n * Nat.pow 2 (e + f)) (Nat.pow 2 2148))⟩

def dividedBy (x y : Binary64) : Binary64 :=
  let (m, e) := x.magnitude
  let (n, f) := y.magnitude
  ⟨UInt64.ofNat (bitsOfQuotient (m * Nat.pow 2 e) (n * Nat.pow 2 f))⟩

/-- The double nearest to a power of ten. -/
def powerOfTen (n : Nat) : Binary64 := ofDecimal false 1 n

def withSign (negative : Bool) (x : Binary64) : Binary64 :=
  ⟨UInt64.ofNat ((if negative then Nat.pow 2 63 else 0) + x.bits.toNat % Nat.pow 2 63)⟩

/-- Divide by the largest power of ten among the doubles until the exponent is within its reach,
    at most so many times, and then by the rest. -/
def scaleDown : Nat → Binary64 → Nat → Binary64
  | 0, x, _ => x
  | fuel + 1, x, exponent =>
    if x.isZero then x
    else if exponent ≤ 308 then x.dividedBy (powerOfTen exponent)
    else scaleDown fuel (x.dividedBy (powerOfTen 308)) (exponent - 308)

/-- A coefficient rounded to a double and then scaled by a power of ten; nothing when that is
    beyond the finite doubles. Three divisions make every coefficient of 64 bits zero. -/
def scaled? (coefficient : Nat) (exponent : Int) : Option Binary64 :=
  let x := ofDecimal false coefficient 0
  if x.isZero then some x
  else if exponent < 0 then some (scaleDown 4 x exponent.natAbs)
  else if 308 < exponent then none
  else
    let y := x.times (powerOfTen exponent.toNat)
    if y.isFinite then some y else none

end ManifestMigration.Binary64
