/-! # Double precision numbers as bit patterns

A double is its 64 bits: a sign, eleven bits of exponent and fifty-two of fraction. Two doubles are
the same datum when their bits agree.
-/

namespace ManifestMigration

/-- A double precision number of IEEE 754, given by its bits. -/
structure Binary64 where
  /-- Sign, exponent and fraction, from the highest bit down. -/
  bits : UInt64
  deriving DecidableEq, Repr

namespace Binary64

def isNegative (x : Binary64) : Bool := x.bits.toNat / Nat.pow 2 63 == 1

def exponentField (x : Binary64) : Nat := x.bits.toNat / Nat.pow 2 52 % Nat.pow 2 11

def fraction (x : Binary64) : Nat := x.bits.toNat % Nat.pow 2 52

/-- Neither an infinity nor a NaN. -/
def isFinite (x : Binary64) : Bool := x.exponentField != 2047

def isNaN (x : Binary64) : Bool := x.exponentField == 2047 && x.fraction != 0

def isZero (x : Binary64) : Bool := x.exponentField == 0 && x.fraction == 0

/-- Put a number together from its sign, its exponent field and its fraction. -/
def ofFields (negative : Bool) (exponentField fraction : Nat) : Binary64 :=
  ⟨UInt64.ofNat ((if negative then Nat.pow 2 63 else 0) + exponentField * Nat.pow 2 52 + fraction)⟩

def infinity (negative : Bool) : Binary64 := ofFields negative 2047 0

/-- The NaN that stands for all of them: positive, quiet, without payload. -/
def nan : Binary64 := ofFields false 2047 (Nat.pow 2 51)

/-- The size of a finite number as `m * 2 ^ (e - 1074)`, given as the pair of `m` and `e`. -/
def magnitude (x : Binary64) : Nat × Nat :=
  if x.exponentField = 0 then (x.fraction, 0)
  else (Nat.pow 2 52 + x.fraction, x.exponentField - 1)

end Binary64

end ManifestMigration
