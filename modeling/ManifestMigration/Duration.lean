import ManifestMigration.Text.Blank
import ManifestMigration.Text.Digit

/-! # Short durations

A short duration is a number of whole seconds, minutes, hours or days: ASCII digits and at most one
letter for the unit. Fractions, signs, compound durations and values beyond the signed 64-bit
range have no reading.
-/

namespace ManifestMigration.Duration

/-- The seconds in one unit; a missing unit counts seconds. -/
def unitSeconds? : List Char → Option Nat
  | [] | ['s'] | ['S'] => some 1
  | ['m'] | ['M'] => some 60
  | ['h'] | ['H'] => some (60 * 60)
  | ['d'] | ['D'] => some (60 * 60 * 24)
  | _ => none

/-- The seconds of a short duration. Blanks around it are ignored, and so is the case of its
    unit. -/
def seconds? (text : String) : Option Int64 :=
  let body := Text.trim text.toList
  let digits := body.takeWhile Char.isDigit
  if digits.isEmpty then none
  else
    match unitSeconds? (body.dropWhile Char.isDigit) with
    | none => none
    | some unit =>
      let total := Text.decimalValue digits * unit
      if total < Nat.pow 2 63 then some (Int64.ofNat total) else none

end ManifestMigration.Duration
