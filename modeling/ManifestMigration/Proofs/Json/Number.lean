import ManifestMigration.Json.Parse
import ManifestMigration.Json.Print
import ManifestMigration.Proofs.Text.Digit

/-! # Whole numbers through JSON

A printed integer is read back as it was. Its digits fit into 64 bits, so the reader takes all of
them; and the leaf that it makes is decided by the sign and by the bound between the signed and the
unsigned integers, which is where the printed leaves change over, too.
-/

namespace ManifestMigration.Json

variable {n : Nat} {rest : List Char}

/-! ## Digits -/

namespace Significand

theorem le_ofDigitChars (value : Nat) (digits : List Char) :
    value ≤ Nat.ofDigitChars 10 digits value := by
  induction digits generalizing value with
  | nil => exact Nat.le_refl _
  | cons digit rest ih =>
      have step : value ≤ 10 * value + (digit.toNat - '0'.toNat) := by omega
      exact Nat.le_trans step (ih _)

/-- Digits that fit are all taken. -/
theorem foldl_push {s : Significand} (room : s.full = false) {digits : List Char}
    (fits : Nat.ofDigitChars 10 digits s.value < Nat.pow 2 64) :
    digits.foldl push s =
      ⟨Nat.ofDigitChars 10 digits s.value, false, s.taken + digits.length, s.dropped⟩ := by
  induction digits generalizing s with
  | nil =>
      obtain ⟨value, full, taken, dropped⟩ := s
      cases room
      rfl
  | cons digit rest ih =>
      have small : ¬ Nat.pow 2 64 ≤ 10 * s.value + (digit.toNat - '0'.toNat) :=
        Nat.not_le.mpr (Nat.lt_of_le_of_lt (le_ofDigitChars _ rest) fits)
      have pushed : s.push digit =
          { s with value := 10 * s.value + (digit.toNat - '0'.toNat), taken := s.taken + 1 } := by
        simp only [push, room, Bool.false_or, decide_eq_true_eq, if_neg small]
      have stillRoom : (s.push digit).full = false := by rw [pushed]; exact room
      have stillFits : Nat.ofDigitChars 10 rest (s.push digit).value < Nat.pow 2 64 := by
        rw [pushed]
        exact fits
      rw [List.foldl_cons, ih stillRoom stillFits, pushed]
      simp only [List.length_cons, Significand.mk.injEq, true_and, and_true]
      exact ⟨rfl, by omega⟩

theorem ofDigits_toDigits (fits : n < Nat.pow 2 64) :
    ofDigits 0 (Nat.toDigits 10 n) = ⟨n, false, (Nat.toDigits 10 n).length, 0⟩ := by
  have value : Nat.ofDigitChars 10 (Nat.toDigits 10 n) 0 = n :=
    Nat.ofDigitChars_toDigits (by decide) (by decide)
  have taken := foldl_push (s := ⟨0, false, 0, 0⟩) rfl (value.symm ▸ fits)
  rw [ofDigits, taken, value, Nat.zero_add]

end Significand

/-- Only the zero starts with the digit zero. -/
theorem toDigits_eq_cons (positive : 0 < n) :
    ∃ first others, Nat.toDigits 10 n = first :: others ∧ first ≠ '0' := by
  induction n using Nat.strongRecOn with
  | ind n ih =>
      by_cases small : n < 10
      · refine ⟨Nat.digitChar n, [], Nat.toDigits_of_lt_base small, ?_⟩
        have notZero : ∀ digit < 10, 0 < digit → Nat.digitChar digit ≠ '0' := by decide
        exact notZero n small positive
      · have more : 10 ≤ n := Nat.not_lt.mp small
        obtain ⟨first, others, starts, notZero⟩ := ih (n / 10) (by omega) (by omega)
        refine ⟨first, others ++ [Nat.digitChar (n % 10)], ?_, notZero⟩
        rw [Nat.toDigits_of_base_le (by decide) more, starts, List.cons_append]

/-! ## Reading numbers -/

/-- What follows does not go on with a number. -/
def EndsNumber (rest : List Char) : Prop :=
  ∀ c ∈ rest.head?, c.isDigit = false ∧ c ≠ '.' ∧ c ≠ 'e' ∧ c ≠ 'E'

theorem takeWhile_digits (ends : EndsNumber rest) (n : Nat) :
    (Nat.toDigits 10 n ++ rest).takeWhile Char.isDigit = Nat.toDigits 10 n :=
  Text.takeWhile_toDigits (fun c next => (ends c next).1) n

theorem dropWhile_digits (ends : EndsNumber rest) (n : Nat) :
    (Nat.toDigits 10 n ++ rest).dropWhile Char.isDigit = rest :=
  Text.dropWhile_toDigits (fun c next => (ends c next).1) n

theorem readWhole_digits (ends : EndsNumber rest) (n : Nat) :
    readWhole (Nat.toDigits 10 n ++ rest) = some (Nat.toDigits 10 n, rest) := by
  rcases Nat.eq_zero_or_pos n with rfl | positive
  · have next : rest.head?.any Char.isDigit = false := by
      cases rest with
      | nil => rfl
      | cons c rest => exact (ends c rfl).1
    simp [readWhole, next]
  · obtain ⟨first, others, starts, notZero⟩ := toDigits_eq_cons positive
    have nonempty : (Nat.toDigits 10 n).isEmpty = false := by rw [starts, List.isEmpty_cons]
    unfold readWhole
    split
    · next text zero =>
        rw [starts] at zero
        exact absurd (List.cons.inj zero).1 notZero
    · simp only [takeWhile_digits ends, dropWhile_digits ends, nonempty, Bool.false_eq_true,
        if_false]

theorem readFraction_of_ends (ends : EndsNumber rest) : readFraction rest = some (none, rest) := by
  unfold readFraction
  split
  · exact absurd rfl (ends _ rfl).2.1
  · rfl

theorem readExponent_of_ends (ends : EndsNumber rest) : readExponent rest = some (none, rest) := by
  unfold readExponent
  split
  · exact absurd rfl (ends _ rfl).2.2.1
  · exact absurd rfl (ends _ rfl).2.2.2
  · rfl

theorem readNumber_digits (ends : EndsNumber rest) (n : Nat) :
    readNumber (Nat.toDigits 10 n ++ rest) =
      (leafOfNumber? false (Nat.toDigits 10 n) none none).map (·, rest) := by
  have noMinus : '-' ∉ Nat.toDigits 10 n := fun member =>
    absurd (Nat.isDigit_of_mem_toDigits (by decide) (by decide) member) (by decide)
  have unsigned : ∀ tail, Nat.toDigits 10 n ++ rest ≠ '-' :: tail := by
    obtain ⟨first, others, starts⟩ :=
      List.exists_cons_of_length_pos (Nat.length_toDigits_pos (b := 10) (n := n))
    rw [starts] at noMinus ⊢
    rintro tail same
    exact noMinus ((List.cons.inj same).1 ▸ List.mem_cons_self)
  unfold readNumber
  simp only [readWhole_digits ends, readFraction_of_ends ends, readExponent_of_ends ends,
    Option.bind_eq_bind, Option.bind_some]
  cases leafOfNumber? false (Nat.toDigits 10 n) none none <;> rfl

theorem readNumber_minus_digits (ends : EndsNumber rest) (n : Nat) :
    readNumber ('-' :: (Nat.toDigits 10 n ++ rest)) =
      (leafOfNumber? true (Nat.toDigits 10 n) none none).map (·, rest) := by
  simp only [readNumber, readWhole_digits ends, readFraction_of_ends ends,
    readExponent_of_ends ends, Option.bind_eq_bind, Option.bind_some]
  cases leafOfNumber? true (Nat.toDigits 10 n) none none <;> rfl

/-! ## Integers -/

theorem leafOfNumber?_digits (fits : n < Nat.pow 2 64) :
    leafOfNumber? false (Nat.toDigits 10 n) none none =
      some (if n < Nat.pow 2 63 then .integer (Int64.ofNat n) else .unsigned (UInt64.ofNat n)) := by
  simp [leafOfNumber?, Significand.ofDigits_toDigits fits]

theorem leafOfNumber?_minus_digits (positive : 0 < n) (fits : n ≤ Nat.pow 2 63) :
    leafOfNumber? true (Nat.toDigits 10 n) none none = some (.integer (Int64.ofInt (-n))) := by
  have fits64 : n < Nat.pow 2 64 := Nat.lt_of_le_of_lt fits (by decide)
  have inside : (n = 0 ∨ Nat.pow 2 63 < n) = False := by
    rw [eq_iff_iff, iff_false, not_or]
    exact ⟨Nat.ne_of_gt positive, Nat.not_lt.mpr fits⟩
  simp only [leafOfNumber?, Significand.ofDigits_toDigits fits64]
  simp [inside]

theorem readNumber_integer (ends : EndsNumber rest) (value : Int64) :
    readNumber (printScalar (.integer value) ++ rest) = some (.integer value, rest) := by
  have lower := value.le_toInt
  have upper := value.toInt_lt
  rcases Int.lt_or_le value.toInt 0 with negative | nonnegative
  · have positive : 0 < value.toInt.natAbs := by omega
    have fits : value.toInt.natAbs ≤ Nat.pow 2 63 := by
      change _ ≤ 9223372036854775808
      omega
    have back : Int64.ofInt (-(value.toInt.natAbs : Int)) = value := by
      rw [Int.ofNat_natAbs_of_nonpos (by omega), Int.neg_neg, Int64.ofInt_toInt]
    simp only [printScalar, if_pos negative, List.cons_append, List.nil_append]
    rw [readNumber_minus_digits ends, leafOfNumber?_minus_digits positive fits, back]
    rfl
  · have fits : value.toInt.natAbs < Nat.pow 2 63 := by
      change _ < 9223372036854775808
      omega
    have back : Int64.ofNat value.toInt.natAbs = value := by
      rw [← Int64.ofInt_eq_ofNat, Int.natAbs_of_nonneg nonnegative, Int64.ofInt_toInt]
    simp only [printScalar, if_neg (Int.not_lt.mpr nonnegative), List.nil_append]
    rw [readNumber_digits ends, leafOfNumber?_digits (Nat.lt_trans fits (by decide)), if_pos fits,
      back]
    rfl

/-- Unsigned leaves beyond the signed ones come back as unsigned ones. -/
theorem readNumber_unsigned (ends : EndsNumber rest) {value : UInt64}
    (large : Nat.pow 2 63 ≤ value.toNat) :
    readNumber (printScalar (.unsigned value) ++ rest) = some (.unsigned value, rest) := by
  rw [printScalar, readNumber_digits ends, leafOfNumber?_digits value.toNat_lt,
    if_neg (Nat.not_lt.mpr large), UInt64.ofNat_toNat]
  rfl

end ManifestMigration.Json
