import Mathlib.Data.List.TakeWhile
import Mathlib.Data.Nat.Digits.Defs
import ManifestMigration.Duration

/-! # What a short duration says

A text spells a number of seconds when it is made of decimal digits and at most one letter for a unit,
with blanks around them (`Spells`). Reading such a text gives that number, as long as it fits into 63
bits, and no other text has a reading (`seconds?_eq_some_iff_spells`).
-/

namespace ManifestMigration

variable {text before body after digits unit : List Char} {seconds total : Nat}

/-! ## Blanks around a text -/

namespace Text

/-- Trimming takes the blanks around a text that holds none. -/
theorem trim_of_solid (blankBefore : ∀ c ∈ before, isBlank c = true)
    (blankAfter : ∀ c ∈ after, isBlank c = true) (nonempty : body ≠ [])
    (solid : ∀ c ∈ body, isBlank c = false) : trim (before ++ body ++ after) = body := by
  have start : (before ++ body ++ after).dropWhile isBlank = body ++ after := by
    obtain ⟨c, rest, rfl⟩ := List.exists_cons_of_ne_nil nonempty
    have here : isBlank c = false := solid c List.mem_cons_self
    rw [List.append_assoc, List.dropWhile_append_of_pos blankBefore, List.cons_append]
    exact List.dropWhile_cons_of_neg (by simp [here])
  have blankEnd : ∀ c ∈ after.reverse, isBlank c = true := by
    intro c member
    exact blankAfter c (List.mem_reverse.mp member)
  have stop : body.reverse.dropWhile isBlank = body.reverse := by
    rw [List.dropWhile_eq_self_iff]
    intro some
    rw [solid _ (List.mem_reverse.mp (List.getElem_mem some))]
    exact Bool.false_ne_true
  rw [trim, start, List.reverse_append, List.dropWhile_append_of_pos blankEnd, stop,
    List.reverse_reverse]

/-- What trimming takes are blanks. -/
theorem exists_trim (text : List Char) :
    ∃ before after, text = before ++ trim text ++ after ∧ (∀ c ∈ before, isBlank c = true) ∧
      ∀ c ∈ after, isBlank c = true := by
  have start := List.takeWhile_append_dropWhile (p := isBlank) (l := text)
  have stop := List.takeWhile_append_dropWhile (p := isBlank) (l := (text.dropWhile isBlank).reverse)
  refine ⟨text.takeWhile isBlank, ((text.dropWhile isBlank).reverse.takeWhile isBlank).reverse, ?_,
    fun c member => List.mem_takeWhile_imp member,
    fun c member => List.mem_takeWhile_imp (List.mem_reverse.mp member)⟩
  rw [trim, List.append_assoc, ← List.reverse_append, stop, List.reverse_reverse, start]

theorem isBlank_of_isDigit {c : Char} (digit : c.isDigit = true) : isBlank c = false := by
  simp only [Char.isDigit, Bool.and_eq_true, decide_eq_true_eq] at digit
  simp only [isBlank, Bool.or_eq_false_iff, Bool.and_eq_false_iff, decide_eq_false_iff_not,
    beq_eq_false_iff_ne]
  obtain ⟨least, greatest⟩ := digit
  have low : 48 ≤ c.toNat := least
  have high : c.toNat ≤ 57 := greatest
  omega

end Text

namespace Duration

/-! ## What a text spells -/

/-- The letters of the units, small and capital, with the seconds in each. -/
def unitLetters : List (Char × Nat) :=
  [('s', 1), ('S', 1), ('m', 60), ('M', 60), ('h', 60 * 60), ('H', 60 * 60), ('d', 24 * 60 * 60),
   ('D', 24 * 60 * 60)]

/-- What stands behind the digits, with the seconds that are counted: nothing, or one letter. -/
inductive IsUnit : List Char → Nat → Prop where
  | none : IsUnit [] 1
  | letter {c : Char} {seconds : Nat} (known : (c, seconds) ∈ unitLetters) : IsUnit [c] seconds

/-- The number that digits write in the decimal system. -/
def value (digits : List Char) : Nat :=
  Nat.ofDigits 10 (digits.reverse.map fun c => c.toNat - '0'.toNat)

/-- A text spells so many seconds: blanks, some digits, perhaps a unit, and blanks. -/
inductive Spells : List Char → Nat → Prop where
  | intro {before digits unit after : List Char} {seconds : Nat}
      (blankBefore : ∀ c ∈ before, Text.isBlank c = true) (some : digits ≠ [])
      (decimal : ∀ c ∈ digits, c.isDigit = true) (counts : IsUnit unit seconds)
      (blankAfter : ∀ c ∈ after, Text.isBlank c = true) :
      Spells (before ++ (digits ++ unit) ++ after) (value digits * seconds)

/-! ## Digits and units -/

theorem decimalValue_eq_value (digits : List Char) : Text.decimalValue digits = value digits := by
  rw [value, Nat.ofDigits_eq_foldr, List.foldr_map, List.foldr_reverse, Text.decimalValue]
  congr 1
  funext n c
  exact Nat.add_comm _ _

/-- The letters that are read are those of the units. -/
theorem unitSeconds?_eq_some_iff : unitSeconds? unit = some seconds ↔ IsUnit unit seconds := by
  constructor
  · intro found
    unfold unitSeconds? at found
    split at found <;> cases found
    · exact .none
    all_goals exact .letter (by decide)
  · intro counts
    cases counts with
    | none => rfl
    | letter known =>
        simp only [unitLetters, List.mem_cons, Prod.mk.injEq, List.not_mem_nil, or_false] at known
        rcases known with known | known | known | known | known | known | known | known <;>
          obtain ⟨rfl, rfl⟩ := known <;> rfl

/-- A unit holds neither digits nor blanks. -/
theorem IsUnit.apart (counts : IsUnit unit seconds) :
    ∀ c ∈ unit, c.isDigit = false ∧ Text.isBlank c = false := by
  have letters : ∀ entry ∈ unitLetters, entry.1.isDigit = false ∧ Text.isBlank entry.1 = false := by
    decide
  cases counts with
  | none => exact List.forall_mem_nil _
  | letter known => exact List.forall_mem_singleton.mpr (letters _ known)

/-! ## Reading -/

/-- The seconds that are read, however many they are. -/
def total? (text : List Char) : Option Nat :=
  let body := Text.trim text
  let digits := body.takeWhile Char.isDigit
  if digits.isEmpty then none
  else (unitSeconds? (body.dropWhile Char.isDigit)).map (Text.decimalValue digits * ·)

theorem seconds?_eq (text : String) :
    seconds? text = (total? text.toList).bind fun total =>
      if total < Nat.pow 2 63 then some (Int64.ofNat total) else none := by
  unfold seconds? total?
  dsimp only
  split
  · rfl
  · cases unitSeconds? ((Text.trim text.toList).dropWhile Char.isDigit) <;> rfl

theorem total?_of_spells (spells : Spells text total) : total? text = some total := by
  cases spells with
  | @intro before digits unit after seconds blankBefore nonempty decimal counts blankAfter =>
      have solid : ∀ c ∈ digits ++ unit, Text.isBlank c = false := by
        intro c member
        rcases List.mem_append.mp member with inDigits | inUnit
        · exact Text.isBlank_of_isDigit (decimal c inDigits)
        · exact (counts.apart c inUnit).2
      have body : Text.trim (before ++ (digits ++ unit) ++ after) = digits ++ unit :=
        Text.trim_of_solid blankBefore blankAfter (List.append_ne_nil_of_left_ne_nil nonempty unit)
          solid
      have first : (digits ++ unit).takeWhile Char.isDigit = digits := by
        have none : unit.takeWhile Char.isDigit = [] := by
          rw [List.takeWhile_eq_nil_iff]
          intro some
          rw [(counts.apart _ (List.get_mem unit ⟨0, some⟩)).1]
          exact Bool.false_ne_true
        rw [List.takeWhile_append_of_pos decimal, none, List.append_nil]
      have last : (digits ++ unit).dropWhile Char.isDigit = unit := by
        rw [List.dropWhile_append_of_pos decimal, List.dropWhile_eq_self_iff]
        intro some
        rw [(counts.apart _ (List.getElem_mem some)).1]
        exact Bool.false_ne_true
      have some : digits.isEmpty = false := by simpa using nonempty
      simp only [total?, body, first, last, some, unitSeconds?_eq_some_iff.mpr counts,
        decimalValue_eq_value]
      rfl

theorem spells_of_total? (found : total? text = some total) : Spells text total := by
  obtain ⟨before, after, split, blankBefore, blankAfter⟩ := Text.exists_trim text
  have parts := List.takeWhile_append_dropWhile (p := Char.isDigit) (l := Text.trim text)
  simp only [total?] at found
  split at found
  · cases found
  · next some =>
      obtain ⟨seconds, counts, rfl⟩ := Option.map_eq_some_iff.mp found
      have nonempty : (Text.trim text).takeWhile Char.isDigit ≠ [] := by simpa using some
      have spells := Spells.intro blankBefore nonempty (List.all_eq_true.mp List.all_takeWhile)
        (unitSeconds?_eq_some_iff.mp counts) blankAfter
      rwa [parts, ← split, ← decimalValue_eq_value] at spells

theorem total?_eq_some_iff : total? text = some total ↔ Spells text total :=
  ⟨spells_of_total?, total?_of_spells⟩

theorem le_maxValue_iff : (total : Int) ≤ Int64.maxValue.toInt ↔ total < Nat.pow 2 63 := by
  have bound : Nat.pow 2 63 = 9223372036854775808 := by decide
  rw [Int64.toInt_maxValue, bound]
  omega

/-- A text that spells a number of seconds within the signed 64-bit range is read as that number, and
    nothing else is read. -/
theorem seconds?_eq_some_iff_spells (text : String) :
    (∀ n, seconds? text = some n ↔
      ∃ total, Spells text.toList total ∧ (total : Int) ≤ Int64.maxValue.toInt ∧ n.toInt = total) ∧
    (seconds? text = none ↔
      ¬ ∃ total, Spells text.toList total ∧ (total : Int) ≤ Int64.maxValue.toInt) := by
  simp only [seconds?_eq, ← total?_eq_some_iff, le_maxValue_iff]
  cases found : total? text.toList with
  | none => simp
  | some total =>
      by_cases fits : total < Nat.pow 2 63
      · have kept : (Int64.ofNat total).toInt = total := Int64.toInt_ofNat_of_lt fits
        rw [Option.bind_some, if_pos fits]
        constructor
        · intro n
          simp only [Option.some.injEq, exists_eq_left', fits, true_and]
          rw [← kept, Int64.toInt_inj, eq_comm]
        · simp [fits]
      · simp [fits]

/-- The most days that fit, behind leading zeros and a space that does not break; one more day does
    not fit. -/
example : seconds? "\u00a00000106751991167300D\n" = some 9223372036854720000 ∧
    seconds? "106751991167301d" = none := by
  decide +kernel

end Duration

end ManifestMigration
