import ManifestMigration.Json.Parse
import ManifestMigration.Json.Print

/-! # Strings through JSON

A printed string is read back as it was. Each character is written in one of four ways: behind a
backslash as a letter, behind a backslash as a code, or as it is, and the reader tells them apart by
what comes first. No two characters share an escape.
-/

namespace ManifestMigration.Json

variable {c : Char} {rest : List Char}

/-- What a reader returns when one more character stands before what it has read. -/
def prepend (c : Char) (result : List Char × List Char) : List Char × List Char :=
  (c :: result.1, result.2)

theorem skipBlanks_cons (solid : isBlank c = false) (rest : List Char) :
    skipBlanks (c :: rest) = c :: rest :=
  List.dropWhile_cons_of_neg (by simp [solid])

/-! ## One character -/

theorem readString_quote (rest : List Char) : readString ('"' :: rest) = some ([], rest) := by
  rw [readString]

theorem readString_letter {letter : Char} (stands : escapedChar? letter = some c) :
    readString ('\\' :: letter :: rest) = (readString rest).map (prepend c) := by
  have notCode : letter ≠ 'u' := by
    rintro rfl
    cases stands
  rw [readString, stands]
  · rfl
  · exact fun _ _ _ _ _ isCode _ => notCode isCode

theorem readString_code {a b : Char} (control : c.toNat < 0x20)
    (code : Text.digits? 16 ['0', '0', a, b] = some c.toNat) :
    readString ('\\' :: 'u' :: '0' :: '0' :: a :: b :: rest) =
      (readString rest).map (prepend c) := by
  have notLow : isLowHalf c.toNat = false := by
    simp only [isLowHalf, Bool.and_eq_false_iff, decide_eq_false_iff_not]
    omega
  have notHigh : isHighHalf c.toNat = false := by
    simp only [isHighHalf, Bool.and_eq_false_iff, decide_eq_false_iff_not]
    omega
  rw [readString, code]
  simp only [notLow, notHigh, Bool.false_eq_true, if_false, Char.ofNat_toNat]
  rfl

theorem readString_plain (notQuote : c ≠ '"') (notBackslash : c ≠ '\\')
    (printable : 0x20 ≤ c.toNat) :
    readString (c :: rest) = (readString rest).map (prepend c) := by
  have plain : (decide (c = '\\') || decide (c.toNat < 0x20)) = false := by
    simp [notBackslash, printable]
  rw [readString, plain]
  · rfl
  · exact notQuote
  · exact fun _ _ _ _ _ isBackslash _ => notBackslash isBackslash
  · exact fun _ _ isBackslash _ => notBackslash isBackslash

/-- The code of a control character has four digits of base sixteen. -/
theorem digits?_code (control : c.toNat < 0x20) :
    Text.digits? 16 ['0', '0', Nat.digitChar (c.toNat / 16), Nat.digitChar (c.toNat % 16)] =
      some c.toNat := by
  revert control
  generalize c.toNat = n
  revert n
  decide

theorem readString_escapeChar (c : Char) (rest : List Char) :
    readString (escapeChar c ++ rest) = (readString rest).map (prepend c) := by
  unfold escapeChar
  split
  · next isQuote => exact readString_letter (congrArg some isQuote.symm)
  split
  · next isBackslash => exact readString_letter (congrArg some isBackslash.symm)
  split
  · next isBackspace => exact readString_letter (congrArg some (isBackspace ▸ Char.ofNat_toNat c))
  split
  · next isFormFeed => exact readString_letter (congrArg some (isFormFeed ▸ Char.ofNat_toNat c))
  split
  · next isNewline => exact readString_letter (congrArg some isNewline.symm)
  split
  · next isReturn => exact readString_letter (congrArg some isReturn.symm)
  split
  · next isTab => exact readString_letter (congrArg some isTab.symm)
  split
  · next control => exact readString_code control (digits?_code control)
  · next notQuote notBackslash _ _ _ _ _ notControl =>
      exact readString_plain notQuote notBackslash (Nat.not_lt.mp notControl)

/-! ## All characters -/

theorem readString_escaped (text rest : List Char) :
    readString (text.flatMap escapeChar ++ '"' :: rest) = some (text, rest) := by
  induction text with
  | nil => exact readString_quote rest
  | cons c text ih =>
      rw [List.flatMap_cons, List.append_assoc, readString_escapeChar, ih]
      rfl

theorem printString_append (text : String) (rest : List Char) :
    printString text ++ rest = '"' :: (text.toList.flatMap escapeChar ++ '"' :: rest) := by
  simp [printString]

end ManifestMigration.Json
