import ManifestMigration.Proofs.Text.Replacing

/-! # Replacing line by line

A needle without a separator lies in one of the pieces between separators, so the replacing in a text
is the replacing in each of its pieces (`replaceAll_separator`). A replacement without a separator
makes no new pieces, and the pieces of the new text are those of the old one with the needle replaced
(`splitOn_replaceAll`). Lines are the pieces between line breaks.
-/

namespace ManifestMigration.Text

variable {needle replacement text : List Char} {separator : Char}

/-- What starts in front of a separator and does not hold it ends there, too. -/
theorem prefix_separator_iff (free : separator ∉ needle) (line rest : List Char) :
    needle <+: line ++ separator :: rest ↔ needle <+: line := by
  constructor
  · intro starts
    rcases List.prefix_or_prefix_of_prefix starts (List.prefix_append line _) with within | around
    · exact within
    · obtain ⟨more, rfl⟩ := around
      rw [List.prefix_append_right_inj] at starts
      cases more with
      | nil => exact (List.append_nil line).symm ▸ List.prefix_rfl
      | cons c more =>
          obtain ⟨rfl, -⟩ := List.cons_prefix_cons.mp starts
          exact absurd (List.mem_append_right line List.mem_cons_self) free
  · intro starts
    exact starts.trans (List.prefix_append line _)

/-- Before and behind a separator the needle is replaced as if nothing else were there. -/
theorem replaceAll_separator (nonempty : needle ≠ []) (free : separator ∉ needle)
    (line rest : List Char) :
    replaceAll needle replacement (line ++ separator :: rest) =
      replaceAll needle replacement line ++ separator :: replaceAll needle replacement rest := by
  induction line using replacing_induction nonempty with
  | nil =>
      have other : ¬ needle <+: separator :: rest := by
        intro starts
        exact nonempty (List.prefix_nil.mp ((prefix_separator_iff free [] rest).mp starts))
      rw [List.nil_append, replaceAll_of_missing other, replaceAll_nil, List.nil_append]
  | found line ih =>
      rw [List.append_assoc, replaceAll_append nonempty, replaceAll_append nonempty, ih,
        List.append_assoc]
  | missing c line other ih =>
      have stillOther : ¬ needle <+: c :: (line ++ separator :: rest) :=
        mt (prefix_separator_iff free (c :: line) rest).mp other
      rw [List.cons_append, replaceAll_of_missing stillOther, ih, replaceAll_of_missing other,
        List.cons_append]

/-- Replacing writes nothing but the characters of the replacement and those of the text. -/
theorem mem_replaceAll {c : Char} (nonempty : needle ≠ [])
    (written : c ∈ replaceAll needle replacement text) : c ∈ replacement ∨ c ∈ text := by
  induction text using replacing_induction nonempty with
  | nil => exact .inr (replaceAll_nil ▸ written)
  | found rest ih =>
      rw [replaceAll_append nonempty] at written
      rcases List.mem_append.mp written with here | later
      · exact .inl here
      · exact (ih later).imp_right (List.mem_append_right needle)
  | missing d rest other ih =>
      rw [replaceAll_of_missing other] at written
      rcases List.mem_cons.mp written with here | later
      · exact .inr (List.mem_cons.mpr (.inl here))
      · exact (ih later).imp_right (List.mem_cons_of_mem d)

/-! ## Pieces -/

theorem splitOn_separator (free : separator ∉ text) (rest : List Char) :
    (text ++ separator :: rest).splitOn separator = text :: rest.splitOn separator := by
  have here : (separator == separator) = true := beq_self_eq_true separator
  have split := List.splitOnP_append_cons (p := (· == separator)) text rest here
  rw [List.splitOn_eq_splitOnP, List.splitOn_eq_splitOnP, split, ← List.splitOn_eq_splitOnP,
    List.splitOn_eq_singleton free, List.singleton_append]

/-- What holds of a text without a separator, and of a first piece together with a text behind it of
    which it holds, holds of every text. -/
theorem pieces_induction {P : List Char → Prop} (separator : Char)
    (last : ∀ piece, separator ∉ piece → P piece)
    (more : ∀ piece rest, separator ∉ piece → P rest → P (piece ++ separator :: rest))
    (text : List Char) : P text := by
  by_cases occurs : separator ∈ text
  · obtain ⟨piece, rest, split, free⟩ := List.eq_append_cons_of_mem occurs
    have shorter : rest.length < text.length := by
      rw [split, List.length_append, List.length_cons]
      omega
    rw [split]
    exact more piece rest free (pieces_induction separator last more rest)
  · exact last text occurs
termination_by text.length

/-- The pieces of the new text are the pieces of the old one, each with the needle replaced. -/
theorem splitOn_replaceAll (nonempty : needle ≠ []) (free : separator ∉ needle)
    (free' : separator ∉ replacement) (text : List Char) :
    (replaceAll needle replacement text).splitOn separator =
      (text.splitOn separator).map (replaceAll needle replacement) := by
  have kept {piece : List Char} (freePiece : separator ∉ piece) :
      separator ∉ replaceAll needle replacement piece := by
    intro written
    exact (mem_replaceAll nonempty written).elim free' freePiece
  induction text using pieces_induction separator with
  | last piece freePiece =>
      rw [List.splitOn_eq_singleton (kept freePiece), List.splitOn_eq_singleton freePiece,
        List.map_singleton]
  | more piece rest freePiece ih =>
      rw [replaceAll_separator nonempty free, splitOn_separator (kept freePiece), ih,
        splitOn_separator freePiece, List.map_cons]

end ManifestMigration.Text
