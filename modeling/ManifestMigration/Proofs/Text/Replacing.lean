import ManifestMigration.Proofs.Text.Occurrence

/-! # What replacing does to a text

A text is gone through from left to right: where the needle stands, its replacement is written, and
everywhere else a character is kept (`replacing_induction`). So what is kept is the text before each
occurrence, the first one counting (`Rewritten`). What a needle and its replacement have in common
the text and the new text have in common as well: a blurred view that does not tell the two apart
(`map_replaceAll`), and the text before a separator (`before_separator_replaceAll`). Where they
differ, the two texts differ, too, unless the needle is nowhere (`replaceAll_eq_self_iff`).
-/

namespace ManifestMigration.Text

variable {needle replacement text text' word : List Char}

/-- What holds of a text when it holds behind a needle, and behind a character at which no needle
    starts, holds of every text. -/
theorem replacing_induction {P : List Char → Prop} (nonempty : needle ≠ []) (nil : P [])
    (found : ∀ rest, P rest → P (needle ++ rest))
    (missing : ∀ c rest, ¬ needle <+: c :: rest → P rest → P (c :: rest)) (text : List Char) :
    P text := by
  match text with
  | [] => exact nil
  | c :: rest =>
      by_cases starts : needle <+: c :: rest
      · obtain ⟨behind, split⟩ := starts
        rw [← split]
        exact found behind (replacing_induction nonempty nil found missing behind)
      · exact missing c rest starts (replacing_induction nonempty nil found missing rest)
termination_by text.length
decreasing_by
  · have some := List.length_pos_iff.mpr nonempty
    rw [← split, List.length_append]
    omega
  · exact Nat.lt_succ_self _

theorem replaceAll_append (nonempty : needle ≠ []) (rest : List Char) :
    replaceAll needle replacement (needle ++ rest) =
      replacement ++ replaceAll needle replacement rest := by
  obtain ⟨n, more, rfl⟩ := List.exists_cons_of_ne_nil nonempty
  have starts : n :: more <+: n :: (more ++ rest) := ⟨rest, rfl⟩
  rw [List.cons_append, replaceAll_of_found nonempty starts, ← List.cons_append, List.drop_left]

/-! ## Pieces -/

/-- The second text is the first one with the occurrences of the needle replaced, each time the first
    one that does not overlap those before it. -/
inductive Rewritten (needle replacement : List Char) : List Char → List Char → Prop where
  | still {text : List Char} (free : ¬ needle <:+: text) :
      Rewritten needle replacement text text
  | found (before : List Char) {rest rest' : List Char} (first : ¬ needle <:+: before ++ needle.dropLast)
      (more : Rewritten needle replacement rest rest') :
      Rewritten needle replacement (before ++ needle ++ rest) (before ++ replacement ++ rest')

theorem Rewritten.cons {c : Char} (rewritten : Rewritten needle replacement text text')
    (other : ¬ needle <+: c :: text) :
    Rewritten needle replacement (c :: text) (c :: text') := by
  cases rewritten with
  | still free =>
      refine .still fun occurs => ?_
      exact (List.infix_cons_iff.mp occurs).elim other free
  | @found before rest rest' first more =>
      refine .found (c :: before) (fun occurs => ?_) more
      rcases List.infix_cons_iff.mp occurs with starts | later
      · -- A needle that starts here would lie before the end of the one that was found.
        have shorter : c :: (before ++ needle.dropLast) <+: c :: (before ++ needle ++ rest) := by
          rw [List.cons_prefix_cons, List.append_assoc, List.prefix_append_right_inj]
          exact ⟨rfl, (List.dropLast_prefix needle).trans (List.prefix_append _ _)⟩
        exact other (starts.trans shorter)
      · exact first later

theorem rewritten_replaceAll (nonempty : needle ≠ []) (text : List Char) :
    Rewritten needle replacement text (replaceAll needle replacement text) := by
  induction text using replacing_induction nonempty with
  | nil =>
      rw [replaceAll_nil]
      exact .still (mt List.infix_nil.mp nonempty)
  | found rest ih =>
      rw [replaceAll_append nonempty]
      refine .found [] (fun occurs => ?_) ih
      have longer := occurs.length_le
      have some := List.length_pos_iff.mpr nonempty
      rw [List.nil_append, List.length_dropLast] at longer
      omega
  | missing c rest other ih =>
      rw [replaceAll_of_missing other]
      exact ih.cons other

/-! ## What changes -/

/-- Every replacing changes the length of the text by as much. -/
theorem Rewritten.length_eq (rewritten : Rewritten needle replacement text text') :
    ∃ times, text'.length + times * needle.length = text.length + times * replacement.length := by
  induction rewritten with
  | still => exact ⟨0, by omega⟩
  | found before first more ih =>
      obtain ⟨times, balance⟩ := ih
      refine ⟨times + 1, ?_⟩
      simp only [List.length_append, Nat.add_mul, Nat.one_mul]
      omega

/-- A needle that is replaced by something else has not occurred in a text that stays. -/
theorem Rewritten.free_of_same (rewritten : Rewritten needle replacement text text')
    (differs : needle ≠ replacement) (same : text' = text) : ¬ needle <:+: text := by
  cases rewritten with
  | still free => exact free
  | @found before rest rest' first more =>
      have behind : replacement ++ rest' = needle ++ rest := by
        rw [List.append_assoc, List.append_assoc] at same
        exact List.append_cancel_left same
      obtain ⟨times, balance⟩ := more.length_eq
      -- All replacings change the length in one direction, so none of them changes it.
      have total : (times + 1) * needle.length = (times + 1) * replacement.length := by
        have sum := congrArg List.length behind
        simp only [List.length_append] at sum
        rw [Nat.add_mul, Nat.add_mul]
        omega
      have length : replacement.length = needle.length :=
        (Nat.eq_of_mul_eq_mul_left (Nat.succ_pos times) total).symm
      exact absurd (List.append_inj_left behind length).symm differs

theorem replaceAll_of_free (free : ¬ needle <:+: text) :
    replaceAll needle replacement text = text := by
  induction text with
  | nil => exact replaceAll_nil
  | cons c rest ih =>
      obtain ⟨other, freeRest⟩ := not_or.mp (mt List.infix_cons_iff.mpr free)
      rw [replaceAll_of_missing other, ih freeRest]

theorem replaceAll_self (nonempty : needle ≠ []) (text : List Char) :
    replaceAll needle needle text = text := by
  induction text using replacing_induction nonempty with
  | nil => exact replaceAll_nil
  | found rest ih => rw [replaceAll_append nonempty, ih]
  | missing c rest other ih => rw [replaceAll_of_missing other, ih]

/-- Replacing by something else changes exactly the texts in which the needle occurs. -/
theorem replaceAll_eq_self_iff (nonempty : needle ≠ []) (differs : needle ≠ replacement) :
    replaceAll needle replacement text = text ↔ ¬ needle <:+: text := by
  constructor
  · intro same
    exact (rewritten_replaceAll nonempty text).free_of_same differs same
  · intro free
    exact replaceAll_of_free free

/-! ## What does not change -/

/-- A view that does not tell the needle from its replacement does not tell the texts apart. -/
theorem map_replaceAll {α : Type} {f : Char → α} (nonempty : needle ≠ [])
    (same : replacement.map f = needle.map f) (text : List Char) :
    (replaceAll needle replacement text).map f = text.map f := by
  induction text using replacing_induction nonempty with
  | nil => rw [replaceAll_nil]
  | found rest ih => rw [replaceAll_append nonempty, List.map_append, List.map_append, same, ih]
  | missing c rest other ih => rw [replaceAll_of_missing other, List.map_cons, List.map_cons, ih]

/-- Replacing what holds a separator, and keeping what stands before it there, keeps what stands
    before the first separator of the text. -/
theorem before_separator_replaceAll {separator : Char} {stem tail tail' : List Char}
    (free : separator ∉ stem) (text : List Char) :
    (splitOnce separator
        (replaceAll (stem ++ separator :: tail) (stem ++ separator :: tail') text)).map (·.1) =
      (splitOnce separator text).map (·.1) := by
  have nonempty : stem ++ separator :: tail ≠ [] := List.append_ne_nil_of_right_ne_nil _ nofun
  have split (rest : List Char) : splitOnce separator (stem ++ separator :: rest) = some (stem, rest) :=
    splitOnce_eq_some_iff.mpr ⟨rfl, free⟩
  induction text using replacing_induction nonempty with
  | nil => rw [replaceAll_nil]
  | found rest _ =>
      rw [replaceAll_append nonempty]
      simp only [List.append_assoc, List.cons_append, split, Option.map_some]
  | missing c rest other ih =>
      rw [replaceAll_of_missing other, splitOnce, splitOnce]
      split
      · rfl
      · have longer := congrArg (Option.map (c :: ·)) ih
        rw [Option.map_map, Option.map_map] at longer ⊢
        exact longer

/-! ## Words that a view shows clearly -/

/-- The view tells the characters of the word from all others. -/
def Clear {α : Type} (f : Char → α) (word : List Char) : Prop := ∀ c ∈ word, ∀ d, f d = f c → d = c

section Clear

variable {α : Type} {f : Char → α} (clear : Clear f word)

include clear

theorem Clear.eq_of_map_eq (same : text.map f = word.map f) : text = word := by
  induction word generalizing text with
  | nil => exact List.map_eq_nil_iff.mp same
  | cons c rest ih =>
      obtain ⟨head, tail⟩ := List.forall_mem_cons.mp clear
      obtain ⟨d, more, rfl, first, others⟩ := List.map_eq_cons_iff.mp same
      rw [head d first, ih tail others]

theorem Clear.infix_map_iff : word.map f <:+: text.map f ↔ word <:+: text := by
  constructor
  · rintro ⟨before, after, split⟩
    obtain ⟨start, end_, rfl, inside, -⟩ := List.map_eq_append_iff.mp split.symm
    obtain ⟨front, middle, rfl, -, view⟩ := List.map_eq_append_iff.mp inside
    obtain rfl : middle = word := clear.eq_of_map_eq view
    exact ⟨front, end_, rfl⟩
  · rintro ⟨before, after, rfl⟩
    simp only [List.map_append]
    exact ⟨_, _, rfl⟩

theorem Clear.suffix_map_iff : word.map f <:+ text.map f ↔ word <:+ text := by
  constructor
  · rintro ⟨before, split⟩
    obtain ⟨front, ending, rfl, -, view⟩ := List.map_eq_append_iff.mp split.symm
    obtain rfl : ending = word := clear.eq_of_map_eq view
    exact ⟨front, rfl⟩
  · rintro ⟨before, rfl⟩
    rw [List.map_append]
    exact ⟨_, rfl⟩

end Clear

end ManifestMigration.Text
