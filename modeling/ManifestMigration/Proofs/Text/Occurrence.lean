import ManifestMigration.Text.Occurrence

/-! # Texts without a needle

Replacing a needle leaves no needle behind, as long as the replacement neither holds one nor makes
one together with what stands beside it. The overlaps that would make one are ruled out by `Apart`.
-/

namespace ManifestMigration.Text

variable {needle replacement text part : List Char}

theorem occursIn_iff : occursIn needle text = true ↔ needle <:+: text := by
  induction text with
  | nil => simp [occursIn]
  | cons c rest ih =>
      rw [occursIn, Bool.or_eq_true, List.isPrefixOf_iff_prefix, ih, List.infix_cons_iff]

/-! ## Replacing, step by step -/

theorem replaceAfter_eq (skip : Nat) (text : List Char) :
    replaceAfter needle replacement skip text =
      replaceAll needle replacement (text.drop skip) := by
  induction skip generalizing text with
  | zero => rfl
  | succ skip ih =>
      cases text with
      | nil => rw [replaceAfter, List.drop_nil, replaceAll, replaceAfter]
      | cons c rest => rw [replaceAfter, ih, List.drop_succ_cons]

theorem replaceAll_nil : replaceAll needle replacement [] = [] := by
  rw [replaceAll, replaceAfter]

theorem replaceAll_of_found {c : Char} {rest : List Char} (nonempty : needle ≠ [])
    (starts : needle <+: c :: rest) :
    replaceAll needle replacement (c :: rest) =
      replacement ++ replaceAll needle replacement ((c :: rest).drop needle.length) := by
  obtain ⟨n, more, rfl⟩ := List.exists_cons_of_ne_nil nonempty
  rw [replaceAll, replaceAfter, if_pos (List.isPrefixOf_iff_prefix.mpr starts), replaceAfter_eq]
  rfl

theorem replaceAll_of_missing {c : Char} {rest : List Char} (other : ¬ needle <+: c :: rest) :
    replaceAll needle replacement (c :: rest) = c :: replaceAll needle replacement rest := by
  rw [replaceAll, replaceAfter, if_neg (mt List.isPrefixOf_iff_prefix.mp other), replaceAll]

/-! ## No occurrence left -/

/-- A needle and a replacement that do not overlap: neither holds the other, and no end of the needle
    starts the replacement, nor does any start of the needle end it. -/
structure Apart (needle replacement : List Char) : Prop where
  nonempty : needle ≠ []
  notInside : ¬ needle <:+: replacement
  notAround : ¬ replacement <:+: needle
  notBefore : ∀ part, part <:+ needle → part ≠ [] → part ≠ needle → ¬ part <+: replacement
  notAfter : ∀ part, part <+: needle → part ≠ [] → part ≠ needle → ¬ part <:+ replacement

theorem apart_of_edges (nonempty : needle ≠ []) (notInside : occursIn needle replacement = false)
    (notAround : occursIn replacement needle = false)
    (ends : ∀ i < needle.length, 0 < i → (needle.drop i).isPrefixOf replacement = false)
    (starts : ∀ i < needle.length, 0 < i → (needle.take i).isSuffixOf replacement = false) :
    Apart needle replacement where
  nonempty := nonempty
  notInside := by
    rw [← occursIn_iff, notInside]
    exact Bool.false_ne_true
  notAround := by
    rw [← occursIn_iff, notAround]
    exact Bool.false_ne_true
  notBefore := by
    intro part suffix some proper
    have positive : 0 < part.length := List.length_pos_iff.mpr some
    have shorter : part.length < needle.length :=
      Nat.lt_of_le_of_ne suffix.length_le (mt suffix.eq_of_length proper)
    rw [List.suffix_iff_eq_drop.mp suffix, ← List.isPrefixOf_iff_prefix,
      ends (needle.length - part.length) (by omega) (by omega)]
    exact Bool.false_ne_true
  notAfter := by
    intro part start some proper
    have positive : 0 < part.length := List.length_pos_iff.mpr some
    have shorter : part.length < needle.length :=
      Nat.lt_of_le_of_ne start.length_le (mt start.eq_of_length proper)
    rw [List.prefix_iff_eq_take.mp start, ← List.isSuffixOf_iff_suffix,
      starts part.length shorter positive]
    exact Bool.false_ne_true

namespace Apart

/-- An end of the needle that starts the new text has started the old one. -/
theorem prefix_of_prefix_replaceAll (apart : Apart needle replacement) (ends : part <:+ needle)
    (proper : part ≠ needle) (starts : part <+: replaceAll needle replacement text) :
    part <+: text := by
  induction text generalizing part with
  | nil => rwa [replaceAll_nil] at starts
  | cons c rest ih =>
      by_cases found : needle <+: c :: rest
      · rw [replaceAll_of_found apart.nonempty found] at starts
        -- The new text starts with the replacement, so one of the two starts the other.
        rcases List.prefix_or_prefix_of_prefix starts (List.prefix_append _ _) with within | around
        · by_cases empty : part = []
          · exact empty ▸ List.nil_prefix
          · exact absurd within (apart.notBefore part ends empty proper)
        · exact absurd (around.isInfix.trans ends.isInfix) apart.notAround
      · rw [replaceAll_of_missing found] at starts
        cases part with
        | nil => exact List.nil_prefix
        | cons p more =>
            obtain ⟨rfl, startsRest⟩ := List.cons_prefix_cons.mp starts
            have shorter : more.length < needle.length := ends.length_le
            have moreProper : more ≠ needle := by
              rintro rfl
              exact Nat.lt_irrefl _ shorter
            have moreEnds : more <:+ needle := (List.suffix_cons p more).trans ends
            exact List.cons_prefix_cons.mpr ⟨rfl, ih moreEnds moreProper startsRest⟩

/-- A needle in a replacement and a text behind it lies in that text. -/
theorem infix_of_infix_append (apart : Apart needle replacement)
    (occurs : needle <:+: replacement ++ text) : needle <:+: text := by
  obtain ⟨before, after, split⟩ := occurs
  rw [List.append_assoc, List.append_eq_append_iff] at split
  rcases split with ⟨gap, around, behind⟩ | ⟨gap, -, behind⟩
  · rcases List.append_eq_append_iff.mp behind with ⟨gap', within, -⟩ | ⟨gap', halves, later⟩
    · exact absurd ⟨before, gap', by rw [around, within, List.append_assoc]⟩ apart.notInside
    · by_cases empty : gap = []
      · refine ⟨[], after, ?_⟩
        rw [later, halves, empty]
        rfl
      · by_cases whole : gap = needle
        · exact absurd ⟨before, [], by rw [around, whole, List.append_nil]⟩ apart.notInside
        · exact absurd ⟨before, around.symm⟩
            (apart.notAfter gap ⟨gap', halves.symm⟩ empty whole)
  · exact ⟨gap, after, by rw [behind, List.append_assoc]⟩

theorem not_infix_replaceAll (apart : Apart needle replacement) (text : List Char) :
    ¬ needle <:+: replaceAll needle replacement text := by
  match text with
  | [] =>
      rw [replaceAll_nil, List.infix_nil]
      exact apart.nonempty
  | c :: rest =>
      intro occurs
      by_cases found : needle <+: c :: rest
      · rw [replaceAll_of_found apart.nonempty found] at occurs
        exact not_infix_replaceAll apart ((c :: rest).drop needle.length)
          (apart.infix_of_infix_append occurs)
      · rw [replaceAll_of_missing found] at occurs
        rcases List.infix_cons_iff.mp occurs with starts | later
        · -- The needle would stand there after the replacing, but not before it.
          obtain ⟨n, more, rfl⟩ := List.exists_cons_of_ne_nil apart.nonempty
          obtain ⟨rfl, startsRest⟩ := List.cons_prefix_cons.mp starts
          have proper : more ≠ n :: more := (List.cons_ne_self n more).symm
          have startsOld : more <+: rest :=
            apart.prefix_of_prefix_replaceAll (List.suffix_cons n more) proper startsRest
          exact found (List.cons_prefix_cons.mpr ⟨rfl, startsOld⟩)
        · exact not_infix_replaceAll apart rest later
termination_by text.length
decreasing_by
  · have := List.length_pos_iff.mpr apart.nonempty
    simp only [List.length_drop, List.length_cons]
    omega
  · exact Nat.lt_succ_self _

end Apart

end ManifestMigration.Text
