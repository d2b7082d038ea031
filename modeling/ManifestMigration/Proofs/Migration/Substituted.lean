import ManifestMigration.Proofs.Migration.Rerun
import ManifestMigration.Proofs.Text.Lines

/-! # What a substitution changes, and what is reported of it

A substitution hands a text back as it is exactly where it has nothing to change in it, however the
identifier and its replacement overlap. A migration compares the two texts and so reports the same
(`reported_linewise`). When neither the identifier nor its replacement holds a line break, lines are
substituted one by one: their number stays, and so do the lines without the identifier.
-/

namespace ManifestMigration

variable {ε : Type} {s : Substitution} {text : String}

/-- The lines of a text, without the breaks between them. -/
def Text.rows (text : String) : List String := (text.toList.splitOn '\n').map String.ofList

namespace Substitution

/-- There is an identifier, it differs from its replacement, and it stands in the text. -/
structure Finds (s : Substitution) (text : String) : Prop where
  nonempty : s.replaced ≠ ""
  differs : s.replaced ≠ s.replacement
  occurs : s.replaced.toList <:+: text.toList

theorem isDue_iff_finds : s.isDue text = true ↔ s.Finds text := by
  rw [← Bool.not_eq_false, isDue_eq_false_iff, not_or, not_or, Bool.not_eq_false,
    Text.occursIn_iff]
  constructor
  · intro ⟨nonempty, differs, occurs⟩
    exact ⟨nonempty, differs, occurs⟩
  · intro found
    exact ⟨found.nonempty, found.differs, found.occurs⟩

theorem apply_of_empty (empty : s.replaced = "") (text : String) : s.apply text = text :=
  apply_of_not_due (isDue_eq_false_iff.mpr (.inl empty))

/-- Where there is nothing to change, replacing changes nothing either. -/
theorem toList_apply (nonempty : s.replaced ≠ "") (text : String) :
    (s.apply text).toList =
      Text.replaceAll s.replaced.toList s.replacement.toList text.toList := by
  cases due : s.isDue text with
  | true => rw [apply_of_due due, String.toList_ofList]
  | false =>
      rw [apply_of_not_due due]
      rcases isDue_eq_false_iff.mp due with empty | same | free
      · exact absurd empty nonempty
      · have needle : s.replaced.toList ≠ [] := mt String.toList_eq_nil_iff.mp nonempty
        rw [← same, Text.replaceAll_self needle]
      · have absent : ¬ s.replaced.toList <:+: text.toList :=
          mt Text.occursIn_iff.mpr (Bool.eq_false_iff.mp free)
        exact (Text.replaceAll_of_free absent).symm

theorem apply_eq_self_iff : s.apply text = text ↔ s.isDue text = false := by
  constructor
  · intro same
    rw [Bool.eq_false_iff, Ne, isDue_iff_finds]
    intro found
    have needle : s.replaced.toList ≠ [] := mt String.toList_eq_nil_iff.mp found.nonempty
    have differs : s.replaced.toList ≠ s.replacement.toList := mt String.toList_inj.mp found.differs
    have kept := toList_apply found.nonempty text
    rw [same] at kept
    exact (Text.replaceAll_eq_self_iff needle differs).mp kept.symm found.occurs
  · exact apply_of_not_due

/-! ## Lines -/

/-- A substitution in a text is the substitution in each of its lines. -/
structure Linewise (s : Substitution) : Prop where
  join : ∀ before after,
    s.apply (before ++ "\n" ++ after) = s.apply before ++ "\n" ++ s.apply after
  rows : ∀ text, Text.rows (s.apply text) = (Text.rows text).map s.apply
  /-- There are as many lines as before. -/
  count : ∀ text, (Text.rows (s.apply text)).length = (Text.rows text).length
  /-- A line without the identifier stays where it is and as it is. -/
  kept : ∀ text (i : Nat) line, (Text.rows text)[i]? = some line →
    ¬ s.replaced.toList <:+: line.toList → (Text.rows (s.apply text))[i]? = some line

section Lines

variable (free : '\n' ∉ s.replaced.toList) (free' : '\n' ∉ s.replacement.toList)

include free

theorem apply_join (before after : String) :
    s.apply (before ++ "\n" ++ after) = s.apply before ++ "\n" ++ s.apply after := by
  by_cases empty : s.replaced = ""
  · rw [apply_of_empty empty, apply_of_empty empty, apply_of_empty empty]
  · have needle : s.replaced.toList ≠ [] := mt String.toList_eq_nil_iff.mp empty
    have lineBreak : "\n".toList = ['\n'] := rfl
    rw [← String.toList_inj]
    simp only [toList_apply empty, String.toList_append, lineBreak, List.append_assoc,
      List.singleton_append]
    exact Text.replaceAll_separator needle free before.toList after.toList

include free'

theorem rows_apply (text : String) : Text.rows (s.apply text) = (Text.rows text).map s.apply := by
  by_cases empty : s.replaced = ""
  · have still : s.apply = id := funext (apply_of_empty empty)
    rw [still, List.map_id, id]
  · have needle : s.replaced.toList ≠ [] := mt String.toList_eq_nil_iff.mp empty
    have piece (line : List Char) : s.apply (String.ofList line) =
        String.ofList (Text.replaceAll s.replaced.toList s.replacement.toList line) := by
      rw [← String.toList_inj, toList_apply empty, String.toList_ofList, String.toList_ofList]
    rw [Text.rows, Text.rows, toList_apply empty, Text.splitOn_replaceAll needle free free',
      List.map_map, List.map_map]
    exact List.map_congr_left fun line _ => (piece line).symm

theorem linewise : s.Linewise where
  join := apply_join free
  rows := rows_apply free free'
  count := by
    intro text
    rw [rows_apply free free', List.length_map]
  kept := by
    intro text i line found absent
    have same : s.apply line = line := by
      rw [apply_eq_self_iff, isDue_eq_false_iff]
      exact .inr (.inr (Bool.eq_false_iff.mpr (mt Text.occursIn_iff.mp absent)))
    rw [rows_apply free free', List.getElem?_map, found, Option.map_some, same]

end Lines

/-- A text is handed back exactly where the result is the text itself, and a migration reports a
    substitution exactly where there is something to substitute. Without line breaks in the
    identifier and its replacement, lines are substituted one by one. -/
theorem reported_linewise (s : Substitution) :
    (∀ text, s.isDue text = false ↔ s.apply text = text) ∧
    (∀ (codec : Codec ε) (engine : Engine) text m,
      (migrateTextWith codec engine s text).result = .ok m → (m.substituted = true ↔ s.Finds text)) ∧
    ('\n' ∉ s.replaced.toList → '\n' ∉ s.replacement.toList → s.Linewise) := by
  refine ⟨fun text => apply_eq_self_iff.symm, ?_, fun free free' => linewise free free'⟩
  intro codec engine text m done
  obtain ⟨documents, output, -, -, -, rfl⟩ := exists_of_migrateTextWith done
  rw [← isDue_iff_finds, bne_iff_ne, Ne, apply_eq_self_iff, Bool.not_eq_false]

/-- The identifier overlaps itself and holds its replacement, and the new text holds it again. -/
theorem reported_linewise_overlap :
    let s : Substitution := ⟨"aa", "a"⟩
    let text := "# aaa\nb: aa\nc: 1\n"
    s.apply text = "# aa\nb: a\nc: 1\n" ∧ s.isDue text = true ∧
      (∃ m, (migrateText Yaml.codec Rule.all s text).result = .ok m ∧ m.substituted = true) ∧
      s.Linewise ∧ (Text.rows text)[2]? = some "c: 1" ∧
      (Text.rows (s.apply text))[2]? = some "c: 1" := by
  intro s text
  have applied : s.apply text = "# aa\nb: a\nc: 1\n" := by decide +kernel
  let document := Node.mapping ⟨[("b", .string "a"), ("c", .integer 1)]⟩
  have loaded : Yaml.codec.load (s.apply text) = .ok [document] := by decide +kernel
  have settled : document.Settled Rule.all := by decide +kernel
  have done := migrateText_of_settled loaded (List.forall_mem_singleton.mpr settled)
  obtain ⟨handedBack, reported, lines⟩ := reported_linewise s
  have changed : s.apply text ≠ text := by
    rw [applied]
    decide +kernel
  have due : s.isDue text = true := by
    rw [← Bool.not_eq_false]
    exact mt (handedBack text).mp changed
  have linewise : s.Linewise := lines (by decide) (by decide)
  have third : (Text.rows text)[2]? = some "c: 1" := by decide +kernel
  refine ⟨applied, due, ⟨_, done, ?_⟩, linewise, third, linewise.kept text 2 _ third (by decide)⟩
  exact (reported _ _ _ _ done).mpr (isDue_iff_finds.mp due)

end Substitution

end ManifestMigration
