import ManifestMigration.Proofs.Document.Mappings
import ManifestMigration.Proofs.Text.Occurrence
import ManifestMigration.Schema

/-! # Where the group of a reference comes from

The version of a reference names a group, or its kind has a fixed one, or its kind looks like one of
an infrastructure provider. The sources are asked in this order and the first one that knows decides
(`inferGroup?_eq_iff`). What they name is not empty and holds no slash.
-/

namespace ManifestMigration.Schema

variable {reference : Mapping} {version kind group : String}

/-- The version of the reference starts with the group and a slash. -/
def VersionNames (reference : Mapping) (group : String) : Prop :=
  group ≠ "" ∧ '/' ∉ group.toList ∧
    ∃ rest, reference.get? "apiVersion" = some (.string (group ++ "/" ++ rest))

/-- The group is the fixed one of exactly the kind of the reference. -/
def KindFixes (reference : Mapping) (group : String) : Prop :=
  ∃ kind, reference.get? "kind" = some (.string kind) ∧ (kind, group) ∈ kindGroups

/-- The kind of the reference looks like one of an infrastructure provider. -/
def LooksLikeInfrastructure (reference : Mapping) : Prop :=
  ∃ kind, reference.get? "kind" = some (.string kind) ∧
    ((∃ fragment ∈ ["HCloud", "Hetzner", "BareMetal", "BM"], fragment.toList <:+: kind.toList) ∨
      ∃ ending ∈ ["Cluster", "MachineTemplate"], ending.toList <:+ kind.toList)

/-- The first source that knows the group of a reference. -/
inductive Infers (reference : Mapping) : Option String → Prop where
  | version {group : String} (names : VersionNames reference group) : Infers reference (some group)
  | table {group : String} (noVersion : ∀ other, ¬ VersionNames reference other)
      (fixed : KindFixes reference group) : Infers reference (some group)
  | look (noVersion : ∀ other, ¬ VersionNames reference other)
      (noTable : ∀ other, ¬ KindFixes reference other)
      (looks : LooksLikeInfrastructure reference) : Infers reference (some infrastructureGroup)
  | unknown (noVersion : ∀ other, ¬ VersionNames reference other)
      (noTable : ∀ other, ¬ KindFixes reference other)
      (noLook : ¬ LooksLikeInfrastructure reference) : Infers reference none

/-! ## The sources -/

theorem groupOfVersion?_eq_some_iff :
    groupOfVersion? version = some group ↔
      group ≠ "" ∧ '/' ∉ group.toList ∧ ∃ rest, version = group ++ "/" ++ rest := by
  have written (rest : String) :
      version = group ++ "/" ++ rest ↔ version.toList = group.toList ++ '/' :: rest.toList := by
    rw [← String.toList_inj]
    simp
  unfold groupOfVersion?
  constructor
  · intro found
    split at found
    · next c before after split =>
        obtain rfl : String.ofList (c :: before) = group := Option.some.inj found
        obtain ⟨text, free⟩ := Text.splitOnce_eq_some_iff.mp split
        refine ⟨?_, by rwa [String.toList_ofList], String.ofList after, ?_⟩
        · intro empty
          rw [← String.toList_inj, String.toList_ofList] at empty
          cases empty
        · rw [written, String.toList_ofList, String.toList_ofList, text]
    · cases found
  · rintro ⟨nonempty, free, rest, text⟩
    rw [Text.splitOnce_eq_some_iff.mpr ⟨(written rest).mp text, free⟩]
    have some : group.toList ≠ [] := mt String.toList_eq_nil_iff.mp nonempty
    obtain ⟨c, before, chars⟩ := List.exists_cons_of_ne_nil some
    simp only [chars]
    rw [← chars, String.ofList_toList]

theorem versionNames_iff :
    VersionNames reference group ↔
      (reference.string? "apiVersion").bind groupOfVersion? = some group := by
  simp only [Option.bind_eq_some_iff, groupOfVersion?_eq_some_iff, Dict.string?_eq_some_iff]
  constructor
  · rintro ⟨nonempty, free, rest, stored⟩
    exact ⟨_, stored, nonempty, free, rest, rfl⟩
  · rintro ⟨version, stored, nonempty, free, rest, rfl⟩
    exact ⟨nonempty, free, rest, stored⟩

theorem lookup_kindGroups_iff : kindGroups.lookup kind = some group ↔ (kind, group) ∈ kindGroups := by
  have distinct : (⟨kindGroups⟩ : Dict String).keys.Nodup := by decide
  exact ⟨Dict.mem_of_lookup, Dict.get?_of_mem distinct⟩

theorem isInfrastructureKind_iff :
    isInfrastructureKind kind = true ↔
      (∃ fragment ∈ infrastructureFragments, fragment.toList <:+: kind.toList) ∨
        ∃ ending ∈ infrastructureEndings, ending.toList <:+ kind.toList := by
  simp only [isInfrastructureKind, Bool.or_eq_true, List.any_eq_true, Text.occursIn_iff,
    List.isSuffixOf_iff_suffix]

theorem looksLikeInfrastructure_iff :
    LooksLikeInfrastructure reference ↔
      ∃ kind, reference.string? "kind" = some kind ∧ isInfrastructureKind kind = true := by
  simp only [Dict.string?_eq_some_iff, isInfrastructureKind_iff]
  rfl

theorem kindFixes_iff :
    KindFixes reference group ↔
      ∃ kind, reference.string? "kind" = some kind ∧ kindGroups.lookup kind = some group := by
  simp only [Dict.string?_eq_some_iff, lookup_kindGroups_iff]
  rfl

/-! ## Their order -/

theorem infers_inferGroup? (reference : Mapping) : Infers reference (inferGroup? reference) := by
  unfold inferGroup?
  split
  · next group named => exact .version (versionNames_iff.mpr named)
  · next unnamed =>
      have noVersion : ∀ other, ¬ VersionNames reference other := by
        intro other names
        cases unnamed.symm.trans (versionNames_iff.mp names)
      cases kindText : reference.string? "kind" with
      | none =>
          refine .unknown noVersion ?_ ?_
          · intro other fixed
            obtain ⟨kind, stored, -⟩ := kindFixes_iff.mp fixed
            cases kindText.symm.trans stored
          · intro looks
            obtain ⟨kind, stored, -⟩ := looksLikeInfrastructure_iff.mp looks
            cases kindText.symm.trans stored
      | some kind =>
          rw [Option.bind_some, groupOfKind?]
          cases tabled : kindGroups.lookup kind with
          | some group => exact .table noVersion (kindFixes_iff.mpr ⟨kind, kindText, tabled⟩)
          | none =>
              have noTable : ∀ other, ¬ KindFixes reference other := by
                intro other fixed
                obtain ⟨kind', stored, found⟩ := kindFixes_iff.mp fixed
                obtain rfl : kind = kind' := Option.some.inj (kindText.symm.trans stored)
                cases tabled.symm.trans found
              have looks : LooksLikeInfrastructure reference ↔ isInfrastructureKind kind = true := by
                rw [looksLikeInfrastructure_iff, kindText]
                simp
              by_cases isOne : isInfrastructureKind kind = true
              · simp only [if_pos isOne]
                exact .look noVersion noTable (looks.mpr isOne)
              · simp only [if_neg isOne]
                exact .unknown noVersion noTable (mt looks.mp isOne)

theorem VersionNames.unique {other : String} (names : VersionNames reference group)
    (names' : VersionNames reference other) : group = other :=
  Option.some.inj ((versionNames_iff.mp names).symm.trans (versionNames_iff.mp names'))

theorem KindFixes.unique {other : String} (fixed : KindFixes reference group)
    (fixed' : KindFixes reference other) : group = other := by
  obtain ⟨kind, stored, found⟩ := kindFixes_iff.mp fixed
  obtain ⟨kind', stored', found'⟩ := kindFixes_iff.mp fixed'
  obtain rfl : kind = kind' := Option.some.inj (stored.symm.trans stored')
  exact Option.some.inj (found.symm.trans found')

/-- The sources and their order leave no choice. -/
theorem Infers.unique {first second : Option String} (infers : Infers reference first)
    (infers' : Infers reference second) : first = second := by
  cases infers with
  | version names =>
      cases infers' with
      | version names' => exact congrArg some (names.unique names')
      | table noVersion _ | look noVersion _ _ | unknown noVersion _ _ =>
          exact absurd names (noVersion _)
  | table noVersion fixed =>
      cases infers' with
      | version names => exact absurd names (noVersion _)
      | table _ fixed' => exact congrArg some (fixed.unique fixed')
      | look _ noTable _ | unknown _ noTable _ => exact absurd fixed (noTable _)
  | look noVersion noTable looks =>
      cases infers' with
      | version names => exact absurd names (noVersion _)
      | table _ fixed => exact absurd fixed (noTable _)
      | look => rfl
      | unknown _ _ noLook => exact absurd looks noLook
  | unknown noVersion noTable noLook =>
      cases infers' with
      | version names => exact absurd names (noVersion _)
      | table _ fixed => exact absurd fixed (noTable _)
      | look _ _ looks => exact absurd looks noLook
      | unknown => rfl

theorem inferGroup?_eq_iff {group? : Option String} :
    inferGroup? reference = group? ↔ Infers reference group? := by
  constructor
  · rintro rfl
    exact infers_inferGroup? reference
  · exact (infers_inferGroup? reference).unique

/-- A group that is inferred is a text without slashes, and not the empty one. -/
theorem Infers.isName (infers : Infers reference (some group)) :
    group ≠ "" ∧ '/' ∉ group.toList := by
  have tabled : ∀ entry ∈ kindGroups, entry.2 ≠ "" ∧ '/' ∉ entry.2.toList := by decide
  cases infers with
  | version names => exact ⟨names.1, names.2.1⟩
  | table _ fixed =>
      obtain ⟨kind, -, member⟩ := fixed
      exact tabled _ member
  | look => decide

end ManifestMigration.Schema
