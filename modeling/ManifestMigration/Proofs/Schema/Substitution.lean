import ManifestMigration.Proofs.Document.Equality
import ManifestMigration.Proofs.Schema.Inference
import ManifestMigration.Proofs.Text.Replacing
import ManifestMigration.Substitution

/-! # Groups through the substitution

The default substitution is made in the text before references are read from it, so inference sees
what it has left. It changes no group (`inferGroup?_inReference`). In a version it changes nothing
before the first slash, since the identifiers of the two schema versions agree there. In a kind it
changes one digit for another, and no word by which kinds are known has a digit.
-/

namespace ManifestMigration

namespace Substitution

/-- The text of a string with the identifier replaced; any other value as it is. -/
def inString (s : Substitution) : Node → Node
  | .scalar (.string text) => .string (s.apply text)
  | value => value

def inReference (s : Substitution) (reference : Mapping) : Mapping :=
  reference.mapIdx fun _ key value =>
    if key ∈ ["apiVersion", "kind"] then s.inString value else value

variable {s : Substitution} {text word : String}

theorem string?_inString (value : Node) : (s.inString value).string? = value.string?.map s.apply := by
  match value with
  | .mapping _ | .sequence _ => rfl
  | .scalar leaf => cases leaf <;> rfl

theorem string?_inReference {key : String} (member : key ∈ ["apiVersion", "kind"])
    (reference : Mapping) :
    (s.inReference reference).string? key = (reference.string? key).map s.apply := by
  rw [Dict.string?, inReference, Dict.get?_mapIdx, Dict.string?]
  cases reference.get? key with
  | none => rfl
  | some value => simp only [Option.map_some, if_pos member, Option.bind_some, string?_inString]

/-! ## The default substitution in a text -/

theorem toList_apply_default_cases (text : String) :
    (default.apply text).toList = text.toList ∨
      (default.apply text).toList = Text.replaceAll Schema.legacyApiVersion.toList
        Schema.targetApiVersion.toList text.toList := by
  unfold apply
  split
  · exact .inr String.toList_ofList
  · exact .inl rfl

theorem beforeSlash_apply (text : String) :
    (Text.splitOnce '/' (default.apply text).toList).map (·.1) =
      (Text.splitOnce '/' text.toList).map (·.1) := by
  rcases toList_apply_default_cases text with same | replaced
  · rw [same]
  · have free : '/' ∉ "cluster.x-k8s.io".toList := by decide
    rw [replaced]
    exact Text.before_separator_replaceAll free text.toList

/-- One digit for the other: all that tells the identifiers of the two schema versions apart. -/
def blur (c : Char) : Char := if c = '1' then '2' else c

theorem map_blur_apply (text : String) :
    (default.apply text).toList.map blur = text.toList.map blur := by
  rcases toList_apply_default_cases text with same | replaced
  · rw [same]
  · rw [replaced]
    exact Text.map_replaceAll (by decide) (by decide) text.toList

theorem clear_blur {word : List Char} (noDigit : '1' ∉ word ∧ '2' ∉ word) : Text.Clear blur word := by
  intro c member d same
  have notOne : c ≠ '1' := fun is => noDigit.1 (is ▸ member)
  have notTwo : c ≠ '2' := fun is => noDigit.2 (is ▸ member)
  unfold blur at same
  rw [if_neg notOne] at same
  split at same
  · exact absurd same.symm notTwo
  · exact same

section Words

variable (noDigit : '1' ∉ word.toList ∧ '2' ∉ word.toList)

include noDigit

theorem apply_eq_word_iff : default.apply text = word ↔ text = word := by
  have clear := clear_blur noDigit
  constructor
  · rintro rfl
    exact String.toList_inj.mp (clear.eq_of_map_eq (map_blur_apply text).symm)
  · rintro rfl
    exact String.toList_inj.mp (clear.eq_of_map_eq (map_blur_apply text))

theorem infix_apply_iff : word.toList <:+: (default.apply text).toList ↔ word.toList <:+: text.toList := by
  have clear := clear_blur noDigit
  rw [← clear.infix_map_iff, map_blur_apply, clear.infix_map_iff]

theorem suffix_apply_iff : word.toList <:+ (default.apply text).toList ↔ word.toList <:+ text.toList := by
  have clear := clear_blur noDigit
  rw [← clear.suffix_map_iff, map_blur_apply, clear.suffix_map_iff]

end Words

end Substitution

namespace Schema

open Substitution

/-- Only the text before the first slash matters. -/
theorem groupOfVersion?_congr {version version' : String}
    (same : (Text.splitOnce '/' version'.toList).map (·.1) =
      (Text.splitOnce '/' version.toList).map (·.1)) :
    groupOfVersion? version' = groupOfVersion? version := by
  unfold groupOfVersion?
  cases first : Text.splitOnce '/' version'.toList with
  | none =>
      rw [first] at same
      rw [Option.map_eq_none_iff.mp same.symm]
  | some parts' =>
      rw [first] at same
      obtain ⟨parts, second, beforeSame⟩ := Option.map_eq_some_iff.mp same.symm
      obtain ⟨before, after⟩ := parts
      obtain ⟨before', after'⟩ := parts'
      obtain rfl : before = before' := beforeSame
      rw [second]
      cases before <;> rfl

theorem groupOfVersion?_apply (version : String) :
    groupOfVersion? (Substitution.default.apply version) = groupOfVersion? version :=
  groupOfVersion?_congr (beforeSlash_apply version)

theorem lookup_kindGroups_apply (kind : String) :
    kindGroups.lookup (Substitution.default.apply kind) = kindGroups.lookup kind := by
  have noDigits : ∀ entry ∈ kindGroups, '1' ∉ entry.1.toList ∧ '2' ∉ entry.1.toList := by decide
  refine Option.ext fun group => ?_
  rw [lookup_kindGroups_iff, lookup_kindGroups_iff]
  constructor
  · intro member
    have same := (apply_eq_word_iff (noDigits _ member)).mp rfl
    rwa [same]
  · intro member
    rwa [(apply_eq_word_iff (noDigits _ member)).mpr rfl]

theorem isInfrastructureKind_apply (kind : String) :
    isInfrastructureKind (Substitution.default.apply kind) = isInfrastructureKind kind := by
  have fragments : ∀ word ∈ infrastructureFragments, '1' ∉ word.toList ∧ '2' ∉ word.toList := by
    decide
  have endings : ∀ word ∈ infrastructureEndings, '1' ∉ word.toList ∧ '2' ∉ word.toList := by decide
  rw [Bool.eq_iff_iff, isInfrastructureKind_iff, isInfrastructureKind_iff]
  refine or_congr (exists_congr fun word => ?_) (exists_congr fun word => ?_)
  · exact and_congr_right fun member => infix_apply_iff (fragments word member)
  · exact and_congr_right fun member => suffix_apply_iff (endings word member)

theorem groupOfKind?_apply (kind : String) :
    groupOfKind? (Substitution.default.apply kind) = groupOfKind? kind := by
  unfold groupOfKind?
  rw [lookup_kindGroups_apply, isInfrastructureKind_apply]

/-- The default substitution changes no group that is inferred, nor whether one is. -/
theorem inferGroup?_inReference (reference : Mapping) :
    inferGroup? (Substitution.default.inReference reference) = inferGroup? reference := by
  have ofVersion : ((Substitution.default.inReference reference).string? "apiVersion").bind
      groupOfVersion? = (reference.string? "apiVersion").bind groupOfVersion? := by
    rw [string?_inReference (by decide), Option.bind_map]
    exact Option.bind_congr fun version _ => groupOfVersion?_apply version
  have ofKind : ((Substitution.default.inReference reference).string? "kind").bind
      groupOfKind? = (reference.string? "kind").bind groupOfKind? := by
    rw [string?_inReference (by decide), Option.bind_map]
    exact Option.bind_congr fun kind _ => groupOfKind?_apply kind
  rw [inferGroup?, ofVersion, ofKind, inferGroup?]

/-- The identifier stands twice in the version, the first time as the end of a longer one. -/
example :
    let reference : Mapping := ⟨[("apiVersion", .string
      "infrastructure.cluster.x-k8s.io/v1beta1/cluster.x-k8s.io/v1beta1"), ("kind", .string "BM")]⟩
    Substitution.default.inReference reference = ⟨[("apiVersion", .string
      "infrastructure.cluster.x-k8s.io/v1beta2/cluster.x-k8s.io/v1beta2"), ("kind", .string "BM")]⟩ ∧
    inferGroup? (Substitution.default.inReference reference) =
      some "infrastructure.cluster.x-k8s.io" := by
  decide +kernel

end Schema

end ManifestMigration
