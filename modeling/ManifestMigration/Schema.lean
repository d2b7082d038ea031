import ManifestMigration.Document.Node
import ManifestMigration.Text.Occurrence

/-! # API groups and schema versions

The groups that references point into, the identifiers of the two schema versions, and the
inference of a reference's group. The group is the non-empty text before the first slash of
`apiVersion` when there is one; otherwise it follows from `kind`, by a table or by the look of the
name. It is never guessed.
-/

namespace ManifestMigration.Schema

def controlPlaneGroup : String := "controlplane.cluster.x-k8s.io"

def bootstrapGroup : String := "bootstrap.cluster.x-k8s.io"

def infrastructureGroup : String := "infrastructure.cluster.x-k8s.io"

def legacyApiVersion : String := "cluster.x-k8s.io/v1beta1"

def targetApiVersion : String := "cluster.x-k8s.io/v1beta2"

def kindGroups : List (String × String) :=
  [("KubeadmControlPlane", controlPlaneGroup),
   ("KubeadmControlPlaneTemplate", controlPlaneGroup),
   ("KubeadmConfig", bootstrapGroup),
   ("KubeadmConfigTemplate", bootstrapGroup),
   ("KubeadmConfigTemplateList", bootstrapGroup)]

/-- Fragments of names by which infrastructure kinds are known. -/
def infrastructureFragments : List String := ["HCloud", "Hetzner", "BareMetal", "BM"]

/-- Endings of names by which infrastructure kinds are known. -/
def infrastructureEndings : List String := ["Cluster", "MachineTemplate"]

def isInfrastructureKind (kind : String) : Bool :=
  infrastructureFragments.any (fun fragment => Text.occursIn fragment.toList kind.toList) ||
    infrastructureEndings.any (fun ending => ending.toList.isSuffixOf kind.toList)

/-- The group of a kind, as far as the name of the kind tells. -/
def groupOfKind? (kind : String) : Option String :=
  match kindGroups.lookup kind with
  | some group => some group
  | none => if isInfrastructureKind kind then some infrastructureGroup else none

/-- The group part of an API version: what stands before its first slash, unless that is empty. -/
def groupOfVersion? (version : String) : Option String :=
  match Text.splitOnce '/' version.toList with
  | some (c :: group, _) => some (String.ofList (c :: group))
  | _ => none

/-- The group that a reference points into. -/
def inferGroup? (reference : Mapping) : Option String :=
  match (reference.string? "apiVersion").bind groupOfVersion? with
  | some group => some group
  | none => (reference.string? "kind").bind groupOfKind?

end ManifestMigration.Schema
