import ManifestMigration.Document.Path

/-! # The rules of the migration

A rule revises one mapping at a time. Each rule has an identifier for messages, a description, and
the triggers: the keys, or the values of `kind`, without which it leaves a mapping alone. A rule
either changes a mapping, leaves it as it is, or refuses it because a field has a shape that it
will not touch.
-/

namespace ManifestMigration

/-- The built-in rules. -/
inductive Rule where
  /-- Argument mappings become lists of names and values. -/
  | argumentList
  /-- References carry a group instead of a version. -/
  | groupReference
  /-- Endpoints without a host go. -/
  | emptyEndpoint
  /-- Health checks keep timeouts and remediation in their own blocks. -/
  | healthCheck
  /-- The infrastructure reference of a control plane moves into the template's spec. -/
  | templateReference
  deriving DecidableEq, Repr

namespace Rule

/-- The built-in rules in the order in which they are applied. -/
def all : List Rule :=
  [argumentList, groupReference, emptyEndpoint, healthCheck, templateReference]

theorem mem_all (rule : Rule) : rule ∈ all := by
  cases rule <;> decide

def id : Rule → String
  | argumentList => "extra-args-to-list"
  | groupReference => "reference-api-group"
  | emptyEndpoint => "prune-empty-control-plane-endpoint"
  | healthCheck => "machine-health-check-v1beta2"
  | templateReference => "kubeadm-control-plane-infrastructure-ref"

def description : Rule → String
  | argumentList => "Convert extra-args mappings into ordered name/value lists"
  | groupReference => "Set apiGroup on reference blocks and drop their apiVersion"
  | emptyEndpoint => "Remove controlPlaneEndpoint blocks with an empty host"
  | healthCheck => "Move MachineHealthCheck timeouts and remediation into checks/remediation"
  | templateReference =>
    "Move the control-plane machine template's infrastructureRef under its spec"

/-- The keys, or the kinds, that make a rule look at a mapping. -/
def triggers : Rule → List String
  | argumentList => ["kubeletExtraArgs", "extraArgs"]
  | groupReference => ["infrastructureRef", "controlPlaneRef", "configRef"]
  | emptyEndpoint => ["controlPlaneEndpoint"]
  | healthCheck => ["MachineHealthCheck"]
  | templateReference => ["KubeadmControlPlane"]

end Rule

/-- A field has a shape that a rule refuses: neither a mapping nor a sequence. -/
structure ShapeError where
  /-- The key of the field. -/
  key : String
  /-- What stands there. -/
  found : Shape
  deriving DecidableEq, Repr

def ShapeError.message (e : ShapeError) : String :=
  "unexpected `" ++ e.key ++ "` type: expected a mapping or a sequence, found " ++ e.found.name

/-- What a rule leaves of a mapping, and whether it changed something there or refused it. What it
    has done before it refuses is not undone. -/
structure Revision where
  left : Mapping
  outcome : Except ShapeError Bool

namespace Revision

def unchanged (m : Mapping) : Revision := ⟨m, .ok false⟩

/-- A revision that refuses nothing. -/
def settled (revised : Mapping × Bool) : Revision := ⟨revised.1, .ok revised.2⟩

/-- Go on with what a revision leaves, unless it refuses. -/
def andThen (r : Revision) (f : Mapping → Revision) : Revision :=
  match r.outcome with
  | .error e => ⟨r.left, .error e⟩
  | .ok changed => ⟨(f r.left).left, (f r.left).outcome.map (changed || ·)⟩

end Revision

structure TransformError where
  /-- The rule that refused. -/
  rule : Rule
  /-- The way to the mapping that it refused. -/
  path : Path
  cause : ShapeError
  deriving DecidableEq, Repr

def TransformError.message (e : TransformError) : String :=
  "rule `" ++ e.rule.id ++ "` rejected the node at " ++ e.path.render

/-- A remark that a rule makes while it looks at a mapping. -/
inductive Note where
  /-- An argument mapping became a list of so many entries. -/
  | argumentsListed (key : String) (entries : Nat)
  /-- A reference was given a group. -/
  | groupSet (key group : String)
  /-- The group of a reference could not be inferred. -/
  | groupUnknown (key : String)
  /-- An endpoint without a host was dropped. -/
  | endpointRemoved
  /-- A health check was restructured: its checks, its remediation, or both. -/
  | healthCheckRestructured (checks remediation : Bool)
  /-- An infrastructure reference moved into a template's spec. -/
  | referenceMoved
  deriving DecidableEq, Repr

end ManifestMigration
