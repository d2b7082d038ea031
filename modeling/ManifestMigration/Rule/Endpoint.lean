import ManifestMigration.Rule.Basic
import ManifestMigration.Text.Blank

/-! # Endpoints without a host

A control plane endpoint goes when its host is missing or a blank string. A host that is null is a
value and stays.
-/

namespace ManifestMigration.Endpoint

def key : String := "controlPlaneEndpoint"

/-- The endpoint has no host, or one that is a blank string. -/
def lacksHost (endpoint : Mapping) : Bool :=
  match endpoint.get? "host" with
  | none => true
  | some (.scalar (.string host)) => host.toList.all Text.isBlank
  | some _ => false

def isPrunable (m : Mapping) : Bool :=
  match m.get? key with
  | some (.mapping endpoint) => lacksHost endpoint
  | _ => false

def prune (m : Mapping) : Mapping × Bool :=
  if isPrunable m then (m.erase key, true) else (m, false)

def notes (m : Mapping) : List Note := if isPrunable m then [.endpointRemoved] else []

end ManifestMigration.Endpoint
