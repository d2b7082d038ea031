import ManifestMigration.Rule.ArgumentList
import ManifestMigration.Rule.GroupReference
import ManifestMigration.Rule.Endpoint
import ManifestMigration.Rule.HealthCheck
import ManifestMigration.Rule.TemplateReference

/-! # Applying a rule

What a rule leaves of one mapping, whether it fired, and what it has to say.
-/

namespace ManifestMigration.Rule

def apply : Rule → Mapping → Revision
  | argumentList, m => ArgumentList.convert m
  | groupReference, m => .settled (GroupReference.normalizeAll m)
  | emptyEndpoint, m => .settled (Endpoint.prune m)
  | healthCheck, m => .settled (HealthCheck.restructure m)
  | templateReference, m => .settled (TemplateReference.move m)

def notes : Rule → Mapping → List Note
  | argumentList => ArgumentList.notes
  | groupReference => GroupReference.notes
  | emptyEndpoint => Endpoint.notes
  | healthCheck => HealthCheck.notes
  | templateReference => TemplateReference.notes

end ManifestMigration.Rule
