import ManifestMigration.Files.Store
import ManifestMigration.Json.Parse
import ManifestMigration.Main
import ManifestMigration.Proofs.Migration.Rerun
import ManifestMigration.Proofs.Rule.Order
import ManifestMigration.Proofs.Walk.Order
import ManifestMigration.Proofs.Document.Paths
import ManifestMigration.Proofs.Walk.Visits
import ManifestMigration.Proofs.Yaml.Within.Cursor
import ManifestMigration.Proofs.Yaml.Within.Scalar
import ManifestMigration.Proofs.Yaml.Within.Tag
import ManifestMigration.Proofs.Yaml.Within.Reader
import ManifestMigration.Proofs.Yaml.Within.Text
import ManifestMigration.Proofs.Yaml.Grammar.Steps
import ManifestMigration.Proofs.Yaml.Grammar.Within
import ManifestMigration.Proofs.Yaml.Grammar.Document
import ManifestMigration.Proofs.Yaml.Grammar.Stream
import ManifestMigration.Proofs.Yaml.Boundaries
import ManifestMigration.Proofs.Files.Faults
import ManifestMigration.Proofs.FileMigration.Backup
import ManifestMigration.Proofs.FileMigration.DryRun
import ManifestMigration.Proofs.CommandLine.Ending
import ManifestMigration.Proofs.Rule.Refusal
import ManifestMigration.Proofs.Rule.Moves.Basic
import ManifestMigration.Proofs.Rule.Moves.HealthCheck
import ManifestMigration.Proofs.Walk.Keys
import ManifestMigration.Proofs.Walk.Origin
import ManifestMigration.Proofs.Rule.Containers
import ManifestMigration.Proofs.Json.Text
import ManifestMigration.Proofs.Json.Number
import ManifestMigration.Proofs.Json.RoundTrip
import ManifestMigration.Proofs.Json.Loaded
import ManifestMigration.Proofs.Dict.Replay
import ManifestMigration.Proofs.Document.Keys
import ManifestMigration.Proofs.Rule.Checks
import ManifestMigration.Proofs.Rule.Remediation
import ManifestMigration.Proofs.Rule.KeyOrder
import ManifestMigration.Proofs.Walk.Arguments
import ManifestMigration.Proofs.Schema.Substitution
import ManifestMigration.Proofs.Walk.Relocation
import ManifestMigration.Proofs.Migration.Untriggered
import ManifestMigration.Proofs.Duration
import ManifestMigration.Proofs.Walk.Wrapper
import ManifestMigration.Proofs.Patch.Applying
import ManifestMigration.Proofs.Config.Layers
