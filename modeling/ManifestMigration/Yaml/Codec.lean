import ManifestMigration.Codec
import ManifestMigration.Yaml.Dump
import ManifestMigration.Yaml.Load

/-! # Documents as YAML

The codec for YAML files. The order of keys, the types of scalars and the documents survive;
comments and quoting do not. Writing always succeeds.
-/

namespace ManifestMigration.Yaml

/-- Read and write the documents of a file as YAML. -/
def codec : Codec LoadError := ⟨load, fun documents => .ok (dump documents)⟩

end ManifestMigration.Yaml
