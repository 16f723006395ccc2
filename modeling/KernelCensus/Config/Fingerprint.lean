import KernelCensus.Codec.Config
import KernelCensus.Digest.Sha256
import KernelCensus.Json.Writer

/-!
# Fingerprints of configurations
-/

namespace KernelCensus

/-- The fingerprint of a configuration: the hash of its compact JSON form. -/
def Config.fingerprint (config : Config) : Text :=
  Sha256.hexDigest (Utf8.encode config.toJson.compact)

end KernelCensus
