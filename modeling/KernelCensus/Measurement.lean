import KernelCensus.Metric
import KernelCensus.Path
import KernelCensus.Precision

/-!
# Measurements

A measurement is one best configuration that a benchmark log reports, together with the kernel it
belongs to as far as that is known.
-/

namespace KernelCensus

/-- Why a measurement has no kernel. -/
inductive Unresolved
  /-- No line of the log up to the measurement names a kernel. -/
  | noContext
  | noKernels
  | ambiguous (candidates : Nat)
deriving Repr, DecidableEq

/-- The kernel of a measurement, and how it is known. -/
inductive Attribution
  | logged (kernel : Text)
  /-- The source has this kernel only. -/
  | inferred (kernel : Text)
  | unknown (reason : Unresolved)
deriving Repr, DecidableEq

namespace Attribution

/-- The name of the kernel, if it is known. -/
def kernel? : Attribution → Option Text
  | logged kernel => some kernel
  | inferred kernel => some kernel
  | unknown _ => none

/-- What reports show for a kernel that is not known. -/
def unknownLabel : Text := "unknown"

/-- The name that reports show for the kernel. -/
def label (attribution : Attribution) : Text := attribution.kernel?.getD unknownLabel

/-- Whether the kernel is not known. -/
def isUnknown : Attribution → Bool
  | unknown _ => true
  | _ => false

end Attribution

/-- A best configuration reported by a log. -/
structure Measurement where
  /-- The base name of the source that was measured. -/
  source : Text
  kernel : Attribution
  precision : Precision
  metrics : Metrics
  log : Path
deriving Repr, DecidableEq

end KernelCensus
