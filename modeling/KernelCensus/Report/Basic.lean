import KernelCensus.Measurement
import KernelCensus.Registry

/-!
# The report

The report joins the registry with the measurements: source by source, kernel by kernel, the
measurements of each kernel in the order in which they were read. A measurement without a registered
kernel is not lost. It is listed with its source as unattributed or unmatched, or as orphaned if its
source was not scanned.
-/

namespace KernelCensus

/-- A kernel and its measurements. -/
structure KernelSection where
  signature : Signature
  measurements : List Measurement
deriving Repr, DecidableEq

/-- A source, its kernels, and its measurements that belong to none of them. -/
structure SourceSection where
  source : SourceFile
  kernelCount : Nat
  kernels : List KernelSection
  /-- Its measurements that have no kernel. -/
  unattributed : List Measurement
  /-- Its measurements of kernels that are not registered for it. -/
  unmatched : List Measurement
deriving Repr, DecidableEq

/-- The counts of a report. -/
structure Totals where
  sources : Nat
  kernels : Nat
  measurements : Nat
  unattributed : Nat
  unmatched : Nat
  orphaned : Nat
  merged : Nat
deriving Repr, DecidableEq

/-- The report on a run. -/
structure Report where
  sections : List SourceSection
  /-- The measurements of sources that were not scanned. -/
  orphaned : List Measurement
  merges : List Merge
  totals : Totals
deriving Repr, DecidableEq

/-! ## Construction -/

/-- The measurements of a kernel among those of its source. -/
def KernelSection.build (measurements : List Measurement) (signature : Signature) :
    KernelSection :=
  ⟨signature, measurements.filter fun m => m.kernel.kernel? == some signature.name⟩

/-- Whether a measurement names a kernel that is not registered for the source. -/
def Measurement.isUnmatched (registry : Registry) (source : Text) (m : Measurement) : Bool :=
  match m.kernel.kernel? with
  | some kernel => !registry.hasKernel source kernel
  | none => false

def SourceSection.build (registry : Registry) (measurements : List Measurement)
    (entry : SourceEntry) : SourceSection :=
  let own := measurements.filter fun m => m.source == entry.source.name
  { source := entry.source
    kernelCount := entry.kernels.length
    kernels := entry.kernels.map (KernelSection.build own)
    unattributed := own.filter fun m => m.kernel.isUnknown
    unmatched := own.filter (Measurement.isUnmatched registry entry.source.name) }

/-- The report on a registry and the measurements that go with it. -/
def Report.build (registry : Registry) (measurements : List Measurement) : Report :=
  let sections := registry.entries.map (SourceSection.build registry measurements)
  let orphaned := measurements.filter fun m => !registry.hasSource m.source
  { sections
    orphaned
    merges := registry.merges
    totals :=
      { sources := registry.entries.length
        kernels := registry.kernelCount
        measurements := measurements.length
        unattributed := (sections.flatMap (·.unattributed)).length
        unmatched := (sections.flatMap (·.unmatched)).length
        orphaned := orphaned.length
        merged := registry.merges.length } }

end KernelCensus
