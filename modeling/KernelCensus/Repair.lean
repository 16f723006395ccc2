import KernelCensus.Measurement
import KernelCensus.Registry

/-!
# Repair of attributions

A measurement that its log ties to no kernel belongs to the only kernel of its source, if there is
only one. There is no other guess: otherwise the measurement stays without kernel and records why.
-/

namespace KernelCensus

/-- The attribution of a measurement of `source` that its log ties to no kernel. -/
def Registry.attribute (registry : Registry) (source : Text) : Attribution :=
  match registry.soleKernel? source with
  | some kernel => .inferred kernel
  | none =>
    if registry.countOf source = 0 then .unknown .noKernels
    else .unknown (.ambiguous (registry.countOf source))

/-- A measurement with its attribution repaired. One that has a kernel stays as it is. -/
def Measurement.repair (registry : Registry) (measurement : Measurement) : Measurement :=
  if measurement.kernel.isUnknown then
    { measurement with kernel := registry.attribute measurement.source }
  else measurement

/-- Measurements with their attributions repaired, in the same order. -/
def repair (registry : Registry) (measurements : List Measurement) : List Measurement :=
  measurements.map (Measurement.repair registry)

end KernelCensus
