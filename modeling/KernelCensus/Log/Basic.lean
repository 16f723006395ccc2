import KernelCensus.Log.Context
import KernelCensus.Log.Tokens
import KernelCensus.Measurement
import KernelCensus.Notice

/-!
# Logs

A log holds the output of one benchmark: a source that was run under one precision. Each line with
the marker for best results is a measurement of the kernel named last, on that line or before it.
-/

namespace KernelCensus

/-- A benchmark log: what was run, and where its output is. -/
structure LogFile where
  /-- The base name of the source that was run. -/
  source : Text
  precision : Precision
  path : Path
deriving Repr, DecidableEq

namespace Log

/-- The kernel of a measurement, given the kernel named last. -/
def attribution : Option Text → Attribution
  | some kernel => .logged kernel
  | none => .unknown .noContext

/-- The measurements in lines that follow a line naming `current`. -/
def measurementsFrom (markers : Markers) (log : LogFile) :
    Option Text → List Text → List Measurement
  | _, [] => []
  | current, line :: lines =>
    let current := (context? markers.kernelLabel line).or current
    if Text.contains markers.best line then
      ⟨log.source, attribution current, log.precision, metrics markers.aliases line, log.path⟩ ::
        measurementsFrom markers log current lines
    else measurementsFrom markers log current lines

/-- The measurements in a log, in the order of its lines. -/
def measurements (markers : Markers) (log : LogFile) (text : Text) : List Measurement :=
  measurementsFrom markers log none (Text.lines text)

def notice (markers : Markers) (log : LogFile) (text : Text) : Notice :=
  .scannedLog log.source log.precision log.path (measurements markers log text).length

end Log

end KernelCensus
