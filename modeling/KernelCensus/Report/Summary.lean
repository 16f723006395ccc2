import KernelCensus.Report.Basic

/-!
# The summary

The report as text for people: one block for each source, with one line for each measurement, then
what belongs to no source, then the totals.
-/

namespace KernelCensus.Summary

/-- A kernel, as shown in the summary. -/
def signatureText (signature : Signature) : Text :=
  Text.concat [if signature.isTemplate then "template " else "", signature.name, "(",
    signature.parameters, ")"]

def metricLabel : Metric → Text
  | .blockX => "bx"
  | .blockY => "by"
  | .throughput => "gflops"
  | .bandwidth => "bw"
  | .timeMs => "time_ms"

/-- A metric, as shown in the summary. An absent metric has no text after its label. -/
def metricText (metrics : Metrics) (metric : Metric) : Text :=
  Text.concat [metricLabel metric, "=", (metrics.get metric).getD []]

/-- A measurement, as shown in the summary. -/
def measurementText (m : Measurement) : Text :=
  Text.concat ["[", m.precision.name, "] ",
    Text.joinWith [' '] (Metric.all.map (metricText m.metrics))]

/-- A title and its lines, or nothing if there are no lines. -/
def titled (title : List Text) (lines : List Text) : List Text :=
  if lines.isEmpty then [] else title ++ lines

/-! ## Sources -/

def kernelLines (kernel : KernelSection) : List Text :=
  Text.concat ["  - ", signatureText kernel.signature] ::
    (if kernel.measurements.isEmpty then ["      (no best results)"]
     else kernel.measurements.map fun m => Text.concat ["      ", measurementText m])

def sourceHeading (part : SourceSection) : Text :=
  Text.concat [part.source.name, " (", Text.ofNat part.kernelCount,
    if part.kernelCount = 1 then " kernel)" else " kernels)"]

/-- The line for a measurement that has no kernel. -/
def unattributedLine (m : Measurement) : Text :=
  Text.concat ["      ", measurementText m, " kernel=unknown"]

/-- The line for a measurement whose kernel is not registered. -/
def unmatchedLine (m : Measurement) : Text :=
  Text.concat ["      ", measurementText m, " kernel=", m.kernel.label]

def sourceLines (part : SourceSection) : List Text :=
  [] :: sourceHeading part ::
    (if part.kernels.isEmpty then ["  (no tagged kernels)"]
     else part.kernels.flatMap kernelLines) ++
    titled ["  Unattributed results:"] (part.unattributed.map unattributedLine) ++
    titled ["  Results for unregistered kernels:"] (part.unmatched.map unmatchedLine)

/-! ## The rest -/

/-- The line for a measurement whose source was not scanned. -/
def orphanLine (m : Measurement) : Text :=
  Text.concat ["  - ", m.source, " / ", m.kernel.label, ": ", measurementText m]

def mergeLine (merge : Merge) : Text :=
  Text.concat ["  - ", merge.name, ": kept ", merge.kept.text, ", merged ", merge.merged.text]

/-- The line for the number of merges, if there are any. -/
def mergedLines (totals : Totals) : List Text :=
  if totals.merged > 0 then [Text.concat ["Base-name collisions: ", Text.ofNat totals.merged]]
  else []

def measurementsLine (totals : Totals) : Text :=
  Text.concat ["Best results: ", Text.ofNat totals.measurements,
    " (unattributed: ", Text.ofNat totals.unattributed,
    ", unmatched: ", Text.ofNat totals.unmatched,
    ", orphaned: ", Text.ofNat totals.orphaned, ")"]

def totalsLines (totals : Totals) : List Text :=
  [] :: "Totals" :: "------" :: Text.concat ["Scripts analyzed: ", Text.ofNat totals.sources] ::
    mergedLines totals ++
    [Text.concat ["Kernels detected: ", Text.ofNat totals.kernels], measurementsLine totals]

def title : List Text := ["Kernel Survey Report", "===================="]

def lines (report : Report) : List Text :=
  title ++ report.sections.flatMap sourceLines ++
    titled [[], "Results for unscanned sources:"] (report.orphaned.map orphanLine) ++
    titled [[], "Sources merged by base name:"] (report.merges.map mergeLine) ++
    totalsLines report.totals

/-- The summary of a report. -/
def render (report : Report) : Text := Text.unlines (lines report)

end KernelCensus.Summary
