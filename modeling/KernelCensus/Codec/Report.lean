import KernelCensus.Codec.Measurement
import KernelCensus.Report.Basic

/-!
# JSON form of reports
-/

namespace KernelCensus

def measurementsToJson (measurements : List Measurement) : Json :=
  .array (measurements.map Measurement.toJson)

def KernelSection.toJson (part : KernelSection) : Json :=
  .record [("signature", part.signature.toJson),
    ("results", measurementsToJson part.measurements)]

def SourceSection.toJson (part : SourceSection) : Json :=
  .record [("source", part.source.toJson), ("kernel_count", .count part.kernelCount),
    ("kernels", .array (part.kernels.map KernelSection.toJson)),
    ("unattributed", measurementsToJson part.unattributed),
    ("unmatched", measurementsToJson part.unmatched)]

def Totals.toJson (totals : Totals) : Json :=
  .record [("scripts_analyzed", .count totals.sources), ("kernels_detected", .count totals.kernels),
    ("best_results", .count totals.measurements), ("unattributed", .count totals.unattributed),
    ("unmatched", .count totals.unmatched), ("orphaned", .count totals.orphaned),
    ("name_collisions", .count totals.merged)]

def Report.toJson (report : Report) : Json :=
  .record [("sources", .array (report.sections.map SourceSection.toJson)),
    ("orphaned", measurementsToJson report.orphaned),
    ("collisions", .array (report.merges.map Merge.toJson)), ("totals", report.totals.toJson)]

end KernelCensus
