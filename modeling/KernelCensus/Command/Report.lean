import KernelCensus.Codec.Report
import KernelCensus.Command.Basic
import KernelCensus.Command.Scan
import KernelCensus.Report.Csv
import KernelCensus.Report.Summary

/-!
# Writing the report of a project

A report has five files in the directory of reports: the summary, the two exports, the report as
JSON and the bookkeeping of the run.
-/

namespace KernelCensus.Command

open Project (Opened)

variable {m : Type → Type} [Monad m]

/-! ## Files -/

/-- The JSON form of the bookkeeping of a run on a project. -/
def recordJson (project : Text) (metadata : Metadata) (inputs : Inputs)
    (failures : List Failure) : Json :=
  let details : List (Text × Json) :=
    [("inputs", inputs.toJson), ("failure_details", failuresJson failures)]
  .record (("project", .text project) :: (metadata.members ++ details))

/-- A run on a project. -/
structure Finished where
  project : Opened
  inputs : Inputs
  outcome : Census.Outcome
  metadata : Metadata

/-- The files of a report, with their texts. -/
def artifacts (run : Finished) : List (Path × Text) :=
  let layout := run.project.layout
  let outcome := run.outcome
  [(layout.summary, Summary.render outcome.report),
    (layout.kernelsCsv, Csv.writeKernels outcome.registry),
    (layout.measurementsCsv, Csv.writeMeasurements outcome.measurements),
    (layout.reportJson, outcome.report.toJson.pretty),
    (layout.runMetadata,
      (recordJson run.project.config.name run.metadata run.inputs outcome.failures).pretty)]

/-! ## Output -/

def artifactLines (layout : Layout) : List Text :=
  [[], "Artifacts:",
    Text.concat ["  Summary: ", layout.summary.text],
    Text.concat ["  Kernels CSV: ", layout.kernelsCsv.text],
    Text.concat ["  Results CSV: ", layout.measurementsCsv.text],
    Text.concat ["  Report JSON: ", layout.reportJson.text],
    Text.concat ["  Run metadata: ", layout.runMetadata.text]]

def reportOutput (run : Finished) (json : Bool) : Text :=
  if json then Text.unlines [run.outcome.report.toJson.pretty]
  else Summary.render run.outcome.report ++
    Text.unlines (failureLines run.outcome.failures ++ artifactLines run.project.layout)

/-! ## The command -/

/-- The logs of a project: the given ones, or else those found by name. -/
def logFiles (project : Opened) (sources : List Path) (given : List Text) :
    Work m (List LogFile) := do
  if given.isEmpty then
    let precisions := project.config.precisions
    Work.note (LogFile.discoveryNotices project.layout.logsDir sources precisions)
    return LogFile.discover project.layout.logsDir sources precisions
  else Work.check .logSpec (given.mapM (LogFile.ofSpec project.layout sources))

def runCensus (disk : Disk m) (project : Opened) (inputs : Inputs) : Work m Finished := do
  let startedAt ← Work.look disk.now
  let read ← readAll disk (inputs.sources ++ inputs.logs.map LogFile.path)
  let outcome ← Work.check .run (Census.run read project.config inputs)
  Work.note outcome.notices
  let finishedAt ← Work.look disk.now
  return ⟨project, inputs, outcome, Census.metadata project.config outcome startedAt finishedAt⟩

/-- The plan to write a report: its directory, then its files. -/
def reportPlan (run : Finished) (json : Bool) : Plan where
  changes := .directory .reportHome run.project.layout.reportsDir ::
    (artifacts run).map fun artifact => .file .artifact artifact.1 (Utf8.encode artifact.2)
  output := reportOutput run json
  artifacts := (artifacts run).map (·.1)

def planReport (disk : Disk m) (options : ReportOptions) : Work m Plan := do
  let root ← Project.root disk ⟨options.root⟩
  let project ← Project.openWith disk (.ofRoot root) options.config
  let sources ← sourcePaths disk project options.sources
  let logs ← logFiles project sources options.logs
  let run ← runCensus disk project ⟨sources, logs⟩
  return reportPlan run options.json

end KernelCensus.Command
