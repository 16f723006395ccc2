import KernelCensus.Census.Basic
import KernelCensus.Config.Fingerprint
import KernelCensus.Extraction
import KernelCensus.Repair
import KernelCensus.Report.Basic
import KernelCensus.Text.Utf8

/-!
# A run of the census

A run scans sources into a registry, reads measurements from logs, repairs their attributions and
builds the report. It sees the files through a function that reads them, so it is a function of
their contents. A file that cannot be read is recorded and otherwise left out; a log that does not
exist is no failure.
-/

namespace KernelCensus.Census

/-- A way to read files. -/
abbrev ReadFile := Path → Except FileError Bytes

def readText (read : ReadFile) (path : Path) : Except FileError Text :=
  (read path).map Utf8.decodeLossy

/-! ## Sources -/

/-- The registry after a source was scanned, unless it cannot be read. -/
def scanSource (read : ReadFile) (markers : Markers) (registry : Registry) (path : Path) :
    Registry :=
  match readText read path with
  | .ok text =>
    let source := SourceFile.ofPath path
    (registry.addSource source).insertAll (Extraction.signatures markers source text)
  | .error _ => registry

/-- The registry of sources, scanned in order. -/
def scanSources (read : ReadFile) (markers : Markers) (paths : List Path) : Registry :=
  paths.foldl (scanSource read markers) Registry.empty

/-- The failure to read a source, if there is one. -/
def sourceFailure? (read : ReadFile) (path : Path) : Option Failure :=
  match readText read path with
  | .ok _ => none
  | .error error => some (.ofError .source path error)

/-- The notices about a source that is scanned after those in the registry. -/
def sourceNotices (read : ReadFile) (markers : Markers) (registry : Registry) (path : Path) :
    List Notice :=
  match readText read path with
  | .ok text =>
    let source := SourceFile.ofPath path
    ((registry.merge? source).map Merge.notice).toList ++
      Extraction.notices markers source text ++
      (registry.addSource source).noticesOf (Extraction.signatures markers source text)
  | .error error => [.unreadableSource path error]

/-- The notices about sources that are scanned after those in the registry. -/
def noticesOfSources (read : ReadFile) (markers : Markers) : Registry → List Path → List Notice
  | _, [] => []
  | registry, path :: paths =>
    sourceNotices read markers registry path ++
      noticesOfSources read markers (scanSource read markers registry path) paths

/-! ## Logs -/

/-- The measurements in a log, none if it cannot be read. -/
def measurementsOfLog (read : ReadFile) (markers : Markers) (log : LogFile) : List Measurement :=
  match readText read log.path with
  | .ok text => Log.measurements markers log text
  | .error _ => []

/-- The failure to read a log, if there is one. -/
def logFailure? (read : ReadFile) (log : LogFile) : Option Failure :=
  match readText read log.path with
  | .ok _ => none
  | .error .notFound => none
  | .error error => some (.ofError .log log.path error)

def noticeOfLog (read : ReadFile) (markers : Markers) (log : LogFile) : Notice :=
  match readText read log.path with
  | .ok text => Log.notice markers log text
  | .error .notFound => .missingLog log.path
  | .error error => .unreadableLog log.path error

/-! ## The whole run -/

/-- What a run comes to. -/
structure Outcome where
  registry : Registry
  /-- The measurements, with their attributions repaired, in the order of the logs. -/
  measurements : List Measurement
  report : Report
  /-- The files that could not be read, sources first. -/
  failures : List Failure
  notices : List Notice
deriving Repr, DecidableEq

def Outcome.tally (outcome : Outcome) : Tally where
  sources := outcome.report.totals.sources
  kernels := outcome.report.totals.kernels
  measurements := outcome.report.totals.measurements
  unattributed := outcome.report.totals.unattributed
  merged := outcome.report.totals.merged
  failures := outcome.failures.length

/-- The outcome of a run, without the notice that it is complete. -/
def outcome (read : ReadFile) (markers : Markers) (inputs : Inputs) : Outcome :=
  let registry := scanSources read markers inputs.sources
  let measurements := repair registry (inputs.logs.flatMap (measurementsOfLog read markers))
  { registry
    measurements
    report := Report.build registry measurements
    failures := inputs.sources.filterMap (sourceFailure? read) ++
      inputs.logs.filterMap (logFailure? read)
    notices := noticesOfSources read markers Registry.empty inputs.sources ++
      inputs.logs.map (noticeOfLog read markers) }

/-- Runs the census on inputs. It fails only if the markers do. -/
def run (read : ReadFile) (config : Config) (inputs : Inputs) : Except Markers.Fault Outcome :=
  config.markers.validate.map fun markers =>
    let outcome := outcome read markers inputs
    { outcome with notices := outcome.notices ++ [.complete outcome.tally] }

def metadata (config : Config) (outcome : Outcome) (startedAt finishedAt : Text) : Metadata :=
  ⟨config.fingerprint, startedAt, finishedAt, outcome.tally⟩

end KernelCensus.Census
