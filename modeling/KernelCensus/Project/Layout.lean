import KernelCensus.Config.Basic
import KernelCensus.Path

/-!
# The layout of a project

Where a project keeps its files, seen from its root. Nothing here looks at the disk.
-/

namespace KernelCensus

/-- The places of a project. -/
structure Layout where
  root : Path
  metaDir : Path
  configFile : Path
  logsDir : Path
  reportsDir : Path
deriving Repr, DecidableEq

namespace Layout

def ofRoot (root : Path) : Layout :=
  let metaDir := root.join ⟨".kernel-survey"⟩
  { root
    metaDir
    configFile := metaDir.join ⟨"survey.json"⟩
    logsDir := root.join ⟨Config.defaultLogsDir⟩
    reportsDir := root.join ⟨Config.defaultReportsDir⟩ }

/-- A path as seen from the root of the project. -/
def resolve (layout : Layout) (path : Text) : Path := layout.root.join ⟨path⟩

/-- The layout with the directories that a configuration sets. -/
def withConfig (layout : Layout) (config : Config) : Layout :=
  { layout with
    logsDir := layout.resolve config.logsDir
    reportsDir := layout.resolve config.reportsDir }

/-! ## The files of a report -/

def summary (layout : Layout) : Path := layout.reportsDir.join ⟨"summary.txt"⟩

def kernelsCsv (layout : Layout) : Path := layout.reportsDir.join ⟨"kernels.csv"⟩

def measurementsCsv (layout : Layout) : Path := layout.reportsDir.join ⟨"best_results.csv"⟩

def reportJson (layout : Layout) : Path := layout.reportsDir.join ⟨"report.json"⟩

def runMetadata (layout : Layout) : Path := layout.reportsDir.join ⟨"run_metadata.json"⟩

end Layout

end KernelCensus
