import KernelCensus.Census.Run
import KernelCensus.Codec.Census
import KernelCensus.Project.Open
import KernelCensus.Project.Sources

/-!
# Showing the kernels of a project
-/

namespace KernelCensus.Command

open Project (Opened)

variable {m : Type → Type} [Monad m]

/-! ## Reading -/

def readAll (disk : Disk m) (paths : List Path) : Work m Census.ReadFile := do
  let contents ← paths.mapM fun path => return (path, ← Work.look (disk.read path))
  return fun path => (contents.lookup path).getD (.error .notFound)

/-- The sources of a project: the given ones, or else those of its configuration. -/
def sourcePaths (disk : Disk m) (project : Opened) (given : List Text) : Work m (List Path) :=
  Project.sources disk project.layout (if given.isEmpty then project.config.sources else given)
    project.config.extensions

/-! ## Output -/

def failuresJson (failures : List Failure) : Json := .array (failures.map Failure.toJson)

def failureLine (failure : Failure) : Text :=
  Text.concat ["- [", failure.kind.name, "] ", failure.path.text, ": ", failure.message]

/-- The lines about failures, none if there are no failures. -/
def failureLines (failures : List Failure) : List Text :=
  if failures.isEmpty then []
  else [] :: Text.concat ["Failures (", Text.ofNat failures.length, "):"] ::
    failures.map failureLine

def signatureLine (signature : Signature) : Text :=
  Text.concat ["    ", signature.name, "(", signature.parameters, ")",
    if signature.isTemplate then " [template]" else []]

def entryLines (entry : SourceEntry) : List Text :=
  Text.concat ["- ", entry.source.name, " (", Text.ofNat entry.kernels.length, ")"] ::
    entry.kernels.map signatureLine

def mergedLine (merge : Merge) : Text :=
  Text.concat ["  merged ", merge.merged.text, " into ", merge.kept.text, " (same base name)"]

/-- The lines about a registry and the sources that could not be read. -/
def scanLines (registry : Registry) (failures : List Failure) : List Text :=
  Text.concat ["Kernels (", Text.ofNat registry.kernelCount, "):"] ::
    registry.entries.flatMap entryLines ++ registry.merges.map mergedLine ++ failureLines failures

/-- What is printed about a registry and the sources that could not be read. -/
def scanOutput (registry : Registry) (failures : List Failure) (json : Bool) : Text :=
  if json then
    Text.unlines [(Json.record [("registry", registry.toJson),
      ("failures", failuresJson failures)]).pretty]
  else Text.unlines (scanLines registry failures)

/-! ## The command -/

/-- Shows the kernels of a project. Nothing is changed. -/
def planScan (disk : Disk m) (root : Text) (given : List Text) (json : Bool) : Work m Plan := do
  let root ← Project.root disk ⟨root⟩
  let project ← Project.openWith disk (.ofRoot root) none
  let paths ← sourcePaths disk project given
  let read ← readAll disk paths
  let markers := project.config.markers
  Work.note (Census.noticesOfSources read markers Registry.empty paths)
  let registry := Census.scanSources read markers paths
  let failures := paths.filterMap (Census.sourceFailure? read)
  return ⟨[], scanOutput registry failures json, []⟩

end KernelCensus.Command
