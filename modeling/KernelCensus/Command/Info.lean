import KernelCensus.Codec.Config
import KernelCensus.Json.Writer
import KernelCensus.Project.Open

/-!
# Showing a project
-/

namespace KernelCensus.Command

open Project (Opened)

variable {m : Type → Type} [Monad m]

/-! ## As JSON -/

def directoriesJson (layout : Layout) : Json :=
  .record [("meta_dir", .text layout.metaDir.text), ("logs_dir", .text layout.logsDir.text),
    ("reports_dir", .text layout.reportsDir.text)]

def infoJson (project : Opened) : Json :=
  .record [("name", .text project.config.name), ("root", .text project.layout.root.text),
    ("config_file", .text project.layout.configFile.text),
    ("config_version", .text project.config.version),
    ("sources", Json.texts project.config.sources),
    ("source_extensions", Json.texts project.config.extensions),
    ("precisions", .array (project.config.precisions.map Precision.toJson)),
    ("dirs", directoriesJson project.layout)]

/-! ## As text -/

/-- What separates the items of a list in a line. -/
def separator : Text := ", "

/-- The sources, as shown. -/
def sourcesText (sources : List Text) : Text :=
  if sources.isEmpty then "(none)" else Text.joinWith separator sources

def configLines (project : Opened) : List Text :=
  let config := project.config
  ["Kernel Survey Project Info",
    "==========================",
    Text.concat ["Name: ", config.name],
    Text.concat ["Root: ", project.layout.root.text],
    Text.concat ["Config file: ", project.layout.configFile.text],
    Text.concat ["Config version: ", config.version],
    Text.concat ["Sources: ", sourcesText config.sources],
    Text.concat ["Precisions: ", Text.joinWith separator (config.precisions.map Precision.name)],
    Text.concat ["Tag marker: ", config.markers.tag],
    Text.concat ["Best-result marker: ", config.markers.best],
    []]

/-- The directories that are shown, with their labels. -/
def labelledDirectories (layout : Layout) : List (Text × Path) :=
  [("Meta dir (.kernel-survey)", layout.metaDir), ("Logs dir", layout.logsDir),
    ("Reports dir", layout.reportsDir)]

def directoryLine (label : Text) (path : Path) (isThere : Bool) : Text :=
  Text.concat ["- ", label, ": ", if isThere then "OK" else "MISSING", " (", path.text, ")"]

def directoryLines (disk : Disk m) (layout : Layout) : Work m (List Text) :=
  (labelledDirectories layout).mapM fun directory => do
    return directoryLine directory.1 directory.2 (← Work.look (disk.isDirectory directory.2))

/-! ## The command -/

def infoOutput (disk : Disk m) (project : Opened) (json : Bool) : Work m Text := do
  if json then return Text.unlines [(infoJson project).pretty]
  else
    let directories ← directoryLines disk project.layout
    return Text.unlines (configLines project ++ "Directories:".toList :: directories)

/-- Shows a project. Nothing is changed. -/
def planInfo (disk : Disk m) (root : Text) (json : Bool) : Work m Plan := do
  let root ← Project.root disk ⟨root⟩
  let project ← Project.openOwn disk (.ofRoot root)
  return ⟨[], ← infoOutput disk project json, []⟩

end KernelCensus.Command
