import KernelCensus.Codec.Config
import KernelCensus.Json.Writer
import KernelCensus.Project.Open

/-!
# Setting up a project
-/

namespace KernelCensus.Command

variable {m : Type → Type} [Monad m]

/-- The configuration of a new project: everything right in its root is scanned. -/
def newConfig (name : Text) : Config := { Config.ofName name with sources := [['.']] }

def initOutput (layout : Layout) (name : Text) : Text :=
  Text.unlines
    ["Initialized kernel survey project:",
      Text.concat ["  Name: ", name],
      Text.concat ["  Root: ", layout.root.text],
      Text.concat ["  Config: ", layout.configFile.text],
      Text.concat ["  Logs dir: ", layout.logsDir.text],
      Text.concat ["  Reports dir: ", layout.reportsDir.text]]

/-- The plan to set up a project: its directories, then its configuration. -/
def initPlan (layout : Layout) (name : Text) : Plan where
  changes :=
    [.directory .metaDir layout.metaDir,
      .directory .logsDir layout.logsDir,
      .directory .reportsDir layout.reportsDir,
      .file .config layout.configFile (Utf8.encode (newConfig name).toJson.pretty)]
  output := initOutput layout name
  artifacts := []

def planInit (disk : Disk m) (root : Text) (name : Option Text) : Work m Plan := do
  let root ← Project.root disk ⟨root⟩
  return initPlan (.ofRoot root) (name.getD (Project.inferName root))

end KernelCensus.Command
