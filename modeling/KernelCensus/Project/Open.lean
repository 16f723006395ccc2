import KernelCensus.Project.Plan

/-!
# Opening projects

From the root that a user names to the configuration and the layout of the project.
-/

namespace KernelCensus.Project

variable {m : Type → Type} [Monad m]

/-- The name of a project whose root has none. -/
def unnamed : Text := "unnamed-survey"

/-- The name that a project has by default: the name of its root. -/
def inferName (root : Path) : Text := root.fileName?.getD unnamed

def currentPath (disk : Disk m) : Work m Path := do
  Work.check .noCurrentDirectory (← Work.look disk.currentPath)

/-- The absolute path of a root. A root that does not exist is seen from the current directory. -/
def root (disk : Disk m) (path : Path) : Work m Path := do
  if path.parts = [.here] then currentPath disk
  else match ← Work.look (disk.canonical path) with
    | .ok canonical => return canonical
    | .error _ => return (← currentPath disk).join path

/-- A project: its configuration, and its layout under that configuration. -/
structure Opened where
  config : Config
  layout : Layout
deriving Repr, DecidableEq

/-- The project with a layout, opened under a configuration. -/
def Opened.ofConfig (layout : Layout) (config : Config) : Opened :=
  ⟨config, layout.withConfig config⟩

/-- The configuration of a project as its file gives it. -/
def configOf (file : Path) (contents : Except FileError Bytes) : Except Problem Config :=
  match contents with
  | .error error => .error (.unreadableConfig file error)
  | .ok bytes =>
    match Utf8.decode? bytes with
    | none => .error (.unreadableConfig file .notUtf8)
    | some text =>
      match Config.ofJsonText? text with
      | none => .error .malformedConfig
      | some config =>
        match config.markers.validate with
        | .ok _ => .ok config
        | .error fault => .error (.invalidConfig fault)

def openOwn (disk : Disk m) (layout : Layout) : Work m Opened := do
  let contents ← Work.look (disk.read layout.configFile)
  let config ← Work.check id (configOf layout.configFile contents)
  return .ofConfig layout config

/-- Opens a project under the given configuration file, or under its own configuration, or, if it
has none, under the defaults. -/
def openWith (disk : Disk m) (layout : Layout) (configFile : Option Text) : Work m Opened := do
  match configFile with
  | some file =>
    let path := layout.resolve file
    let contents ← Work.look (disk.read path)
    let config ← Work.check (.givenConfig path) (Config.ofFile path contents)
    return .ofConfig layout config
  | none =>
    if ← Work.look (disk.isFile layout.configFile) then openOwn disk layout
    else
      Work.note [.noConfiguration layout.root]
      return .ofConfig layout (Config.ofName (inferName layout.root))

end KernelCensus.Project
