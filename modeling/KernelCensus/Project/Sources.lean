import KernelCensus.Project.Plan

/-!
# The sources of a project

The list of sources of a configuration has files and directories. A directory stands for the files
right in it that have one of the extensions, in the order of their paths. Every path is listed once,
where it comes first.
-/

namespace KernelCensus.Project

variable {m : Type → Type} [Monad m]

/-- What is at an entry of the list. -/
inductive Entry
  | directory (path : Path) (names : List Text)
  | single (path : Path)
deriving Repr, DecidableEq

/-- Whether a path has one of the extensions, whatever the case of their ASCII letters. A path
without extension has the empty one. -/
def hasExtension (extensions : List Text) (path : Path) : Bool :=
  extensions.any fun extension =>
    Text.lowerAscii extension == Text.lowerAscii (path.extension?.getD [])

/-- The paths that an entry stands for. -/
def Entry.paths (extensions : List Text) : Entry → List Path
  | directory path names =>
    ((names.map fun name => path.join ⟨name⟩).filter (hasExtension extensions)).mergeSort Path.le
  | single path => [path]

/-- Paths without those that are the same as an earlier one. -/
def distinct : List Path → List Path
  | [] => []
  | path :: paths => path :: (distinct paths).filter fun later => !path.same later

def sourcesOf (extensions : List Text) (entries : List Entry) : List Path :=
  distinct (entries.flatMap (Entry.paths extensions))

/-- The path of an entry as seen from the root of the project. -/
def entryPath (layout : Layout) (entry : Text) : Path :=
  if entry = ['.'] then layout.root else layout.resolve entry

/-- Looks up what is at a path. -/
def entryAt (disk : Disk m) (path : Path) : Work m Entry := do
  if ← Work.look (disk.isDirectory path) then
    let names ← Work.check (.unlistableDirectory path) (← Work.look (disk.filesIn path))
    return .directory path names
  else return .single path

/-- The sources that a list of files and directories stands for. -/
def sources (disk : Disk m) (layout : Layout) (entries extensions : List Text) :
    Work m (List Path) := do
  let entries ← entries.mapM fun entry => entryAt disk (entryPath layout entry)
  return sourcesOf extensions entries

end KernelCensus.Project
