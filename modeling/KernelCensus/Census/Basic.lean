import KernelCensus.Files.Error
import KernelCensus.Log.Basic

/-!
# Inputs and records of a run
-/

namespace KernelCensus

/-- What a run reads. -/
structure Inputs where
  sources : List Path
  logs : List LogFile
deriving Repr, DecidableEq

/-- The kinds of files that a run reads. -/
inductive FileKind
  | source
  | log
deriving Repr, DecidableEq

namespace FileKind

def all : List FileKind := [source, log]

def name : FileKind → Text
  | source => "source"
  | log => "log"

def ofName? (text : Text) : Option FileKind := all.find? fun kind => kind.name = text

end FileKind

/-- A file that could not be read. -/
structure Failure where
  kind : FileKind
  path : Path
  message : Text
deriving Repr, DecidableEq

/-- The record of a file that could not be read for the given cause. -/
def Failure.ofError (kind : FileKind) (path : Path) (error : FileError) : Failure :=
  ⟨kind, path,
    Text.concat ["Failed to read ", kind.name, " file ", path.text, ": ", error.message]⟩

/-- The bookkeeping of a run. -/
structure Metadata where
  configHash : Text
  startedAt : Text
  finishedAt : Text
  tally : Tally
deriving Repr, DecidableEq

end KernelCensus
