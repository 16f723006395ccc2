import KernelCensus.Files.Disk
import KernelCensus.Notice
import KernelCensus.Project.Problem

/-!
# Plans

A command only looks at the disk. What it comes to is a plan: the changes to make, in order, and
what to print once they are made. So a command that fails has changed nothing, and what a plan
changes can be read off it.
-/

namespace KernelCensus

/-- A change of the disk. -/
inductive Change
  /-- Makes a directory and those above it, as far as they are missing. -/
  | directory (purpose : Purpose) (path : Path)
  | file (purpose : Purpose) (path : Path) (contents : Bytes)
deriving Repr, DecidableEq

namespace Change

def purpose : Change → Purpose
  | directory purpose _ => purpose
  | file purpose _ _ => purpose

def path : Change → Path
  | directory _ path => path
  | file _ path _ => path

/-- Makes changes in order, up to the first that fails. -/
def performAll {m : Type → Type} [Monad m] (perform : Change → m (Except FileError Unit)) :
    List Change → m (Except Problem Unit)
  | [] => return .ok ()
  | change :: changes => do
    match ← perform change with
    | .ok () => performAll perform changes
    | .error error => return .error (.change change.purpose change.path error)

end Change

def Tree.perform (change : Change) : StateM Tree (Except FileError Unit) := fun tree =>
  match change with
  | .directory _ path => tree.makeDirs path
  | .file _ path contents => tree.write path contents

/-- What a command comes to. -/
structure Plan where
  changes : List Change
  output : Text
  artifacts : List Path
deriving Repr, DecidableEq

/-- Work that looks at a disk. It may fail, and its notices are kept in any case. -/
abbrev Work (m : Type → Type) := ExceptT Problem (StateT (List Notice) m)

namespace Work

variable {m : Type → Type} [Monad m] {α : Type}

def note (notices : List Notice) : Work m Unit := modify fun earlier => earlier ++ notices

/-- Fails with a problem, if there is a failure. -/
def check {ε : Type} (problem : ε → Problem) : Except ε α → Work m α
  | .ok value => return value
  | .error error => throw (problem error)

def look (query : m α) : Work m α := ExceptT.lift (StateT.lift query)

/-- Does the work. The answer has its notices. -/
def run (work : Work m α) : m (Except Problem α × List Notice) := StateT.run work []

end Work

end KernelCensus
