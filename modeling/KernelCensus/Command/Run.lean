import KernelCensus.Command.Info
import KernelCensus.Command.Init
import KernelCensus.Command.Report

/-!
# Running commands
-/

namespace KernelCensus.Command

variable {m : Type → Type} [Monad m]

def plan (disk : Disk m) : Command → Work m Plan
  | init root name => planInit disk root name
  | info root json => planInfo disk root json
  | scan root sources json => planScan disk root sources json
  | report options => planReport disk options

/-- Makes the changes of a plan, if there is one. The answer has the plan only if all its changes
were made. -/
def complete (perform : Change → m (Except FileError Unit)) (planned : Except Problem Plan) :
    m (Except Problem Plan) := do
  match planned with
  | .error problem => return .error problem
  | .ok plan =>
    match ← Change.performAll perform plan.changes with
    | .error problem => return .error problem
    | .ok () => return .ok plan

/-- Runs a command. The answer has its notices. -/
def run (disk : Disk m) (perform : Change → m (Except FileError Unit)) (command : Command) :
    m (Except Problem Plan × List Notice) := do
  let (planned, notices) ← (plan disk command).run
  return (← complete perform planned, notices)

/-- The plan of a command on a file tree, with its notices. -/
def planOn (tree : Tree) (now : Text) (command : Command) : Except Problem Plan × List Notice :=
  (plan (tree.disk now) command).run

/-- Runs a command on a file tree. -/
def runOn (tree : Tree) (now : Text) (command : Command) :
    (Except Problem Plan × List Notice) × Tree :=
  let (planned, notices) := planOn tree now command
  let (completed, tree) := complete Tree.perform planned tree
  ((completed, notices), tree)

end KernelCensus.Command
