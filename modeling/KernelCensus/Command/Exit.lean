import KernelCensus.Command.Arguments
import KernelCensus.Command.Run
import KernelCensus.Version

/-!
# The end of a run

What the program answers to its arguments: what it prints, and its exit code.
-/

namespace KernelCensus

/-- The end of a run of the program. -/
structure Exit where
  /-- The exit code: 1 if the command fails, 2 if the arguments are rejected. -/
  code : UInt8
  output : Text
  errorOutput : Text
deriving Repr, DecidableEq

/-- The causes of a problem, as shown. Several are numbered. -/
def causeLines : List Text → List Text
  | [] => []
  | [cause] => [[], "Caused by:", Text.concat ["    ", cause]]
  | causes =>
    [] :: "Caused by:" :: causes.zipIdx.map fun (cause, i) =>
      Text.concat ["    ", Text.ofNat i, ": ", cause]

def Problem.text (problem : Problem) : Text :=
  match problem.chain with
  | [] => []
  | message :: causes => Text.unlines (Text.concat ["Error: ", message] :: causeLines causes)

def programName : Text := "kernel-survey"

def helpText : Text :=
  Text.unlines
    ["Extract tagged kernel signatures and correlate them with benchmark logs",
      [],
      "kernel-survey [--verbose] init-project [--root DIR] [--name NAME]",
      "kernel-survey [--verbose] project-info [--root DIR] [--json]",
      "kernel-survey [--verbose] scan [--root DIR] [--source PATH]... [--json]",
      "kernel-survey [--verbose] report [--root DIR] [--config FILE] [--source PATH]...",
      "    [--log SOURCE:PRECISION:PATH]... [--json]"]

def Stop.exit : Stop → Exit
  | help => ⟨0, helpText, []⟩
  | version => ⟨0, Text.unlines [Text.concat [programName, " ", KernelCensus.version]], []⟩
  | misuse error => ⟨2, [], Text.unlines [Text.concat ["error: ", error.message], [], helpText]⟩

def exitOf : Except Problem Plan → Exit
  | .ok plan => ⟨0, plan.output, []⟩
  | .error problem => ⟨1, [], problem.text⟩

/-- Runs the program with arguments on a file tree. -/
def Tree.runProgram (tree : Tree) (now : Text) (arguments : List Text) : Exit × Tree :=
  match Arguments.read arguments with
  | .error stop => (stop.exit, tree)
  | .ok (command, _) =>
    let ((result, _), tree) := command.runOn tree now
    (exitOf result, tree)

end KernelCensus
