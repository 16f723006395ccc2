import KernelCensus.Files.Error
import KernelCensus.Path
import KernelCensus.Precision

/-!
# Notices

What a run has to say about its inputs besides its results. Notices are values, listed in the order
in which they arise; showing them is left to the program.
-/

namespace KernelCensus

/-- How much a notice matters. -/
inductive Severity
  | debug
  | info
  | warning
deriving Repr, DecidableEq

def Severity.name : Severity → Text
  | debug => "DEBUG"
  | info => "INFO"
  | warning => "WARN"

/-- Why a tagged declaration is dropped. -/
inductive DropCause
  /-- The next tag comes before any declaration. -/
  | tagFollows
  /-- The next tag comes before the end of the declaration. -/
  | tagInterrupts
  | noDeclaration
  | unterminated
  | unnamed (head : Text)
deriving Repr, DecidableEq

def DropCause.message : DropCause → Text
  | tagFollows => "tag without declaration before next tag; dropping"
  | tagInterrupts => "unterminated declaration before next tag; dropping"
  | noDeclaration => "tag without declaration at end of input"
  | unterminated => "unterminated declaration at end of input"
  | unnamed _ => "declaration has no nameable identifier; dropping"

/-- The named details of a drop, the source and the line of the tag aside. -/
def DropCause.fields : DropCause → List (Text × Text)
  | unnamed head => [("head", head)]
  | _ => []

/-- The counts that a run ends with. -/
structure Tally where
  sources : Nat
  kernels : Nat
  measurements : Nat
  unattributed : Nat
  merged : Nat
  failures : Nat
deriving Repr, DecidableEq

/-- Something a run has to say. -/
inductive Notice
  | dropped (source : Text) (tagLine : Nat) (cause : DropCause)
  | scannedSource (source : Text) (kernels : Nat)
  | scannedLog (source : Text) (precision : Precision) (log : Path) (measurements : Nat)
  | mergedSource (name : Text) (kept merged : Path)
  | unreadableSource (source : Path) (error : FileError)
  | missingLog (log : Path)
  | unreadableLog (log : Path) (error : FileError)
  /-- A log belongs to an earlier source with the same stem. -/
  | claimedLog (source : Text) (log : Path)
  | noConfiguration (root : Path)
  | complete (tally : Tally)
deriving Repr, DecidableEq

namespace Notice

def severity : Notice → Severity
  | scannedSource .. => .debug
  | scannedLog .. => .debug
  | missingLog .. => .debug
  | noConfiguration .. => .debug
  | complete .. => .info
  | _ => .warning

def message : Notice → Text
  | dropped _ _ cause => cause.message
  | scannedSource .. => "scanned source"
  | scannedLog .. => "scanned log"
  | mergedSource .. => "source base name already registered from another path; merging"
  | unreadableSource .. => "skipping unreadable source"
  | missingLog .. => "log artifact missing; no results"
  | unreadableLog .. => "skipping unreadable log"
  | claimedLog .. => "log already claimed by a source with the same stem; skipping"
  | noConfiguration .. => "no project config; using defaults"
  | complete .. => "survey complete"

def fields : Notice → List (Text × Text)
  | dropped source tagLine cause =>
    ("source", source) :: ("tag_line", Text.ofNat tagLine) :: cause.fields
  | scannedSource source kernels => [("source", source), ("kernels", Text.ofNat kernels)]
  | scannedLog source precision log measurements =>
    [("source", source), ("precision", precision.name), ("log", log.text),
      ("results", Text.ofNat measurements)]
  | mergedSource name kept merged => [("name", name), ("kept", kept.text), ("merged", merged.text)]
  | unreadableSource source error => [("source", source.text), ("error", error.message)]
  | missingLog log => [("log", log.text)]
  | unreadableLog log error => [("log", log.text), ("error", error.message)]
  | claimedLog source log => [("source", source), ("log", log.text)]
  | noConfiguration root => [("root", root.text)]
  | complete tally =>
    [("scripts", Text.ofNat tally.sources), ("kernels", Text.ofNat tally.kernels),
      ("results", Text.ofNat tally.measurements),
      ("unattributed", Text.ofNat tally.unattributed),
      ("name_collisions", Text.ofNat tally.merged), ("failures", Text.ofNat tally.failures)]

end Notice

end KernelCensus
