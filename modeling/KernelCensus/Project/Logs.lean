import KernelCensus.Log.Basic
import KernelCensus.Project.Layout
import KernelCensus.Source

/-!
# The logs of a project

Logs are found by name or named by the user. A log found by name belongs to the stem of a source and
a precision. Sources may share a stem, and then the first of them has the log. A log named by the
user is written `source:precision:path`.
-/

namespace KernelCensus

/-! ## Logs by name -/

namespace LogFile

def named (logsDir : Path) (source : SourceFile) (precision : Precision) : LogFile :=
  ⟨source.name, precision,
    logsDir.join ⟨Text.concat [source.stem, ".", precision.name, ".log"]⟩⟩

/-- The logs that sources ask for, source by source. -/
def candidates (logsDir : Path) (sources : List Path) (precisions : List Precision) :
    List LogFile :=
  sources.flatMap fun path => precisions.map (named logsDir (SourceFile.ofPath path))

def isClaimed (claimed : List Path) (log : LogFile) : Bool := claimed.any log.path.same

/-- The logs at paths that no earlier log claims. -/
def firstClaims : List Path → List LogFile → List LogFile
  | _, [] => []
  | claimed, log :: logs =>
    if isClaimed claimed log then firstClaims claimed logs
    else log :: firstClaims (log.path :: claimed) logs

/-- The notices about logs at paths that an earlier log claims. -/
def laterClaims : List Path → List LogFile → List Notice
  | _, [] => []
  | claimed, log :: logs =>
    if isClaimed claimed log then .claimedLog log.source log.path :: laterClaims claimed logs
    else laterClaims (log.path :: claimed) logs

/-- The logs of sources, whether they exist or not. -/
def discover (logsDir : Path) (sources : List Path) (precisions : List Precision) :
    List LogFile :=
  firstClaims [] (candidates logsDir sources precisions)

/-- The notices about logs that belong to an earlier source. -/
def discoveryNotices (logsDir : Path) (sources : List Path) (precisions : List Precision) :
    List Notice :=
  laterClaims [] (candidates logsDir sources precisions)

end LogFile

/-! ## Logs by specification -/

/-- What is wrong with the specification of a log. -/
inductive LogSpecError
  /-- It does not have three parts, or the source or the path is blank. -/
  | malformed (spec : Text)
  | precision (error : UnknownPrecision)
deriving Repr, DecidableEq

def LogSpecError.message : LogSpecError → Text
  | malformed spec =>
    Text.concat ["Invalid log spec '", spec, "'. Expected SOURCE:PRECISION:PATH"]
  | precision error => error.message

namespace LogFile

/-- The parts of a specification. Only the path may hold colons. -/
def specParts? (spec : Text) : Option (Text × Text × Text) := do
  let (source, rest) ← Text.cut? [':'] spec
  let (precision, path) ← Text.cut? [':'] rest
  if Text.isBlank source || Text.isBlank path then none else some (source, precision, path)

/-- The base name of the source that a specification means: a listed source of this name, or else of
this stem, or else the name itself. -/
def specSource (sources : List Path) (name : Text) : Text :=
  let known := sources.map SourceFile.ofPath
  match known.find? fun source => source.name == name with
  | some source => source.name
  | none =>
    match known.find? fun source => source.stem == name with
    | some source => source.name
    | none => name

def ofSpec (layout : Layout) (sources : List Path) (spec : Text) : Except LogSpecError LogFile :=
  match specParts? spec with
  | none => .error (.malformed spec)
  | some (source, precision, path) =>
    match Precision.parse precision with
    | .error error => .error (.precision error)
    | .ok precision => .ok ⟨specSource sources source, precision, layout.resolve path⟩

end LogFile

end KernelCensus
