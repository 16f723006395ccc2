import KernelCensus.Text.Basic

/-!
# Commands

What a user may ask for, with the options as given. A command names the root of its project.
-/

namespace KernelCensus

/-- The options of a report. -/
structure ReportOptions where
  root : Text
  /-- The configuration file, if it is not that of the project. -/
  config : Option Text
  /-- The files and directories to scan. If there are none, those of the configuration. -/
  sources : List Text
  /-- The specifications of the logs. If there are none, logs are found by name. -/
  logs : List Text
  json : Bool
deriving Repr, DecidableEq

/-- Something to do with a project. -/
inductive Command
  /-- Sets up a project. Without a name it is called like its root. -/
  | init (root : Text) (name : Option Text)
  | info (root : Text) (json : Bool)
  | scan (root : Text) (sources : List Text) (json : Bool)
  | report (options : ReportOptions)
deriving Repr, DecidableEq

end KernelCensus
