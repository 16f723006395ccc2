import KernelCensus.Markers
import KernelCensus.Precision

/-!
# Configurations

A configuration names a project and says where its sources, logs and reports are and which markers
they use.
-/

namespace KernelCensus

/-- The configuration of a project. -/
structure Config where
  name : Text
  description : Option Text
  version : Text
  /-- The files and directories to scan, seen from the root of the project. -/
  sources : List Text
  /-- The extensions of the files that are scanned in a directory. -/
  extensions : List Text
  logsDir : Text
  reportsDir : Text
  precisions : List Precision
  markers : Markers
deriving Repr, DecidableEq

namespace Config

def defaultVersion : Text := "0.1.0"

def defaultExtensions : List Text := ["cu", "cuh"]

def defaultLogsDir : Text := "logs"

def defaultReportsDir : Text := "reports"

/-- The configuration of a project that sets nothing but its name. -/
def ofName (name : Text) : Config where
  name
  description := none
  version := defaultVersion
  sources := []
  extensions := defaultExtensions
  logsDir := defaultLogsDir
  reportsDir := defaultReportsDir
  precisions := Precision.all
  markers := Markers.default

end Config

end KernelCensus
