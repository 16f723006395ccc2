import KernelCensus.Config.File
import KernelCensus.Project.Logs

/-!
# Problems

Why a command on a project fails. A problem is told as a chain of messages: what was to be done, and
then why that failed.
-/

namespace KernelCensus

/-- What a command changes something for. -/
inductive Purpose
  | metaDir
  | logsDir
  | reportsDir
  | config
  /-- The directory of the files of a report. -/
  | reportHome
  | artifact
deriving Repr, DecidableEq

def Purpose.failure (path : Path) : Purpose → Text
  | metaDir => Text.concat ["Failed to create meta dir: ", path.text]
  | logsDir => Text.concat ["Failed to create logs dir: ", path.text]
  | reportsDir => Text.concat ["Failed to create reports dir: ", path.text]
  | config => Text.concat ["Failed to write survey config: ", path.text]
  | reportHome => Text.concat ["Failed to ensure reports dir ", path.text]
  | artifact => Text.concat ["Failed to write report artifact at ", path.text]

/-- Why a command fails. -/
inductive Problem
  | noCurrentDirectory (error : FileError)
  | unreadableConfig (path : Path) (error : FileError)
  | malformedConfig
  | invalidConfig (fault : Markers.Fault)
  | givenConfig (path : Path) (error : ConfigError)
  | unlistableDirectory (path : Path) (error : FileError)
  | logSpec (error : LogSpecError)
  | run (fault : Markers.Fault)
  | change (purpose : Purpose) (path : Path) (error : FileError)
deriving Repr, DecidableEq

/-- The cause of a rejected configuration file that its message leaves to the operating system. -/
def ConfigError.cause : ConfigError → List Text
  | unreadable _ error => [error.message]
  | _ => []

/-- The messages for a problem, from what was to be done to the cause. -/
def Problem.chain : Problem → List Text
  | noCurrentDirectory error => ["Failed to get current directory", error.message]
  | unreadableConfig path error =>
    [Text.concat ["Failed to read survey config at ", path.text], error.message]
  | malformedConfig => ["Failed to parse survey config JSON", ConfigError.jsonDetail]
  | invalidConfig fault => ["Survey config has invalid markers", fault.message]
  | givenConfig path error =>
    Text.concat ["Failed to load survey config at ", path.text] :: error.message :: error.cause
  | unlistableDirectory path error =>
    [Text.concat ["Failed to read ", path.text], error.message]
  | logSpec error => [error.message]
  | run fault => ["Failed to run kernel survey", fault.message]
  | change purpose path error => [purpose.failure path, error.message]

end KernelCensus
