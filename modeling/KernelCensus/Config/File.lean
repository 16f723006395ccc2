import KernelCensus.Config.Yaml
import KernelCensus.Files.Error
import KernelCensus.Json.Reader
import KernelCensus.Path
import KernelCensus.Text.Utf8

/-!
# Configuration files

A configuration file holds YAML if its extension says so, and JSON otherwise. Its markers have to be
valid.
-/

namespace KernelCensus

/-- Why a configuration file is rejected. -/
inductive ConfigError
  | unreadable (path : Path) (error : FileError)
  | malformedJson
  | malformedYaml
  | markers (fault : Markers.Fault)
deriving Repr, DecidableEq

namespace ConfigError

/-- What a message has in the place of the details of malformed JSON. -/
def jsonDetail : Text := "<json error>"

/-- What a message has in the place of the details of malformed YAML. -/
def yamlDetail : Text := "<yaml error>"

def message : ConfigError → Text
  | unreadable path error =>
    Text.concat ["Failed to read config at ", path.text, ": ", error.message]
  | malformedJson => Text.concat ["Failed to parse config JSON: ", jsonDetail]
  | malformedYaml => Text.concat ["Failed to parse config YAML: ", yamlDetail]
  | markers fault => fault.message

end ConfigError

namespace Config

/-- Reads a configuration as JSON. Its markers are not looked at. -/
def ofJsonText? (text : Text) : Option Config := (Json.parse? text).bind ofJson?

/-- Reads a configuration as YAML. Its markers are not looked at. -/
def ofYamlText? (text : Text) : Option Config := (Yaml.Node.ofText? text).bind ofYaml?

def isYaml (path : Path) : Bool :=
  path.extension? == some "yaml".toList || path.extension? == some "yml".toList

/-- Reads the text of a configuration file at a path. -/
def ofFileText (path : Path) (text : Text) : Except ConfigError Config :=
  if isYaml path then
    match ofYamlText? text with
    | some config => .ok config
    | none => .error .malformedYaml
  else
    match ofJsonText? text with
    | some config => .ok config
    | none => .error .malformedJson

/-- The configuration, if its markers are valid. -/
def validate (config : Config) : Except ConfigError Config :=
  match config.markers.validate with
  | .ok _ => .ok config
  | .error fault => .error (.markers fault)

/-- Reads a configuration file that has the given contents, or cannot be read. -/
def ofFile (path : Path) (contents : Except FileError Bytes) : Except ConfigError Config :=
  match contents with
  | .error error => .error (.unreadable path error)
  | .ok bytes =>
    match Utf8.decode? bytes with
    | none => .error (.unreadable path .notUtf8)
    | some text => (ofFileText path text).bind validate

end Config

end KernelCensus
