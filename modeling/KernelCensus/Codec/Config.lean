import KernelCensus.Codec.Measurement
import KernelCensus.Config.Basic

/-!
# JSON form of configurations

Fields that have a default may be left out. Keys that are not known are skipped.
-/

namespace KernelCensus

def PerMetric.aliasesToJson (aliases : PerMetric (List Text)) : Json :=
  .record (Metric.all.map fun metric => (metric.key, Json.texts (aliases.get metric)))

def PerMetric.aliasesOfJson? (json : Json) : Option (PerMetric (List Text)) := do
  let fields ← json.fields? (Metric.all.map Metric.key)
  let read (metric : Metric) :=
    fields.withDefault metric.key (Markers.defaultAliases.get metric) (Json.list? Json.text?)
  some ⟨← read .blockX, ← read .blockY, ← read .throughput, ← read .bandwidth, ← read .timeMs⟩

namespace Markers

/-- The keys of markers, in order. -/
def keys : List Text :=
  ["tag", "declaration_keyword", "template_keyword", "line_comment", "attribute_keywords",
    "best_marker", "kernel_label", "metric_keys"]

def toJson (markers : Markers) : Json :=
  .record [("tag", .text markers.tag), ("declaration_keyword", .text markers.declaration),
    ("template_keyword", .text markers.template), ("line_comment", .text markers.lineComment),
    ("attribute_keywords", Json.texts markers.attributes), ("best_marker", .text markers.best),
    ("kernel_label", .text markers.kernelLabel), ("metric_keys", markers.aliases.aliasesToJson)]

def ofJson? (json : Json) : Option Markers := do
  let fields ← json.fields? keys
  some {
    tag := ← fields.withDefault "tag" default.tag Json.text?
    declaration := ← fields.withDefault "declaration_keyword" default.declaration Json.text?
    template := ← fields.withDefault "template_keyword" default.template Json.text?
    lineComment := ← fields.withDefault "line_comment" default.lineComment Json.text?
    attributes :=
      ← fields.withDefault "attribute_keywords" default.attributes (Json.list? Json.text?)
    best := ← fields.withDefault "best_marker" default.best Json.text?
    kernelLabel := ← fields.withDefault "kernel_label" default.kernelLabel Json.text?
    aliases := ← fields.withDefault "metric_keys" default.aliases PerMetric.aliasesOfJson? }

end Markers

namespace Config

/-- The keys of a configuration, in order. -/
def keys : List Text :=
  ["name", "description", "config_version", "sources", "source_extensions", "logs_dir",
    "reports_dir", "precisions", "markers"]

/-- The members of the JSON form of a configuration that follow the description. -/
def settings (config : Config) : List (Text × Json) :=
  [("config_version", .text config.version), ("sources", Json.texts config.sources),
    ("source_extensions", Json.texts config.extensions), ("logs_dir", .text config.logsDir),
    ("reports_dir", .text config.reportsDir),
    ("precisions", .array (config.precisions.map Precision.toJson)),
    ("markers", config.markers.toJson)]

/-- The members of the JSON form of a configuration. The description is left out if there is
none. -/
def members (config : Config) : List (Text × Json) :=
  ("name", .text config.name) ::
    match config.description with
    | some description => ("description", .text description) :: config.settings
    | none => config.settings

def toJson (config : Config) : Json := .record config.members

/-- Reads a configuration. Only the name has to be given. -/
def ofJson? (json : Json) : Option Config := do
  let fields ← json.fields? keys
  let name ← fields.required "name" Json.text?
  let default := ofName name
  some {
    name
    description :=
      ← fields.withDefault "description" default.description (Json.nullable? Json.text?)
    version := ← fields.withDefault "config_version" default.version Json.text?
    sources := ← fields.withDefault "sources" default.sources (Json.list? Json.text?)
    extensions :=
      ← fields.withDefault "source_extensions" default.extensions (Json.list? Json.text?)
    logsDir := ← fields.withDefault "logs_dir" default.logsDir Json.text?
    reportsDir := ← fields.withDefault "reports_dir" default.reportsDir Json.text?
    precisions :=
      ← fields.withDefault "precisions" default.precisions (Json.list? Precision.ofJson?)
    markers := ← fields.withDefault "markers" default.markers Markers.ofJson? }

end Config

end KernelCensus
