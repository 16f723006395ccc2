import KernelCensus.Codec.Config
import KernelCensus.Yaml.Decode

/-!
# Configurations in YAML

A configuration has the same keys and defaults in YAML as in JSON.
-/

namespace KernelCensus

open Yaml (Node Decoder)

def Precision.ofYaml? : Decoder Precision := fun document node =>
  (Node.caseName? document node).bind Precision.ofName?

def PerMetric.aliasesOfYaml? : Decoder (PerMetric (List Text)) := fun document node => do
  let fields ← Node.fields? (Metric.all.map Metric.key) document node
  let read (metric : Metric) :=
    fields.withDefault metric.key (Markers.defaultAliases.get metric) (Node.list? Node.text?)
  some ⟨← read .blockX, ← read .blockY, ← read .throughput, ← read .bandwidth, ← read .timeMs⟩

def Markers.ofYaml? : Decoder Markers := fun document node => do
  let fields ← Node.fields? keys document node
  some {
    tag := ← fields.withDefault "tag" default.tag Node.text?
    declaration := ← fields.withDefault "declaration_keyword" default.declaration Node.text?
    template := ← fields.withDefault "template_keyword" default.template Node.text?
    lineComment := ← fields.withDefault "line_comment" default.lineComment Node.text?
    attributes :=
      ← fields.withDefault "attribute_keywords" default.attributes (Node.list? Node.text?)
    best := ← fields.withDefault "best_marker" default.best Node.text?
    kernelLabel := ← fields.withDefault "kernel_label" default.kernelLabel Node.text?
    aliases := ← fields.withDefault "metric_keys" default.aliases PerMetric.aliasesOfYaml? }

/-- Reads the configuration that a document holds. Only the name has to be given. -/
def Config.ofYaml? (document : Node) : Option Config := do
  let fields ← Node.fields? keys document document
  let name ← fields.required "name" Node.text?
  let default := ofName name
  some {
    name
    description :=
      ← fields.withDefault "description" default.description (Node.nullable? Node.text?)
    version := ← fields.withDefault "config_version" default.version Node.text?
    sources := ← fields.withDefault "sources" default.sources (Node.list? Node.text?)
    extensions :=
      ← fields.withDefault "source_extensions" default.extensions (Node.list? Node.text?)
    logsDir := ← fields.withDefault "logs_dir" default.logsDir Node.text?
    reportsDir := ← fields.withDefault "reports_dir" default.reportsDir Node.text?
    precisions :=
      ← fields.withDefault "precisions" default.precisions (Node.list? Precision.ofYaml?)
    markers := ← fields.withDefault "markers" default.markers Markers.ofYaml? }

end KernelCensus
