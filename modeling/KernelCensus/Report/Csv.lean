import KernelCensus.Measurement
import KernelCensus.Registry

/-!
# Exports as comma-separated values

Two exports, one of the registered kernels and one of the measurements. A field with a comma, a
quote or a newline is quoted, and a quote inside it is written twice.
-/

namespace KernelCensus.Csv

/-- A field with each quote written twice. -/
def doubleQuotes (field : Text) : Text :=
  field.flatMap fun c => if c = '"' then ['"', '"'] else [c]

def needsQuotes (field : Text) : Bool := field.any fun c => c == ',' || c == '"' || c == '\n'

def writeField (field : Text) : Text :=
  if needsQuotes field then '"' :: doubleQuotes field ++ ['"'] else field

def writeRecord (fields : List Text) : Text :=
  Text.joinWith [','] (fields.map writeField) ++ ['\n']

/-- The written form of a table, one record a line. -/
def write (records : List (List Text)) : Text := records.flatMap writeRecord

/-! ## Kernels -/

def kernelColumns : List Text :=
  ["source_file", "kernel", "parameters", "is_template", "source_path"]

def kernelRecord (signature : Signature) : List Text :=
  [signature.source.name, signature.name, signature.parameters,
    if signature.isTemplate then "true" else "false", signature.source.path.text]

/-- The export of the registered kernels, in the order of the registry. -/
def writeKernels (registry : Registry) : Text :=
  write (kernelColumns :: registry.signatures.map kernelRecord)

/-! ## Measurements -/

def measurementColumns : List Text :=
  ["source_file", "kernel", "precision", "block_x", "block_y", "gflops", "bandwidth", "time_ms",
    "log_path"]

/-- The record of a measurement. An absent metric is an empty field. -/
def measurementRecord (m : Measurement) : List Text :=
  [m.source, m.kernel.label, m.precision.name] ++
    Metric.all.map (fun metric => (m.metrics.get metric).getD []) ++ [m.log.text]

/-- The export of measurements, in the order given. -/
def writeMeasurements (measurements : List Measurement) : Text :=
  write (measurementColumns :: measurements.map measurementRecord)

end KernelCensus.Csv
