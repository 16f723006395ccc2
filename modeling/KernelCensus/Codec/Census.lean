import KernelCensus.Census.Basic
import KernelCensus.Codec.Measurement

/-!
# JSON form of the inputs and records of a run
-/

namespace KernelCensus

def LogFile.toJson (log : LogFile) : Json :=
  .record [("source_name", .text log.source), ("precision", log.precision.toJson),
    ("path", log.path.toJson)]

def LogFile.ofJson? (json : Json) : Option LogFile := do
  let fields ← json.fields? ["source_name", "precision", "path"]
  some ⟨← fields.required "source_name" Json.text?, ← fields.required "precision" Precision.ofJson?,
    ← fields.required "path" Path.ofJson?⟩

def Inputs.toJson (inputs : Inputs) : Json :=
  .record [("sources", .array (inputs.sources.map Path.toJson)),
    ("logs", .array (inputs.logs.map LogFile.toJson))]

def Inputs.ofJson? (json : Json) : Option Inputs := do
  let fields ← json.fields? ["sources", "logs"]
  some ⟨← fields.required "sources" (Json.list? Path.ofJson?),
    ← fields.required "logs" (Json.list? LogFile.ofJson?)⟩

/-- The JSON form of a kind of files is its name. -/
def FileKind.toJson (kind : FileKind) : Json := .text kind.name

def FileKind.ofJson? (json : Json) : Option FileKind := json.caseName?.bind FileKind.ofName?

def Failure.toJson (failure : Failure) : Json :=
  .record [("kind", failure.kind.toJson), ("path", failure.path.toJson),
    ("message", .text failure.message)]

def Failure.ofJson? (json : Json) : Option Failure := do
  let fields ← json.fields? ["kind", "path", "message"]
  some ⟨← fields.required "kind" FileKind.ofJson?, ← fields.required "path" Path.ofJson?,
    ← fields.required "message" Json.text?⟩

/-- The members of the JSON form of what a run counted. -/
def Tally.members (tally : Tally) : List (Text × Json) :=
  [("scripts_analyzed", .count tally.sources), ("kernels_detected", .count tally.kernels),
    ("best_results", .count tally.measurements), ("unattributed", .count tally.unattributed),
    ("name_collisions", .count tally.merged), ("failures", .count tally.failures)]

/-- The members of the JSON form of the bookkeeping of a run. -/
def Metadata.members (metadata : Metadata) : List (Text × Json) :=
  ("config_hash", .text metadata.configHash) :: ("started_at", .text metadata.startedAt) ::
    ("finished_at", .text metadata.finishedAt) :: metadata.tally.members

def Metadata.toJson (metadata : Metadata) : Json := .record metadata.members

def Metadata.ofJson? (json : Json) : Option Metadata := do
  let fields ← json.fields?
    ["config_hash", "started_at", "finished_at", "scripts_analyzed", "kernels_detected",
      "best_results", "unattributed", "name_collisions", "failures"]
  some ⟨← fields.required "config_hash" Json.text?, ← fields.required "started_at" Json.text?,
    ← fields.required "finished_at" Json.text?,
    { sources := ← fields.required "scripts_analyzed" Json.count?
      kernels := ← fields.required "kernels_detected" Json.count?
      measurements := ← fields.required "best_results" Json.count?
      unattributed := ← fields.required "unattributed" Json.count?
      merged := ← fields.required "name_collisions" Json.count?
      failures := ← fields.required "failures" Json.count? }⟩

end KernelCensus
