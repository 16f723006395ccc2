import KernelCensus.Json.Decode
import KernelCensus.Registry

/-!
# JSON form of sources, signatures and registries
-/

namespace KernelCensus

/-- The JSON form of a path is its text. -/
def Path.toJson (path : Path) : Json := .text path.text

def Path.ofJson? (json : Json) : Option Path := json.text?.map Path.mk

def SourceFile.toJson (source : SourceFile) : Json :=
  .record [("path", source.path.toJson), ("name", .text source.name)]

def SourceFile.ofJson? (json : Json) : Option SourceFile := do
  let fields ← json.fields? ["path", "name"]
  some ⟨← fields.required "path" Path.ofJson?, ← fields.required "name" Json.text?⟩

def Signature.toJson (signature : Signature) : Json :=
  .record [("source", signature.source.toJson), ("name", .text signature.name),
    ("parameters", .text signature.parameters), ("is_template", .bool signature.isTemplate)]

def Signature.ofJson? (json : Json) : Option Signature := do
  let fields ← json.fields? ["source", "name", "parameters", "is_template"]
  some ⟨← fields.required "source" SourceFile.ofJson?, ← fields.required "name" Json.text?,
    ← fields.required "parameters" Json.text?, ← fields.required "is_template" Json.bool?⟩

def SourceEntry.toJson (entry : SourceEntry) : Json :=
  .record [("source", entry.source.toJson),
    ("kernels", .array (entry.kernels.map Signature.toJson))]

def SourceEntry.ofJson? (json : Json) : Option SourceEntry := do
  let fields ← json.fields? ["source", "kernels"]
  some ⟨← fields.required "source" SourceFile.ofJson?,
    ← fields.required "kernels" (Json.list? Signature.ofJson?)⟩

def Merge.toJson (merge : Merge) : Json :=
  .record [("name", .text merge.name), ("kept", merge.kept.toJson),
    ("merged", merge.merged.toJson)]

def Merge.ofJson? (json : Json) : Option Merge := do
  let fields ← json.fields? ["name", "kept", "merged"]
  some ⟨← fields.required "name" Json.text?, ← fields.required "kept" Path.ofJson?,
    ← fields.required "merged" Path.ofJson?⟩

/-- The JSON form of a registry. The merges are left out if there are none. -/
def Registry.toJson (registry : Registry) : Json :=
  .record (("sources", .array (registry.entries.map SourceEntry.toJson)) ::
    if registry.merges.isEmpty then []
    else [("collisions", .array (registry.merges.map Merge.toJson))])

end KernelCensus
