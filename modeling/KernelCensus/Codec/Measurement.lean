import KernelCensus.Codec.Source
import KernelCensus.Measurement
import KernelCensus.Number.Binary64

/-!
# JSON form of measurements

An attribution is an object with its case under `kind` and its contents under `value`. The contents
of an unknown one are an object with the reason under `reason` and, for an ambiguous one, a count
beside it. Both are read in any order of their keys. A value whose case is read only later has to be
kept meanwhile, which asks more of it than skipping it would: its strings have to denote texts, its
numbers have to be finite, and its nesting is limited.
-/

namespace KernelCensus

/-! ## Values that are kept -/

namespace Json

/-- How deep values may be nested in all. -/
def depthLimit : Nat := 127

/-- Whether a number rounds to a finite one. -/
def isFinite (literal : Text) : Bool :=
  match Binary64.parse? literal with
  | some (.signed _ magnitude) => magnitude < Binary64.infinity
  | _ => false

mutual

/-- Whether the strings of a value denote texts and its numbers are finite. -/
def isPlain : Json → Bool
  | number literal => isFinite literal
  | string content => content.isSome
  | array items => itemsArePlain items
  | object members => membersArePlain members
  | _ => true

def itemsArePlain : List Json → Bool
  | [] => true
  | item :: items => item.isPlain && itemsArePlain items

def membersArePlain : List (Option Text × Json) → Bool
  | [] => true
  | (key, value) :: members => key.isSome && value.isPlain && membersArePlain members

end

/-- Whether a value within `outer` others can be kept. -/
def canBeKept (outer : Nat) (value : Json) : Bool :=
  value.isPlain && outer + value.depth ≤ depthLimit

end Json

/-! ## Precisions -/

/-- The JSON form of a precision is its name. -/
def Precision.toJson (precision : Precision) : Json := .text precision.name

def Precision.ofJson? (json : Json) : Option Precision := json.caseName?.bind Precision.ofName?

/-! ## Reasons -/

namespace Unresolved

def toJson : Unresolved → Json
  | noContext => .record [("reason", .text "no_kernel_context")]
  | noKernels => .record [("reason", .text "no_registered_kernels")]
  | ambiguous candidates =>
    .record [("reason", .text "ambiguous"), ("candidates", .count candidates)]

/-- The cases of a reason. -/
inductive Case
  | noContext
  | noKernels
  | ambiguous
deriving Repr, DecidableEq

/-- The cases by name, in order. -/
def cases : List (Text × Case) :=
  [("no_kernel_context", .noContext), ("no_registered_kernels", .noKernels),
    ("ambiguous", .ambiguous)]

/-- The case of a reason, by name or, in a value that was kept, by its place in the list of
cases. -/
def case? (kept : Bool) : Json → Option Case
  | .string (some name) => cases.lookup name
  | .number literal =>
    if kept then (Json.number literal).count?.bind fun place => cases[place]?.map (·.2) else none
  | _ => none

/-- The reason of a case whose other members are given. -/
def ofMembers? (members : List (Option Text × Json)) : Case → Option Unresolved
  | .noContext => some noContext
  | .noKernels => some noKernels
  | .ambiguous =>
    if Json.occurrences members "candidates" ≤ 1 then
      ((Json.member? members "candidates").bind Json.count?).map ambiguous
    else none

/-- The reason of a case whose other items are given. -/
def ofItems? : List Json → Case → Option Unresolved
  | [], .noContext => some noContext
  | [], .noKernels => some noKernels
  | [candidates], .ambiguous => candidates.count?.map ambiguous
  | _, _ => none

/-- Reads a reason that stands within `outer` other values; `kept` tells whether it was kept before
its own case was known. -/
def ofJson? (outer : Nat) (kept : Bool) : Json → Option Unresolved
  | .object members =>
    let others := members.filter fun member => !Json.hasKey "reason" member
    if Json.occurrences members "reason" = 1
        && others.all (fun member => member.1.isSome && member.2.canBeKept (outer + 1)) then
      ((Json.member? members "reason").bind (case? kept)).bind (ofMembers? others)
    else none
  | .array (name :: items) =>
    if items.all (Json.canBeKept (outer + 1)) then (case? kept name).bind (ofItems? items)
    else none
  | _ => none

end Unresolved

/-! ## Attributions -/

namespace Attribution

def toJson : Attribution → Json
  | logged kernel => .record [("kind", .text "logged"), ("value", .text kernel)]
  | inferred kernel => .record [("kind", .text "inferred"), ("value", .text kernel)]
  | unknown reason => .record [("kind", .text "unknown"), ("value", reason.toJson)]

/-- The attribution of a case with the given contents, which stand within `outer` values. -/
def ofCase? (outer : Nat) (kept : Bool) (name : Text) (contents : Json) : Option Attribution :=
  if name = "logged" then contents.text?.map logged
  else if name = "inferred" then contents.text?.map inferred
  else if name = "unknown" then (Unresolved.ofJson? outer kept contents).map unknown
  else none

/-- Reads an attribution that stands within `outer` other values. -/
def ofJson? (outer : Nat) : Json → Option Attribution
  | .object members =>
    match members.filter fun member => Json.hasKey "kind" member || Json.hasKey "value" member with
    | [(some key, first), (some _, second)] =>
      if members.all (fun member => member.1.isSome) && Json.occurrences members "kind" = 1 then
        if key = "kind" then first.caseName?.bind (ofCase? (outer + 1) false · second)
        else if first.canBeKept (outer + 1) then
          second.caseName?.bind (ofCase? (outer + 1) true · first)
        else none
      else none
    | _ => none
  | .array [name, contents] => name.text?.bind (ofCase? (outer + 1) false · contents)
  | _ => none

end Attribution

/-! ## Measurements -/

/-- The JSON form of metrics. An absent one is `null`. -/
def Metrics.toJson (metrics : Metrics) : Json :=
  .record (Metric.all.map fun metric =>
    (metric.key, match metrics.get metric with
      | some value => .text value
      | none => .null))

def Metrics.ofJson? (json : Json) : Option Metrics := do
  let fields ← json.fields? (Metric.all.map Metric.key)
  let read (metric : Metric) := fields.optional metric.key Json.text?
  some ⟨← read .blockX, ← read .blockY, ← read .throughput, ← read .bandwidth, ← read .timeMs⟩

def Measurement.toJson (m : Measurement) : Json :=
  .record [("source", .text m.source), ("kernel", m.kernel.toJson),
    ("precision", m.precision.toJson), ("metrics", m.metrics.toJson), ("log_path", m.log.toJson)]

def Measurement.ofJson? (json : Json) : Option Measurement := do
  let fields ← json.fields? ["source", "kernel", "precision", "metrics", "log_path"]
  some ⟨← fields.required "source" Json.text?,
    ← fields.required "kernel" (Attribution.ofJson? 1),
    ← fields.required "precision" Precision.ofJson?,
    ← fields.required "metrics" Metrics.ofJson?,
    ← fields.required "log_path" Path.ofJson?⟩

end KernelCensus
