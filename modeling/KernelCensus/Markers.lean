import KernelCensus.Metric

/-!
# Markers

The texts that the scanners look for in sources and logs. Settings that could match everything or
nothing are rejected before a scan starts.
-/

namespace KernelCensus

/-- The textual markers of sources and logs. -/
structure Markers where
  tag : Text
  declaration : Text
  /-- Marks the declaration as a template; blank for none. -/
  template : Text
  /-- Starts a comment that ends with the line; empty for none. -/
  lineComment : Text
  attributes : List Text
  best : Text
  /-- The label of the lines of a log that name a kernel. -/
  kernelLabel : Text
  aliases : PerMetric (List Text)
deriving Repr, DecidableEq

namespace Markers

def defaultAliases : PerMetric (List Text) where
  blockX := ["bx", "block_x"]
  blockY := ["by", "block_y"]
  throughput := ["gflops", "tflops"]
  bandwidth := ["bw", "bandwidth", "gbps"]
  timeMs := ["time_ms", "time", "ms"]

def default : Markers where
  tag := "@kernel"
  declaration := "__global__"
  template := "template"
  lineComment := "//"
  attributes := ["__launch_bounds__", "__attribute__"]
  best := "[BEST]"
  kernelLabel := "kernel"
  aliases := defaultAliases

/-! ## Validity -/

/-- The markers that must not be blank. -/
inductive Required
  | tag
  | declaration
  | best
  | kernelLabel
deriving Repr, DecidableEq

namespace Required

/-- The markers that must not be blank, in the order in which they are checked. -/
def all : List Required := [tag, declaration, best, kernelLabel]

def key : Required → Text
  | tag => "tag"
  | declaration => "declaration_keyword"
  | best => "best_marker"
  | kernelLabel => "kernel_label"

def get (markers : Markers) : Required → Text
  | tag => markers.tag
  | declaration => markers.declaration
  | best => markers.best
  | kernelLabel => markers.kernelLabel

end Required

/-- What is wrong with markers. -/
inductive Fault
  | blank (marker : Required)
  /-- A metric has no key but blank ones. -/
  | noKey (metric : Metric)
deriving Repr, DecidableEq

def Fault.message (fault : Fault) : Text :=
  match fault with
  | .blank marker =>
    Text.concat ["Invalid marker configuration: '", marker.key, "' must not be empty"]
  | .noKey metric =>
    Text.concat
      ["Invalid marker configuration: metric '", metric.key, "' needs at least one key"]

/-- The first fault of the markers: blank markers come before metrics without a key. -/
def fault? (markers : Markers) : Option Fault :=
  match Required.all.find? fun marker => Text.isBlank (marker.get markers) with
  | some marker => some (.blank marker)
  | none =>
    (Metric.all.find? fun metric => (markers.aliases.get metric).all Text.isBlank).map .noKey

/-- Markers without fault pass unchanged. -/
def validate (markers : Markers) : Except Fault Markers :=
  match markers.fault? with
  | some fault => .error fault
  | none => .ok markers

end Markers

end KernelCensus
