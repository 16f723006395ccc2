import KernelCensus.Text.Basic

/-!
# Metrics

The five quantities of a best-result line. A log gives each as a token of text, which is kept as
logged: an absent quantity stays absent.
-/

namespace KernelCensus

/-- One of the quantities that a best-result line reports. -/
inductive Metric
  | blockX
  | blockY
  | throughput
  | bandwidth
  | timeMs
deriving Repr, DecidableEq

namespace Metric

/-- All metrics, in the order of the columns of an export. -/
def all : List Metric := [blockX, blockY, throughput, bandwidth, timeMs]

/-- The name of a metric as a key of a record. -/
def key : Metric → Text
  | blockX => "block_x"
  | blockY => "block_y"
  | throughput => "throughput"
  | bandwidth => "bandwidth"
  | timeMs => "time_ms"

end Metric

/-- A value for each metric. -/
structure PerMetric (α : Type) where
  blockX : α
  blockY : α
  /-- The rate of arithmetic. -/
  throughput : α
  /-- The rate of memory traffic. -/
  bandwidth : α
  timeMs : α
deriving Repr, DecidableEq

namespace PerMetric

variable {α β : Type}

def get (values : PerMetric α) : Metric → α
  | .blockX => values.blockX
  | .blockY => values.blockY
  | .throughput => values.throughput
  | .bandwidth => values.bandwidth
  | .timeMs => values.timeMs

/-- The values with the one for `metric` replaced. -/
def set (values : PerMetric α) (metric : Metric) (value : α) : PerMetric α :=
  match metric with
  | .blockX => { values with blockX := value }
  | .blockY => { values with blockY := value }
  | .throughput => { values with throughput := value }
  | .bandwidth => { values with bandwidth := value }
  | .timeMs => { values with timeMs := value }

def ofFn (f : Metric → α) : PerMetric α :=
  ⟨f .blockX, f .blockY, f .throughput, f .bandwidth, f .timeMs⟩

@[simp] theorem get_ofFn (f : Metric → α) (metric : Metric) : (ofFn f).get metric = f metric := by
  cases metric <;> rfl

@[simp] theorem get_set_self (values : PerMetric α) (metric : Metric) (value : α) :
    (values.set metric value).get metric = value := by
  cases metric <;> rfl

theorem get_set_of_ne (values : PerMetric α) {metric other : Metric} (value : α)
    (h : other ≠ metric) : (values.set metric value).get other = values.get other := by
  cases metric <;> cases other <;> simp_all [get, set]

end PerMetric

/-- The metrics of a best-result line, each as logged or absent. -/
abbrev Metrics := PerMetric (Option Text)

namespace Metrics

def empty : Metrics := PerMetric.ofFn fun _ => none

/-- The metrics with `value` for `metric` unless that has one already. -/
def fill (metrics : Metrics) (metric : Metric) (value : Text) : Metrics :=
  match metrics.get metric with
  | some _ => metrics
  | none => metrics.set metric (some value)

end Metrics

end KernelCensus
