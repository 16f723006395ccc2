import KernelCensus.Proofs.Report.Partition
import KernelCensus.Proofs.Text.Words
import KernelCensus.Report.Summary

/-!
# What the summary shows

The lines of a summary are of two sorts. A line either shows a measurement, in the form that goes
with its place in the report, or it belongs to the frame: titles, sources, kernels, merges and
totals. The summary shows each measurement of the report by one line, in the order of the report.
Where metrics and kernels have no white space, such a line has no newline of its own, except where
it shows the name of a source.

* `Summary.Shows`: lines that show measurements, one each, within a frame.
* `Summary.shows_lines`: the summary of any report.
* `Measurement.Tidy`, `Summary.orphaned_of_newline_mem_lineAt`: newlines in lines.
-/

namespace KernelCensus

/-- The measurements that a report lists, each with its place. -/
def Report.records (report : Report) : List (Place × Measurement) :=
  report.buckets.flatMap fun bucket => bucket.2.map fun m => (bucket.1, m)

/-- The measurements that the section of a source lists, each with its place. -/
def SourceSection.records (part : SourceSection) : List (Place × Measurement) :=
  part.buckets.flatMap fun bucket => bucket.2.map fun m => (bucket.1, m)

/-- A section lists the measurements of its kernels, and then the others. -/
lemma SourceSection.records_eq (part : SourceSection) :
    part.records =
      (part.kernels.flatMap fun kernel => kernel.measurements.map fun m =>
        (.kernel part.source.name kernel.signature.name, m)) ++
      (part.unattributed.map fun m => (.unattributed part.source.name, m)) ++
      part.unmatched.map fun m => (.unmatched part.source.name, m) := by
  unfold records buckets
  rw [List.flatMap_append, List.flatMap_map, List.append_assoc]
  simp

/-- A report lists the measurements of its sections, and then those of sources that were not
scanned. -/
lemma Report.records_eq (report : Report) :
    report.records =
      report.sections.flatMap SourceSection.records ++
        report.orphaned.map fun m => (.orphaned, m) := by
  unfold records buckets
  rw [List.flatMap_append, List.flatMap_assoc, List.flatMap_singleton]
  rfl

/-- Only the measurements of sources that were not scanned have no source for a place. -/
lemma Report.mem_orphaned_of_mem_records (report : Report) {record : Place × Measurement}
    (h : record ∈ report.records) (hplace : record.1 = .orphaned) :
    record.2 ∈ report.orphaned := by
  rw [report.records_eq, List.mem_append, List.mem_flatMap, List.mem_map] at h
  obtain ⟨part, -, hpart⟩ | ⟨m, hm, rfl⟩ := h
  · -- a section has places of its own
    rw [part.records_eq] at hpart
    simp only [List.mem_append, List.mem_flatMap, List.mem_map] at hpart
    obtain (⟨_, -, _, -, rfl⟩ | ⟨_, -, rfl⟩) | ⟨_, -, rfl⟩ := hpart <;> cases hplace
  · exact hm

/-- A measurement as a result line shows it: the precision, and each metric behind its label. Nothing
stands behind the label of an absent metric. -/
def Measurement.shown (m : Measurement) : Text :=
  Text.concat ["[", m.precision.name, "] bx=", m.metrics.blockX.getD [],
    " by=", m.metrics.blockY.getD [], " gflops=", m.metrics.throughput.getD [],
    " bw=", m.metrics.bandwidth.getD [], " time_ms=", m.metrics.timeMs.getD []]

/-- Neither the metrics of a measurement nor the name of its kernel has white space. -/
structure Measurement.Tidy (m : Measurement) : Prop where
  metrics (metric : Metric) (value : Text) (h : m.metrics.get metric = some value) :
    ∀ c ∈ value, ¬ Unicode.isWhiteSpace c = true
  kernel (kernel : Text) (h : m.kernel.kernel? = some kernel) :
    ∀ c ∈ kernel, ¬ Unicode.isWhiteSpace c = true

namespace Summary

/-! ## Lines -/

/-- The result line for a measurement at its place in the report. -/
def lineAt : Place → Measurement → Text
  | .kernel _ _, m => Text.concat ["      ", m.shown]
  | .unattributed _, m => Text.concat ["      ", m.shown, " kernel=unknown"]
  | .unmatched _, m => Text.concat ["      ", m.shown, " kernel=", m.kernel.label]
  | .orphaned, m => Text.concat ["  - ", m.source, " / ", m.kernel.label, ": ", m.shown]

lemma measurementText_eq (m : Measurement) : measurementText m = m.shown := by
  unfold measurementText Metric.all
  rw [List.map_cons, Text.joinWith_cons]
  simp only [Measurement.shown, metricText, Text.concat, List.map_cons, List.map_nil,
    List.flatMap_cons, List.flatMap_nil, List.flatten_cons, List.flatten_nil, List.append_nil,
    List.append_assoc]
  rfl

lemma kernelLine_eq (source kernel : Text) (m : Measurement) :
    Text.concat ["      ", measurementText m] = lineAt (.kernel source kernel) m := by
  rw [measurementText_eq, lineAt]

lemma unattributedLine_eq (source : Text) (m : Measurement) :
    unattributedLine m = lineAt (.unattributed source) m := by
  rw [unattributedLine, measurementText_eq, lineAt]

lemma unmatchedLine_eq (source : Text) (m : Measurement) :
    unmatchedLine m = lineAt (.unmatched source) m := by
  rw [unmatchedLine, measurementText_eq, lineAt]

lemma orphanLine_eq (m : Measurement) : orphanLine m = lineAt .orphaned m := by
  rw [orphanLine, measurementText_eq, lineAt]

/-- The lines that are the same in all summaries, apart from those of the totals. -/
def fixedLines : List Text :=
  title ++ [[], "  (no tagged kernels)", "      (no best results)", "  Unattributed results:",
    "  Results for unregistered kernels:", "Results for unscanned sources:",
    "Sources merged by base name:"]

/-- A line of the summary of a report that shows no measurement. -/
inductive Frame (report : Report) : Text → Prop
  /-- A line that says nothing of the report. -/
  | fixed {line : Text} (h : line ∈ fixedLines) : Frame report line
  | heading {part : SourceSection} (h : part ∈ report.sections) :
    Frame report (sourceHeading part)
  | kernel {part : SourceSection} (h : part ∈ report.sections) {kernel : KernelSection}
    (hkernel : kernel ∈ part.kernels) :
    Frame report (Text.concat ["  - ", signatureText kernel.signature])
  | merge {merge : Merge} (h : merge ∈ report.merges) : Frame report (mergeLine merge)
  | totals {line : Text} (h : line ∈ totalsLines report.totals) : Frame report line

/-- Lines that show measurements: each measurement is shown by one line, in order, and the other
lines belong to the frame. -/
inductive Shows (report : Report) : List Text → List (Place × Measurement) → Prop
  | nil : Shows report [] []
  | frame {line : Text} {lines : List Text} {records : List (Place × Measurement)}
    (hline : Frame report line) (h : Shows report lines records) :
    Shows report (line :: lines) records
  /-- A line shows the next measurement. -/
  | record (place : Place) (m : Measurement) {lines : List Text}
    {records : List (Place × Measurement)} (h : Shows report lines records) :
    Shows report (lineAt place m :: lines) ((place, m) :: records)

namespace Shows

variable {report : Report}

/-- Lines one after another show their measurements one after another. -/
lemma append {front back : List Text} {first second : List (Place × Measurement)}
    (hfront : Shows report front first) (hback : Shows report back second) :
    Shows report (front ++ back) (first ++ second) := by
  induction hfront with
  | nil => exact hback
  | frame hline _ ih => exact frame hline ih
  | record place m _ ih => exact record place m ih

lemma of_frame {lines : List Text} (h : ∀ line ∈ lines, Frame report line) :
    Shows report lines [] := by
  induction lines with
  | nil => exact nil
  | cons line lines ih =>
    apply frame (h line List.mem_cons_self)
    apply ih
    intro other hother
    exact h other (List.mem_cons_of_mem line hother)

/-- The lines for the measurements of a place show them. -/
lemma of_place {place : Place} {print : Measurement → Text} (h : ∀ m, print m = lineAt place m)
    (ms : List Measurement) : Shows report (ms.map print) (ms.map fun m => (place, m)) := by
  induction ms with
  | nil => exact nil
  | cons m ms ih =>
    rw [List.map_cons, h]
    exact record place m ih

/-- What holds of the frame and of the lines for the measurements holds of all lines. -/
lemma forall_mem {lines : List Text} {records : List (Place × Measurement)} {p : Text → Prop}
    (h : Shows report lines records) (hframe : ∀ line, Frame report line → p line)
    (hrecords : ∀ record ∈ records, p (lineAt record.1 record.2)) : ∀ line ∈ lines, p line := by
  induction h with
  | nil => exact List.forall_mem_nil p
  | frame hline _ ih => exact List.forall_mem_cons.mpr ⟨hframe _ hline, ih hrecords⟩
  | record place m _ ih =>
    rw [List.forall_mem_cons] at hrecords ⊢
    exact ⟨hrecords.1, ih hrecords.2⟩

/-- A title shows nothing, whether it is there or left out. -/
lemma titled {title lines : List Text} {records : List (Place × Measurement)}
    (htitle : ∀ line ∈ title, line ∈ fixedLines) (h : Shows report lines records) :
    Shows report (Summary.titled title lines) records := by
  unfold Summary.titled
  cases lines with
  | nil => exact h
  | cons line lines => exact (of_frame fun other hother => .fixed (htitle other hother)).append h

/-- The lines of the parts of a list show the measurements of the parts. -/
lemma flatMap {α : Type} {xs : List α} {lines : α → List Text}
    {records : α → List (Place × Measurement)}
    (h : ∀ x ∈ xs, Shows report (lines x) (records x)) :
    Shows report (xs.flatMap lines) (xs.flatMap records) := by
  induction xs with
  | nil => exact nil
  | cons x xs ih =>
    rw [List.flatMap_cons, List.flatMap_cons]
    apply append (h x List.mem_cons_self)
    apply ih
    intro y hy
    exact h y (List.mem_cons_of_mem x hy)

end Shows

/-! ## Newlines -/

lemma newline_not_mem_of_letters {text : Text} (h : ∀ c ∈ text, ¬ Unicode.isWhiteSpace c = true) :
    '\n' ∉ text := by
  intro hnewline
  exact h _ hnewline (by decide)

section
variable {m : Measurement} (h : m.Tidy)

include h

lemma newline_not_mem_metric (metric : Metric) : '\n' ∉ (m.metrics.get metric).getD [] := by
  cases hmetric : m.metrics.get metric with
  | none => exact List.not_mem_nil
  | some value => exact newline_not_mem_of_letters (h.metrics metric value hmetric)

lemma newline_not_mem_shown : '\n' ∉ m.shown := by
  have hprecision : '\n' ∉ m.precision.name := by cases m.precision <;> decide
  have hblockX : '\n' ∉ m.metrics.blockX.getD [] := newline_not_mem_metric h .blockX
  have hblockY : '\n' ∉ m.metrics.blockY.getD [] := newline_not_mem_metric h .blockY
  have hthroughput : '\n' ∉ m.metrics.throughput.getD [] := newline_not_mem_metric h .throughput
  have hbandwidth : '\n' ∉ m.metrics.bandwidth.getD [] := newline_not_mem_metric h .bandwidth
  have htime : '\n' ∉ m.metrics.timeMs.getD [] := newline_not_mem_metric h .timeMs
  simp [Measurement.shown, Text.concat, hprecision, hblockX, hblockY, hthroughput, hbandwidth,
    htime]

/-- The kernel of a tidy measurement is shown without newline. -/
lemma newline_not_mem_label : '\n' ∉ m.kernel.label := by
  unfold Attribution.label
  cases hkernel : m.kernel.kernel? with
  | none => decide
  | some kernel => exact newline_not_mem_of_letters (h.kernel kernel hkernel)

/-- The line for a tidy measurement has a newline only if the name of a source has, and is shown. -/
theorem orphaned_of_newline_mem_lineAt {place : Place} (hline : '\n' ∈ lineAt place m) :
    place = .orphaned ∧ '\n' ∈ m.source := by
  have hshown := newline_not_mem_shown h
  have hlabel := newline_not_mem_label h
  cases place with
  | kernel source kernel => simp [lineAt, Text.concat, hshown] at hline
  | unattributed source => simp [lineAt, Text.concat, hshown] at hline
  | unmatched source => simp [lineAt, Text.concat, hshown, hlabel] at hline
  | orphaned => simpa [lineAt, Text.concat, hshown, hlabel] using hline

end

/-! ## Sources -/

variable {report : Report}

lemma shows_kernelLines {part : SourceSection} (hpart : part ∈ report.sections)
    {kernel : KernelSection} (hkernel : kernel ∈ part.kernels) :
    Shows report (kernelLines kernel)
      (kernel.measurements.map fun m =>
        (.kernel part.source.name kernel.signature.name, m)) := by
  unfold kernelLines
  apply Shows.frame (Frame.kernel hpart hkernel)
  cases kernel.measurements with
  | nil => exact Shows.frame (Frame.fixed (by decide)) Shows.nil
  | cons m ms =>
    exact Shows.of_place (kernelLine_eq part.source.name kernel.signature.name) (m :: ms)

/-- The lines for a source show the measurements of its section. -/
lemma shows_sourceLines {part : SourceSection} (hpart : part ∈ report.sections) :
    Shows report (sourceLines part) part.records := by
  have hkernels : Shows report
      (if part.kernels.isEmpty then ["  (no tagged kernels)".toList]
        else part.kernels.flatMap kernelLines)
      (part.kernels.flatMap fun kernel => kernel.measurements.map fun m =>
        (.kernel part.source.name kernel.signature.name, m)) := by
    cases hempty : part.kernels with
    | nil => exact Shows.frame (Frame.fixed (by decide)) Shows.nil
    | cons kernel kernels =>
      rw [← hempty, if_neg (by rw [hempty]; exact Bool.false_ne_true)]
      exact Shows.flatMap fun kernel hkernel => shows_kernelLines hpart hkernel
  have hunattributed : Shows report
      (titled ["  Unattributed results:"] (part.unattributed.map unattributedLine))
      (part.unattributed.map fun m => (.unattributed part.source.name, m)) :=
    Shows.titled (by decide)
      (Shows.of_place (unattributedLine_eq part.source.name) part.unattributed)
  have hunmatched : Shows report
      (titled ["  Results for unregistered kernels:"] (part.unmatched.map unmatchedLine))
      (part.unmatched.map fun m => (.unmatched part.source.name, m)) :=
    Shows.titled (by decide)
      (Shows.of_place (unmatchedLine_eq part.source.name) part.unmatched)
  rw [part.records_eq]
  unfold sourceLines
  exact ((Shows.frame (Frame.fixed (by decide)) (Shows.frame (Frame.heading hpart) hkernels)).append
    hunattributed).append hunmatched

/-! ## The whole summary -/

/-- The summary of a report shows each measurement of the report by one line, in the order of the
report, and its other lines belong to the frame. -/
theorem shows_lines (report : Report) : Shows report (lines report) report.records := by
  have hsections : Shows report (report.sections.flatMap sourceLines)
      (report.sections.flatMap SourceSection.records) :=
    Shows.flatMap fun part hpart => shows_sourceLines hpart
  have horphaned : Shows report
      (titled [[], "Results for unscanned sources:"] (report.orphaned.map orphanLine))
      (report.orphaned.map fun m => (.orphaned, m)) :=
    Shows.titled (by decide) (Shows.of_place orphanLine_eq report.orphaned)
  have hmerges : Shows report
      (titled [[], "Sources merged by base name:"] (report.merges.map mergeLine)) [] := by
    apply Shows.titled (by decide)
    apply Shows.of_frame
    intro line hline
    obtain ⟨merge, hmerge, rfl⟩ := List.mem_map.mp hline
    exact Frame.merge hmerge
  have htotals : Shows report (totalsLines report.totals) [] :=
    Shows.of_frame fun line hline => Frame.totals hline
  have htitle : Shows report title [] := Shows.of_frame fun line hline =>
    Frame.fixed (List.mem_append_left _ hline)
  have hlines := (((htitle.append hsections).append horphaned).append hmerges).append htotals
  rw [List.append_nil, List.append_nil] at hlines
  rw [report.records_eq]
  exact hlines

end Summary

end KernelCensus
