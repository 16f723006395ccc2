import KernelCensus.Proofs.Census.Attribution
import KernelCensus.Proofs.Census.Isolation
import KernelCensus.Proofs.Extraction.Normal
import KernelCensus.Proofs.Extraction.Signatures
import KernelCensus.Proofs.Log.Values
import KernelCensus.Proofs.Report.Csv
import KernelCensus.Proofs.Report.Reading

/-!
# The files of a report agree

The files that a run writes come from three things: the exports from the registry and from the
measurements, the summary from the report, and the bookkeeping from the counts of the report. They
agree because the report is built from the registry and the measurements: it has a section for each
entry, in order, and its lists make up the measurements. What a log or a declaration says cannot
break the lines of the summary, since it is cut out without newlines. The name of a source can.

* `Report.map_signature_sections`, `Report.map_snd_records_perm`: the report beside the registry and
  the measurements.
* `tidy_of_mem_measurements`, `tidy_report`: what a run reads has no newlines.
* `run_artifacts`: the files of a run.
* `run_artifacts_broken_name`: a summary with a line more than the report has measurements.
-/

namespace KernelCensus

/-! ## The report and what it is built from -/

/-- The kernels of a report are those of the registry, in the same order. -/
lemma Report.map_signature_sections (registry : Registry) (ms : List Measurement) :
    ((Report.build registry ms).sections.flatMap (·.kernels)).map (·.signature) =
      registry.signatures := by
  have hentry (entry : SourceEntry) :
      (SourceSection.build registry ms entry).kernels.map (·.signature) = entry.kernels := by
    show (entry.kernels.map _).map _ = _
    rw [List.map_map]
    exact List.map_id _
  show ((registry.entries.map (SourceSection.build registry ms)).flatMap _).map _ = _
  rw [List.flatMap_map, List.map_flatMap]
  exact List.flatMap_congr fun entry _ => hentry entry

/-- The measurements that a report lists with their places are those of its lists. -/
lemma Report.map_snd_records (report : Report) :
    report.records.map Prod.snd = report.buckets.flatMap Prod.snd := by
  unfold records
  rw [List.map_flatMap]
  apply List.flatMap_congr
  intro bucket _
  rw [List.map_map]
  exact List.map_id _

/-- A report lists each measurement that it is built from, and no other. -/
lemma Report.map_snd_records_perm {registry : Registry} (h : registry.Indexed)
    (ms : List Measurement) : ((Report.build registry ms).records.map Prod.snd).Perm ms := by
  rw [Report.map_snd_records]
  exact Report.flatMap_buckets_perm h ms

namespace Census

variable (read : ReadFile) (markers : Markers)

/-! ## The measurements of a run -/

/-- A kernel that a source declares has a name without white space. -/
lemma letters_of_declares {paths : List Path} {source kernel : Text}
    (h : Declares read markers paths source kernel) :
    ∀ c ∈ kernel, ¬ Unicode.isWhiteSpace c = true := by
  obtain ⟨path, -, text, -, -, signature, hsignature, rfl⟩ := h
  exact (Extraction.isPlain_of_mem_signatures markers _ hsignature).letters

/-- The measurements of a run have no white space in their metrics and in the names of their
kernels, whether a log names the kernel or a source declares it. -/
theorem tidy_of_mem_measurements {inputs : Inputs} {m : Measurement}
    (h : m ∈ (outcome read markers inputs).measurements) : m.Tidy := by
  rw [measurements_outcome] at h
  obtain ⟨site, -, rfl⟩ := List.mem_map.mp h
  constructor
  · intro metric value hvalue
    rw [Measurement.repair_eq] at hvalue
    exact Log.letters_of_metrics hvalue
  · intro kernel hkernel
    rcases (kernel?_site read markers inputs.sources site kernel).mp hkernel with
      hlogged | ⟨-, hdeclares, -⟩
    · exact site.letters_of_kernel? hlogged
    · exact letters_of_declares read markers hdeclares

/-- A kernel that a source declares has no newline in its name and its parameters. -/
lemma newline_not_mem_of_mem_signatures {paths : List Path} {signature : Signature}
    (h : signature ∈ (scanSources read markers paths).signatures) :
    '\n' ∉ signature.name ∧ '\n' ∉ signature.parameters := by
  obtain ⟨path, -, text, -, hsignature⟩ := exists_source_of_mem_signatures read markers paths h
  obtain ⟨buffer, declaration, hdeclaration, -, hparameters, -⟩ :=
    Extraction.exists_declaration_of_mem_signatures markers _ hsignature
  constructor
  · exact Summary.newline_not_mem_of_letters
      (Extraction.isPlain_of_mem_signatures markers _ hsignature).letters
  · -- the white space of parameters is single spaces
    rw [hparameters]
    intro hnewline
    have hspace := (Declaration.isSqueezed_of_ofText? hdeclaration).spaces _ hnewline (by decide)
    exact absurd hspace (by decide)

/-- The report of a run shows kernels and measurements without newlines. -/
theorem tidy_report (inputs : Inputs) : (outcome read markers inputs).report.Tidy where
  kernels := by
    intro part hpart kernel hkernel
    have hsignature : kernel.signature ∈ (scanSources read markers inputs.sources).signatures := by
      rw [← Report.map_signature_sections _ (outcome read markers inputs).measurements]
      exact List.mem_map_of_mem (List.mem_flatMap_of_mem hpart hkernel)
    exact newline_not_mem_of_mem_signatures read markers hsignature
  records := by
    intro record hrecord
    have hrecords := Report.map_snd_records_perm
      (indexed_scanSources read markers inputs.sources) (outcome read markers inputs).measurements
    exact tidy_of_mem_measurements read markers (hrecords.mem_iff.mp (List.mem_map_of_mem hrecord))

/-! ## The whole run -/

/-- The files of a run agree with its report. The export of kernels, read back, has the kernels of
the report, in the same order. The export of measurements has each measurement that the report
lists, and no other. The summary shows each of these by one line, in the order of the report, and
such a line is broken only by a newline in the name of a source that was not scanned. Where no
source has a newline in its name, these are the result lines that stand in the text of the summary.
The bookkeeping has the counts of the report and the number of failures. -/
theorem run_artifacts (config : Config) (inputs : Inputs) (result : Outcome)
    (hrun : run read config inputs = .ok result) (startedAt finishedAt : Text) :
    let report := result.report
    let kernels := report.sections.flatMap (·.kernels)
    (Csv.read (Csv.writeKernels result.registry) =
        Csv.kernelColumns :: kernels.map (fun kernel => Csv.kernelRecord kernel.signature) ∧
      kernels.length = report.totals.kernels) ∧
    (Csv.read (Csv.writeMeasurements result.measurements) =
        Csv.measurementColumns :: result.measurements.map Csv.measurementRecord ∧
      result.measurements.length = report.totals.measurements ∧
      (∀ bucket ∈ report.buckets, ∀ m ∈ bucket.2, m ∈ result.measurements) ∧
      (report.buckets.flatMap Prod.snd).Perm result.measurements) ∧
    (report.records.length = report.totals.measurements ∧
      (∃ lines, Summary.render report = Text.unlines lines ∧
        Summary.Shows report lines report.records ∧
        ∀ place m, (place, m) ∈ report.records → '\n' ∈ Summary.lineAt place m →
          place = .orphaned ∧ '\n' ∈ m.source) ∧
      (report.NamesUnbroken → Summary.resultLines (Summary.render report) =
        report.records.map fun record => Summary.lineAt record.1 record.2)) ∧
    (metadata config result startedAt finishedAt).tally =
      ⟨report.totals.sources, report.totals.kernels, report.totals.measurements,
        report.totals.unattributed, report.totals.merged, result.failures.length⟩ := by
  intro report kernels
  obtain ⟨-, rfl⟩ := (run_eq_ok_iff read config inputs result).mp hrun
  have hindexed := indexed_scanSources read config.markers inputs.sources
  have hsignatures : kernels.map (·.signature) =
      (scanSources read config.markers inputs.sources).signatures :=
    Report.map_signature_sections _ _
  have hrecords : (report.records.map Prod.snd).Perm
      (outcome read config.markers inputs).measurements :=
    Report.map_snd_records_perm hindexed _
  have htidy : report.Tidy := tidy_report read config.markers inputs
  refine ⟨⟨?_, ?_⟩, ⟨Csv.read_writeMeasurements _, rfl, ?_, ?_⟩,
    ⟨?_, ⟨Summary.lines report, rfl, Summary.shows_lines report, ?_⟩, ?_⟩, rfl⟩
  · show Csv.read (Csv.writeKernels (scanSources read config.markers inputs.sources)) = _
    rw [Csv.read_writeKernels, ← hsignatures, List.map_map]
    rfl
  · -- the totals count the kernels of the registry
    have hlength := congrArg List.length hsignatures
    rw [List.length_map] at hlength
    exact hlength
  · intro bucket hbucket m hm
    exact Report.mem_of_mem_bucket hindexed hbucket hm
  · rw [← Report.map_snd_records]
    exact hrecords
  · have hlength := hrecords.length_eq
    rw [List.length_map] at hlength
    exact hlength
  · intro place m hrecord hline
    exact Summary.orphaned_of_newline_mem_lineAt (htidy.records (place, m) hrecord) hline
  · intro hnames
    exact Summary.resultLines_render hnames htidy

/-- A source with a comma in its path and two kernels, one log that names a kernel only after its
first measurement, and one log of a source that was not scanned. -/
theorem run_artifacts_quoted_path :
    let read : ReadFile := fun path =>
      if path.text = "a,b.cu".toList then
        .ok (Utf8.encode (Text.unlines ["// @kernel", "__global__ void f(int n, int m)",
          "// @kernel", "__global__ void g()"]))
      else if path.text = "1.log".toList then
        .ok (Utf8.encode (Text.unlines ["[BEST] bx=1", "kernel: f",
          "[BEST] bx=2 by=4 gflops=90.5 bw=8 time_ms=0.7"]))
      else .ok (Utf8.encode (Text.unlines ["[BEST] bx=3"]))
    let inputs : Inputs := ⟨[⟨"a,b.cu".toList⟩], [⟨"a,b.cu".toList, .float, ⟨"1.log".toList⟩⟩,
      ⟨"gone.cu".toList, .half, ⟨"2.log".toList⟩⟩]⟩
    ∃ result, run read (.ofName []) inputs = .ok result ∧
      Csv.read (Csv.writeKernels result.registry) = Csv.kernelColumns ::
        [["a,b.cu".toList, ['f'], "int n, int m".toList, "false".toList, "a,b.cu".toList],
          ["a,b.cu".toList, ['g'], [], "false".toList, "a,b.cu".toList]] ∧
      (Csv.read (Csv.writeMeasurements result.measurements)).length = 4 ∧
      result.report.records.map Prod.fst = [.kernel "a,b.cu".toList ['f'],
        .unattributed "a,b.cu".toList, .orphaned] ∧
      Summary.resultLines (Summary.render result.report) =
        ["      [float] bx=2 by=4 gflops=90.5 bw=8 time_ms=0.7".toList,
          "      [float] bx=1 by= gflops= bw= time_ms= kernel=unknown".toList,
          "  - gone.cu / unknown: [half] bx=3 by= gflops= bw= time_ms=".toList] ∧
      (metadata (.ofName []) result [] []).tally = ⟨1, 2, 3, 1, 0, 0⟩ := by
  intro read inputs
  have hmarkers : (Config.ofName []).markers.fault? = none := by decide +kernel
  have hrun := (run_eq_ok_iff read (.ofName []) inputs _).mpr ⟨hmarkers, rfl⟩
  have hnames : (outcome read (Config.ofName []).markers inputs).report.NamesUnbroken :=
    ⟨by decide +kernel, by decide +kernel, by decide +kernel⟩
  obtain ⟨⟨hkernels, -⟩, ⟨hmeasurements, -⟩, ⟨-, -, hlines⟩, htally⟩ :=
    run_artifacts read (.ofName []) inputs _ hrun [] []
  refine ⟨_, hrun, hkernels.trans (by decide +kernel), ?_, by decide +kernel,
    (hlines hnames).trans (by decide +kernel), htally.trans (by decide +kernel)⟩
  rw [hmeasurements]
  decide +kernel

/-- The name of a source is shown as it is. With newlines in it, it can have a result line to show
for a report without measurements. -/
theorem run_artifacts_broken_name :
    let name := "a\n      [float] bx=1 by= gflops= bw= time_ms=2\nb.cu".toList
    let line := "      [float] bx=1 by= gflops= bw= time_ms=2".toList
    ∃ result, run (fun _ => .ok []) (.ofName []) ⟨[⟨name⟩], []⟩ = .ok result ∧
      result.report.records = [] ∧
      line ∈ (Summary.render result.report).splitOn '\n' ∧
      Summary.resultLines (Summary.render result.report) = [line] := by
  intro name line
  have hmarkers : (Config.ofName []).markers.fault? = none := by decide +kernel
  refine ⟨_, (run_eq_ok_iff _ _ _ _).mpr ⟨hmarkers, rfl⟩, ?_, ?_, ?_⟩ <;> decide +kernel

end Census

end KernelCensus
