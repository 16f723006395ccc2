import KernelCensus.Proofs.Census.Attribution
import KernelCensus.Proofs.Census.Isolation
import KernelCensus.Proofs.Report.Csv

/-!
# What an export says about kernels that are not known

An export shows a kernel by its name, and a kernel that is not known by a label. The label can be
the name of a kernel as well, since it is an identifier: a log may name a kernel so, and a source
may declare one. Such a measurement has a kernel, though its record reads as if it had none. All
other records say whether the kernel is known, and which it is.

* `Attribution.label_eq_unknownLabel_iff`, `Attribution.kernel?_eq_iff_of_label_eq`: labels.
* `Census.ShowsAsUnknown`: the measurements with a kernel that is named like the label.
* `Census.run_unknown_column`: what the exports of runs tell apart.
* `Census.unknown_column_of_named_kernel`: two runs with one export.
-/

namespace KernelCensus

/-! ## Labels -/

namespace Attribution

/-- The label for a kernel that is not known is shown for such a kernel, and for one of that
name. -/
lemma label_eq_unknownLabel_iff (attribution : Attribution) :
    attribution.label = unknownLabel ↔
      attribution.isUnknown = true ∨ attribution.kernel? = some unknownLabel := by
  cases attribution <;> simp [label, kernel?, isUnknown]

/-- Two attributions that are shown alike have the same kernel, or none, if and only if both are
known or none is. -/
lemma kernel?_eq_iff_of_label_eq {first second : Attribution} (h : first.label = second.label) :
    first.kernel? = second.kernel? ↔ first.isUnknown = second.isUnknown := by
  cases first <;> cases second <;> simp_all [label, kernel?, isUnknown]

end Attribution

namespace Csv

/-- The field of a record of the export of measurements under a column. -/
def fieldUnder? (column : Text) (record : List Text) : Option Text :=
  record[measurementColumns.idxOf column]?

/-- The column of kernels has the labels of the attributions. -/
lemma fieldUnder?_kernel (m : Measurement) :
    fieldUnder? "kernel" (measurementRecord m) = some m.kernel.label :=
  rfl

/-- Exports that are the same text show the same labels for kernels. -/
lemma forall₂_label {ms others : List Measurement}
    (h : writeMeasurements ms = writeMeasurements others) :
    List.Forall₂ (fun m other => m.kernel.label = other.kernel.label) ms others := by
  have hread := congrArg read h
  rw [read_writeMeasurements, read_writeMeasurements] at hread
  have hrecords := (List.cons.inj hread).2
  rw [← List.forall₂_eq_eq_eq, List.forall₂_map_left_iff, List.forall₂_map_right_iff] at hrecords
  refine hrecords.imp fun m other hrecord => ?_
  have hfield := congrArg (fieldUnder? "kernel") hrecord
  rw [fieldUnder?_kernel, fieldUnder?_kernel] at hfield
  exact Option.some.inj hfield

end Csv

/-! ## Runs -/

namespace Census

/-- Whether the measurement at a site has a kernel that is named like the label for a kernel that is
not known. Either its log names it last up to the site, or no line up to the site names a kernel and
this is the only one that the source declares. -/
def ShowsAsUnknown (read : ReadFile) (markers : Markers) (paths : List Path) (site : Log.Site) :
    Prop :=
  site.kernel? markers = some Attribution.unknownLabel ∨
    site.kernel? markers = none ∧
      Declares read markers paths site.log.source Attribution.unknownLabel ∧
      ∀ other, Declares read markers paths site.log.source other → other = Attribution.unknownLabel

section
variable {read : ReadFile} {config : Config} {inputs : Inputs} {result : Outcome}

/-- What is shown for the kernel at a site is the label just if the kernel is not known or named like
the label. -/
lemma label_site_iff (read : ReadFile) (markers : Markers) (paths : List Path) (site : Log.Site) :
    ((site.measurement markers).repair (scanSources read markers paths)).kernel.label =
        Attribution.unknownLabel ↔
      ((site.measurement markers).repair (scanSources read markers paths)).kernel.isUnknown = true ∨
        ShowsAsUnknown read markers paths site := by
  rw [Attribution.label_eq_unknownLabel_iff, kernel?_site]
  rfl

/-- If no kernel of a run is named like the label, the label is shown just for kernels that are not
known. -/
lemma label_iff_isUnknown (hrun : run read config inputs = .ok result)
    (hnone : ∀ site ∈ sitesOfLogs read config.markers inputs.logs,
      ¬ ShowsAsUnknown read config.markers inputs.sources site)
    {m : Measurement} (hm : m ∈ result.measurements) :
    m.kernel.label = Attribution.unknownLabel ↔ m.kernel.isUnknown = true := by
  obtain ⟨-, rfl⟩ := (run_eq_ok_iff read config inputs result).mp hrun
  replace hm : m ∈ (outcome read config.markers inputs).measurements := hm
  rw [measurements_outcome] at hm
  obtain ⟨site, hsite, rfl⟩ := List.mem_map.mp hm
  rw [label_site_iff, or_iff_left (hnone site hsite)]

/-- The export of a run, read back, shows the label for a kernel that is not known in the column of
kernels just where the measurement has no kernel or one that is named like the label. Two runs with
the same export have the same kernels, measurement by measurement, except where only one of the two
kernels is known. If neither run has a kernel that is named like the label, there is no exception. -/
theorem run_unknown_column (hrun : run read config inputs = .ok result) :
    Csv.read (Csv.writeMeasurements result.measurements) =
      Csv.measurementColumns :: result.measurements.map Csv.measurementRecord ∧
    List.Forall₂ (fun site m =>
        Csv.fieldUnder? "kernel" (Csv.measurementRecord m) = some Attribution.unknownLabel ↔
          m.kernel.isUnknown = true ∨ ShowsAsUnknown read config.markers inputs.sources site)
      (sitesOfLogs read config.markers inputs.logs) result.measurements ∧
    ∀ {read' : ReadFile} {config' : Config} {inputs' : Inputs} {result' : Outcome},
      run read' config' inputs' = .ok result' →
      Csv.writeMeasurements result.measurements = Csv.writeMeasurements result'.measurements →
        List.Forall₂ (fun m m' => m.kernel.kernel? = m'.kernel.kernel? ↔
          m.kernel.isUnknown = m'.kernel.isUnknown) result.measurements result'.measurements ∧
        ((∀ site ∈ sitesOfLogs read config.markers inputs.logs,
            ¬ ShowsAsUnknown read config.markers inputs.sources site) →
          (∀ site ∈ sitesOfLogs read' config'.markers inputs'.logs,
            ¬ ShowsAsUnknown read' config'.markers inputs'.sources site) →
          result.measurements.map (fun m => m.kernel.kernel?) =
            result'.measurements.map fun m => m.kernel.kernel?) := by
  refine ⟨Csv.read_writeMeasurements _, ?_, ?_⟩
  · obtain ⟨-, rfl⟩ := (run_eq_ok_iff read config inputs result).mp hrun
    show List.Forall₂ _ _ (outcome read config.markers inputs).measurements
    rw [measurements_outcome, List.forall₂_map_right_iff, List.forall₂_same]
    intro site _
    rw [Csv.fieldUnder?_kernel, Option.some_inj]
    exact label_site_iff read config.markers inputs.sources site
  · intro read' config' inputs' result' hrun' hexports
    have hlabels := Csv.forall₂_label hexports
    refine ⟨hlabels.imp fun _ _ => Attribution.kernel?_eq_iff_of_label_eq, fun hnone hnone' => ?_⟩
    rw [List.forall₂_iff_zip] at hlabels
    rw [← List.forall₂_eq_eq_eq, List.forall₂_map_left_iff, List.forall₂_map_right_iff,
      List.forall₂_iff_zip]
    refine ⟨hlabels.1, fun {m m'} hpair => ?_⟩
    obtain ⟨hm, hm'⟩ := List.of_mem_zip hpair
    have hlabel : m.kernel.label = m'.kernel.label := hlabels.2 hpair
    rw [Attribution.kernel?_eq_iff_of_label_eq hlabel, Bool.eq_iff_iff,
      ← label_iff_isUnknown hrun hnone hm, ← label_iff_isUnknown hrun' hnone' hm', hlabel]

end

/-- Two runs of one export. One log names the kernel that the other one leaves to be inferred, and
the second log is of a source that was not scanned. -/
theorem run_unknown_column_inferred :
    let read (text : Text) : ReadFile := fun path =>
      if path.text = "a.cu".toList then
        .ok (Utf8.encode "// @kernel\n__global__ void f(int n)\n".toList)
      else if path.text = "1.log".toList then .ok (Utf8.encode text)
      else .ok (Utf8.encode "[BEST] bx=2\n".toList)
    let inputs : Inputs := ⟨[⟨"a.cu".toList⟩], [⟨"a.cu".toList, .float, ⟨"1.log".toList⟩⟩,
      ⟨"b.cu".toList, .float, ⟨"2.log".toList⟩⟩]⟩
    ∃ named inferred,
      run (read "kernel: f\n[BEST] bx=1\n".toList) (.ofName []) inputs = .ok named ∧
      run (read "[BEST] bx=1\n".toList) (.ofName []) inputs = .ok inferred ∧
      Csv.writeMeasurements named.measurements = Csv.writeMeasurements inferred.measurements ∧
      Csv.read (Csv.writeMeasurements named.measurements) =
        Csv.measurementColumns :: named.measurements.map Csv.measurementRecord ∧
      named.measurements.map (fun m => m.kernel.kernel?) = [some ['f'], none] ∧
      named.measurements.map (fun m => m.kernel.kernel?) =
        inferred.measurements.map fun m => m.kernel.kernel? := by
  intro read inputs
  have hrun (text : Text) : run (read text) (.ofName []) inputs = .ok _ :=
    (run_eq_ok_iff (read text) (.ofName []) inputs _).mpr ⟨by decide +kernel, rfl⟩
  have hnone (text : Text)
      (hkernels : ∀ site ∈ sitesOfLogs (read text) (Config.ofName []).markers inputs.logs,
        site.kernel? (Config.ofName []).markers ≠ some Attribution.unknownLabel ∧
          (scanSources (read text) (Config.ofName []).markers inputs.sources).hasKernel
            site.log.source Attribution.unknownLabel = false) :
      ∀ site ∈ sitesOfLogs (read text) (Config.ofName []).markers inputs.logs,
        ¬ ShowsAsUnknown (read text) (Config.ofName []).markers inputs.sources site := by
    intro site hsite
    obtain ⟨hlogged, hdeclared⟩ := hkernels site hsite
    rintro (hshows | ⟨-, hdeclares, -⟩)
    · exact hlogged hshows
    · rw [(hasKernel_scanSources _ _ _ _ _).mpr hdeclares] at hdeclared
      cases hdeclared
  have hexports : Csv.writeMeasurements
        (outcome (read "kernel: f\n[BEST] bx=1\n".toList) (Config.ofName []).markers
          inputs).measurements =
      Csv.writeMeasurements
        (outcome (read "[BEST] bx=1\n".toList) (Config.ofName []).markers inputs).measurements := by
    decide +kernel
  obtain ⟨hread, -, hothers⟩ := run_unknown_column (hrun "kernel: f\n[BEST] bx=1\n".toList)
  have hsame := (hothers (hrun "[BEST] bx=1\n".toList) hexports).2
    (hnone _ (by decide +kernel)) (hnone _ (by decide +kernel))
  exact ⟨_, _, hrun _, hrun _, hexports, hread, by decide +kernel, hsame⟩

/-- A log that names a kernel like the label and one that names none, of a source with two kernels.
The runs have the same export, which shows the label, but one has a kernel there and the other has
none. -/
theorem unknown_column_of_named_kernel :
    let read (text : Text) : ReadFile := fun path =>
      if path.text = "a.cu".toList then .ok (Utf8.encode (Text.unlines
        ["// @kernel", "__global__ void f(int n)", "// @kernel", "__global__ void g()"]))
      else .ok (Utf8.encode text)
    let inputs : Inputs := ⟨[⟨"a.cu".toList⟩], [⟨"a.cu".toList, .float, ⟨"1.log".toList⟩⟩]⟩
    ∃ named plain,
      run (read "kernel: unknown\n[BEST] bx=1\n".toList) (.ofName []) inputs = .ok named ∧
      run (read "[BEST] bx=1\n".toList) (.ofName []) inputs = .ok plain ∧
      Csv.writeMeasurements named.measurements = Csv.writeMeasurements plain.measurements ∧
      named.measurements.map (·.kernel) = [.logged Attribution.unknownLabel] ∧
      plain.measurements.map (·.kernel) = [.unknown (.ambiguous 2)] ∧
      ¬ ∀ m ∈ named.measurements,
        (Csv.fieldUnder? "kernel" (Csv.measurementRecord m) = some Attribution.unknownLabel ↔
          m.kernel.isUnknown = true) := by
  intro read inputs
  have hrun (text : Text) : run (read text) (.ofName []) inputs = .ok _ :=
    (run_eq_ok_iff (read text) (.ofName []) inputs _).mpr ⟨by decide +kernel, rfl⟩
  refine ⟨_, _, hrun _, hrun _, ?_, ?_, ?_, ?_⟩ <;> decide +kernel

end Census

end KernelCensus
