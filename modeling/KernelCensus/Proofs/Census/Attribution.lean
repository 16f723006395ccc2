import KernelCensus.Proofs.Census.Sources
import KernelCensus.Proofs.Repair

/-!
# Attribution through a whole run

A run takes a measurement from a line of a log to a kernel of the report in four stages: the scan of
the log, the registry, the repair and the join. The statement about the whole run speaks of texts
only: of what the log says up to the line and of what the readable sources declare.

* `measurements_outcome`: the measurements of a run, site by site.
* `run_attributes`: which measurements a run comes to, and where its report lists each of them.
-/

namespace KernelCensus

namespace Census

variable (read : ReadFile) (markers : Markers)

/-! ## Sites of a run -/

/-- The sites of a log, none if it cannot be read. -/
def sitesOfLog (log : LogFile) : List Log.Site :=
  match readText read log.path with
  | .ok text => Log.sites markers log (Text.lines text)
  | .error _ => []

/-- The sites of logs, log by log. -/
def sitesOfLogs (logs : List LogFile) : List Log.Site := logs.flatMap (sitesOfLog read markers)

/-- Each site of the logs is measured once, in order. -/
lemma flatMap_measurementsOfLog (logs : List LogFile) :
    logs.flatMap (measurementsOfLog read markers) =
      (sitesOfLogs read markers logs).map (Log.Site.measurement markers) := by
  rw [sitesOfLogs, List.map_flatMap]
  refine List.flatMap_congr fun log _ => ?_
  unfold measurementsOfLog sitesOfLog
  cases readText read log.path with
  | error error => rfl
  | ok text => exact Log.measurements_eq markers log text

/-- The measurements of a run are those at its sites, repaired. -/
theorem measurements_outcome (inputs : Inputs) :
    (outcome read markers inputs).measurements =
      (sitesOfLogs read markers inputs.logs).map fun site =>
        (site.measurement markers).repair (scanSources read markers inputs.sources) := by
  show repair _ _ = _
  rw [repair, flatMap_measurementsOfLog, List.map_map]
  rfl

/-! ## The place of a site -/

/-- Which kernel a repaired measurement has, by the lines of its log and the declarations of its
source. -/
lemma kernel?_site (paths : List Path) (site : Log.Site) (kernel : Text) :
    ((site.measurement markers).repair (scanSources read markers paths)).kernel.kernel? =
        some kernel ↔
      site.kernel? markers = some kernel ∨
        site.kernel? markers = none ∧
          Declares read markers paths site.log.source kernel ∧
          ∀ other, Declares read markers paths site.log.source other → other = kernel := by
  have hlogged : (site.measurement markers).kernel.kernel? = site.kernel? markers := by
    show (Log.attribution _).kernel? = _
    cases site.kernel? markers <;> rfl
  have hsource : (site.measurement markers).source = site.log.source := rfl
  -- the repair asks for the only kernel of the source, and only if the log names none
  rw [Measurement.kernel?_repair, hlogged, hsource, Option.or_eq_some_iff,
    (indexed_scanSources read markers paths).soleKernel?_eq_some_iff]
  simp only [hasKernel_scanSources]

/-- Where the report of a run lists the measurement of a site. -/
lemma lists_site_iff (inputs : Inputs) {site : Log.Site}
    (hsite : site ∈ sitesOfLogs read markers inputs.logs) (source kernel : Text) :
    (outcome read markers inputs).report.Lists source kernel
        ((site.measurement markers).repair (scanSources read markers inputs.sources)) ↔
      source = site.log.source ∧ IsScanned read inputs.sources source ∧
        (site.kernel? markers = some kernel ∧ Declares read markers inputs.sources source kernel ∨
          site.kernel? markers = none ∧ Declares read markers inputs.sources source kernel ∧
            ∀ other, Declares read markers inputs.sources source other → other = kernel) := by
  have hindexed := indexed_scanSources read markers inputs.sources
  have hmem : (site.measurement markers).repair (scanSources read markers inputs.sources) ∈
      (outcome read markers inputs).measurements := by
    rw [measurements_outcome]
    exact List.mem_map.mpr ⟨site, hsite, rfl⟩
  have hsource : ((site.measurement markers).repair
      (scanSources read markers inputs.sources)).source = site.log.source := by
    rw [Measurement.repair_eq]
    rfl
  show (Report.build _ (outcome read markers inputs).measurements).Lists _ _ _ ↔ _
  -- the place of a measurement is decided by its source, its kernel and what is registered
  rw [Report.lists_build_iff hindexed, Registry.placeOf_eq_kernel_iff, kernel?_site, hsource,
    hasSource_scanSources, hasKernel_scanSources]
  constructor
  · rintro ⟨-, rfl, hscanned, hkernel, hdeclares⟩
    refine ⟨rfl, hscanned, ?_⟩
    rcases hkernel with hlogged | ⟨hnone, hsole⟩
    · exact Or.inl ⟨hlogged, hdeclares⟩
    · exact Or.inr ⟨hnone, hsole⟩
  · rintro ⟨rfl, hscanned, hcase⟩
    rcases hcase with ⟨hlogged, hdeclares⟩ | ⟨hnone, hdeclares, honly⟩
    · exact ⟨hmem, rfl, hscanned, Or.inl hlogged, hdeclares⟩
    · exact ⟨hmem, rfl, hscanned, Or.inr ⟨hnone, hdeclares, honly⟩, hdeclares⟩

/-! ## The whole run -/

/-- With valid markers a run comes to one measurement for each site of its logs, in order. Its
report lists the measurement of a site under a kernel of a source if and only if that is the source
of the log, it was scanned, and the kernel is declared there and either named last up to the site,
in the lines of this log, or the only one where no line names any. -/
theorem run_attributes (config : Config) (inputs : Inputs)
    (hmarkers : config.markers.fault? = none) :
    ∃ outcome, run read config inputs = .ok outcome ∧
      (∀ source kernel, outcome.registry.hasKernel source kernel = true ↔
        Declares read config.markers inputs.sources source kernel) ∧
      List.Forall₂ (fun site m =>
        m.source = site.log.source ∧ m.precision = site.log.precision ∧
        m.log = site.log.path ∧ m.metrics = Log.metrics config.markers.aliases site.line ∧
        ∀ source kernel, outcome.report.Lists source kernel m ↔
          source = site.log.source ∧ IsScanned read inputs.sources source ∧
            (site.kernel? config.markers = some kernel ∧
                Declares read config.markers inputs.sources source kernel ∨
              site.kernel? config.markers = none ∧
                Declares read config.markers inputs.sources source kernel ∧
                ∀ other, Declares read config.markers inputs.sources source other →
                  other = kernel))
        (sitesOfLogs read config.markers inputs.logs) outcome.measurements := by
  have hvalid : config.markers.validate = .ok config.markers := by
    rw [Markers.validate, hmarkers]
  refine ⟨_, by rw [run, hvalid]; rfl, ?_, ?_⟩
  · exact hasKernel_scanSources read config.markers inputs.sources
  · show List.Forall₂ _ _ (outcome read config.markers inputs).measurements
    rw [measurements_outcome, List.forall₂_map_right_iff, List.forall₂_same]
    intro site hsite
    refine ⟨?_, ?_, ?_, ?_, lists_site_iff read config.markers inputs hsite⟩ <;>
      rw [Measurement.repair_eq] <;> rfl

/-- A log without context is credited to the only kernel of its source, and the next log does not
see the kernel that a log before it names. -/
theorem run_attributes_two_logs :
    let read : ReadFile := fun path =>
      if path.text = "a.cu".toList then
        .ok (Utf8.encode "// @kernel\n__global__ void f(int n)\n".toList)
      else if path.text = "1.log".toList then .ok (Utf8.encode "kernel: g\n[BEST] bx=1\n".toList)
      else .ok (Utf8.encode "[BEST] bx=2\n".toList)
    let log (path : Text) : LogFile := ⟨"a.cu".toList, .float, ⟨path⟩⟩
    let inputs : Inputs := ⟨[⟨"a.cu".toList⟩], [log "1.log".toList, log "2.log".toList]⟩
    ∃ outcome first second, run read (.ofName []) inputs = .ok outcome ∧
      outcome.measurements = [first, second] ∧
      ¬ outcome.report.Lists "a.cu".toList ['f'] first ∧
      outcome.report.Lists "a.cu".toList ['f'] second := by
  intro read log inputs
  obtain ⟨outcome, hrun, -, hsites⟩ := run_attributes read (.ofName []) inputs (by decide +kernel)
  have hlogs : sitesOfLogs read (Config.ofName []).markers inputs.logs =
      [⟨log "1.log".toList, ["kernel: g".toList, "[BEST] bx=1".toList], ⟨1, by decide⟩⟩,
        ⟨log "2.log".toList, ["[BEST] bx=2".toList], ⟨0, by decide⟩⟩] := by decide +kernel
  have hread : readText read ⟨"a.cu".toList⟩ =
      .ok "// @kernel\n__global__ void f(int n)\n".toList := by decide +kernel
  have hsignatures : Extraction.signatures (Config.ofName []).markers (.ofPath ⟨"a.cu".toList⟩)
      "// @kernel\n__global__ void f(int n)\n".toList =
      [⟨.ofPath ⟨"a.cu".toList⟩, ['f'], "int n".toList, false⟩] := by decide +kernel
  have hdeclares : Declares read (Config.ofName []).markers inputs.sources "a.cu".toList ['f'] :=
    ⟨_, List.mem_singleton_self _, _, hread, by decide +kernel, _,
      hsignatures ▸ List.mem_singleton_self _, rfl⟩
  have honly : ∀ other, Declares read (Config.ofName []).markers inputs.sources "a.cu".toList other →
      other = ['f'] := by
    rintro other ⟨path, hpath, text, htext, -, signature, hsignature, rfl⟩
    rw [List.mem_singleton.mp hpath] at htext hsignature
    rw [hread] at htext
    rw [← Except.ok.inj htext, hsignatures] at hsignature
    rw [List.mem_singleton.mp hsignature]
  rw [hlogs, List.forall₂_cons_left_iff] at hsites
  obtain ⟨first, rest, ⟨-, -, -, -, hfirst⟩, hrest, hmeasurements⟩ := hsites
  rw [List.forall₂_cons_left_iff] at hrest
  obtain ⟨second, none, ⟨-, -, -, -, hsecond⟩, hnone, rfl⟩ := hrest
  rw [List.forall₂_nil_left_iff.mp hnone] at hmeasurements
  refine ⟨outcome, first, second, hrun, hmeasurements, ?_, ?_⟩
  · rw [hfirst]
    rintro ⟨-, -, ⟨hlogged, -⟩ | ⟨hunknown, -⟩⟩
    · revert hlogged
      decide +kernel
    · revert hunknown
      decide +kernel
  · rw [hsecond]
    exact ⟨rfl, ⟨_, List.mem_singleton_self _, _, hread, by decide +kernel⟩,
      Or.inr ⟨by decide +kernel, hdeclares, honly⟩⟩

end Census

end KernelCensus
