import KernelCensus.Proofs.Census.Isolation
import KernelCensus.Proofs.Registry.Order
import KernelCensus.Proofs.Report.Partition
import KernelCensus.Report.Csv

/-!
# The order of the inputs

The order in which sources are listed decides which of two sources of one base name comes first.
Where base names do not repeat, it decides the order of the sections of the report and nothing else.
The order in which logs are listed is the order of their measurements, log by log, and decides
nothing about any of them.

* `scanSources_of_nodup`: the registry of sources whose base names do not repeat.
* `run_rearranged`: runs on the same inputs in another order.
-/

namespace KernelCensus

namespace Census

variable (read : ReadFile) (markers : Markers)

/-! ## The order of the sources -/

/-- The base name of the source at a path. -/
def baseName (path : Path) : Text := (SourceFile.ofPath path).name

/-- The entry of a source, unless it cannot be read. -/
def entryOf? (path : Path) : Option SourceEntry :=
  match readText read path with
  | .ok text =>
    some (Registry.entryOf (.ofPath path) (Extraction.signatures markers (.ofPath path) text))
  | .error _ => none

/-- A source of a new base name adds its entry, and is not merged. -/
lemma scanSource_of_new {registry : Registry} {path : Path}
    (hnew : registry.hasSource (baseName path) = false) :
    (scanSource read markers registry path).entries =
        registry.entries ++ (entryOf? read markers path).toList ∧
      (scanSource read markers registry path).merges = registry.merges := by
  unfold scanSource entryOf?
  cases readText read path with
  | error error => exact ⟨(List.append_nil _).symm, rfl⟩
  | ok text =>
    have hsource : ∀ signature ∈ Extraction.signatures markers (.ofPath path) text,
        signature.source = .ofPath path :=
      fun _ hsignature => Extraction.source_of_mem_signatures markers _ hsignature
    have hscan := Registry.scan_of_new hnew hsource
    dsimp only
    rw [hscan]
    exact ⟨rfl, rfl⟩

/-- Sources whose base names do not repeat have one entry each, in their order, and none of them is
merged. -/
theorem scanSources_of_nodup {paths : List Path} (hnodup : (paths.map baseName).Nodup) :
    (scanSources read markers paths).entries = paths.filterMap (entryOf? read markers) ∧
      (scanSources read markers paths).merges = [] := by
  induction paths using List.reverseRecOn with
  | nil => exact ⟨rfl, rfl⟩
  | append_singleton paths path ih =>
    rw [List.map_append, List.nodup_append] at hnodup
    obtain ⟨hbefore, -, hdisjoint⟩ := hnodup
    obtain ⟨hentries, hmerges⟩ := ih hbefore
    -- the sources before have other base names, so this one is new to their registry
    have hnew : (scanSources read markers paths).hasSource (baseName path) = false := by
      rw [← Bool.not_eq_true, hasSource_scanSources]
      rintro ⟨other, hother, -, -, hname⟩
      exact hdisjoint _ (List.mem_map_of_mem hother) _ (List.mem_singleton_self _) hname
    obtain ⟨hlast, hsilent⟩ := scanSource_of_new read markers hnew
    have hstep : scanSources read markers (paths ++ [path]) =
        scanSource read markers (scanSources read markers paths) path := by
      unfold scanSources
      rw [List.foldl_append]
      rfl
    rw [hstep, hlast, hsilent, hentries, hmerges, List.filterMap_append]
    refine ⟨?_, rfl⟩
    cases hentry : entryOf? read markers path with
    | none => rw [List.filterMap_cons_none hentry]; rfl
    | some entry => rw [List.filterMap_cons_some hentry]; rfl

section Sources

variable {first second : List Path} (hperm : first.Perm second)
  (hnodup : (second.map baseName).Nodup)

include hperm hnodup

/-- The entries of sources whose base names do not repeat are in the order of the sources. -/
lemma entries_perm :
    (scanSources read markers first).entries.Perm (scanSources read markers second).entries := by
  have hfirst := scanSources_of_nodup read markers ((hperm.map baseName).nodup_iff.mpr hnodup)
  have hsecond := scanSources_of_nodup read markers hnodup
  rw [hfirst.1, hsecond.1]
  exact hperm.filterMap _

/-- No order of sources whose base names do not repeat has merges. -/
lemma merges_eq :
    (scanSources read markers first).merges = (scanSources read markers second).merges := by
  have hfirst := scanSources_of_nodup read markers ((hperm.map baseName).nodup_iff.mpr hnodup)
  have hsecond := scanSources_of_nodup read markers hnodup
  rw [hfirst.2, hsecond.2]

/-- The registry answers alike in any order of sources whose base names do not repeat. -/
lemma alike_scanSources :
    (scanSources read markers first).Alike (scanSources read markers second) :=
  (indexed_scanSources read markers first).alike_of_perm (indexed_scanSources read markers second)
    (entries_perm read markers hperm hnodup)

end Sources

/-! ## The order of the logs -/

/-- The measurements of a log, with their attributions repaired. -/
def repairedOfLog (registry : Registry) (log : LogFile) : List Measurement :=
  repair registry (measurementsOfLog read markers log)

/-- The measurements of a run are those of its logs, log by log. -/
lemma measurements_completed (inputs : Inputs) :
    (completed read markers inputs).measurements =
      inputs.logs.flatMap
        (repairedOfLog read markers (completed read markers inputs).registry) := by
  show List.map _ (List.flatMap _ _) = _
  rw [List.map_flatMap]
  rfl

/-- The measurements of a log that have a place in the report. -/
def placedOfLog (registry : Registry) (place : Place) (log : LogFile) : List Measurement :=
  (repairedOfLog read markers registry log).filter fun m => registry.placeOf m == place

/-- Each list of the report of a run goes through the logs, log by log. -/
lemma buckets_completed (inputs : Inputs) :
    (completed read markers inputs).report.buckets =
      (completed read markers inputs).registry.places.map fun place =>
        (place, inputs.logs.flatMap
          (placedOfLog read markers (completed read markers inputs).registry place)) := by
  have hbuckets := Report.buckets_build (indexed_scanSources read markers inputs.sources)
    (completed read markers inputs).measurements
  refine hbuckets.trans (List.map_congr_left fun place _ => ?_)
  rw [measurements_completed, List.filter_flatMap]
  rfl

/-! ## The whole run -/

/-- What does not depend on the order of the inputs. If base names do not repeat, the order of the
sources decides the order of the sections of the report, and nothing else in it. The order of the
logs decides the order of the measurements, log by log, in the run and in each list of its report.
-/
theorem run_rearranged (config : Config) (inputs : Inputs) :
    (∀ others fault, run read config inputs = .error fault →
      run read config others = .error fault) ∧
    ∀ result, run read config inputs = .ok result →
      (∀ sources : List Path, sources.Perm inputs.sources → (inputs.sources.map baseName).Nodup →
        ∃ other, run read config ⟨sources, inputs.logs⟩ = .ok other ∧
          other.measurements = result.measurements ∧
          Csv.writeMeasurements other.measurements = Csv.writeMeasurements result.measurements ∧
          (∀ source, other.registry.kernelsOf source = result.registry.kernelsOf source) ∧
          other.report.orphaned = result.report.orphaned ∧
          other.report.totals = result.report.totals ∧
          other.report.sections.Perm result.report.sections) ∧
      ∀ logs : List LogFile, logs.Perm inputs.logs →
        ∃ other, run read config ⟨inputs.sources, logs⟩ = .ok other ∧
          other.registry = result.registry ∧
          result.measurements =
            inputs.logs.flatMap (repairedOfLog read config.markers result.registry) ∧
          other.measurements = logs.flatMap (repairedOfLog read config.markers result.registry) ∧
          List.Forall₂ (fun before after => after.1 = before.1 ∧ after.2.Perm before.2 ∧
            ∃ part : LogFile → List Measurement,
              (∀ log, (part log).Sublist (repairedOfLog read config.markers result.registry log)) ∧
              before.2 = inputs.logs.flatMap part ∧ after.2 = logs.flatMap part)
            result.report.buckets other.report.buckets := by
  constructor
  · intro others fault hfault
    exact (run_eq_error_iff read config others fault).mpr
      ((run_eq_error_iff read config inputs fault).mp hfault)
  intro result hrun
  obtain ⟨hmarkers, rfl⟩ := (run_eq_ok_iff read config inputs result).mp hrun
  constructor
  · intro sources hperm hnodup
    have halike := alike_scanSources read config.markers hperm hnodup
    have hentries := entries_perm read config.markers hperm hnodup
    have hmerges := merges_eq read config.markers hperm hnodup
    have hmeasurements :
        (completed read config.markers ⟨sources, inputs.logs⟩).measurements =
          (completed read config.markers inputs).measurements :=
      halike.repair_eq (inputs.logs.flatMap (measurementsOfLog read config.markers))
    -- so the report is that of another registry on the same measurements
    have hreport : (completed read config.markers ⟨sources, inputs.logs⟩).report =
        Report.build (scanSources read config.markers sources)
          (completed read config.markers inputs).measurements :=
      congrArg (Report.build (scanSources read config.markers sources)) hmeasurements
    refine ⟨_, (run_eq_ok_iff read config _ _).mpr ⟨hmarkers, rfl⟩, hmeasurements,
      congrArg Csv.writeMeasurements hmeasurements, halike.kernelsOf_eq, ?_, ?_, ?_⟩
    · rw [hreport]
      exact halike.orphaned_eq _
    · rw [hreport]
      exact halike.totals_eq hentries (congrArg List.length hmerges) _
    · rw [hreport]
      exact halike.sections_perm hentries _
  · intro logs hperm
    refine ⟨_, (run_eq_ok_iff read config _ _).mpr ⟨hmarkers, rfl⟩, rfl,
      measurements_completed read config.markers inputs,
      measurements_completed read config.markers ⟨inputs.sources, logs⟩, ?_⟩
    rw [buckets_completed, buckets_completed, List.forall₂_map_left_iff,
      List.forall₂_map_right_iff]
    apply List.forall₂_same.mpr
    intro place _
    refine ⟨rfl, hperm.flatMap_right _, placedOfLog read config.markers _ place, ?_, rfl, rfl⟩
    intro log
    exact List.filter_sublist

/-- Two sources and two logs, each in both orders: one log is repaired and the other is ambiguous. -/
theorem run_rearranged_two_sources :
    let read : ReadFile := fun path =>
      if path.text = "a.cu".toList then
        .ok (Utf8.encode "// @kernel\n__global__ void f(int n)\n".toList)
      else if path.text = "b.cu".toList then
        .ok (Utf8.encode
          "// @kernel\n__global__ void g()\n// @kernel\n__global__ void h()\n".toList)
      else .ok (Utf8.encode "[BEST] bx=1\n".toList)
    let a : LogFile := ⟨"a.cu".toList, .float, ⟨"a.log".toList⟩⟩
    let b : LogFile := ⟨"b.cu".toList, .float, ⟨"b.log".toList⟩⟩
    let inputs : Inputs := ⟨[⟨"a.cu".toList⟩, ⟨"b.cu".toList⟩], [a, b]⟩
    ∃ result bySources byLogs, run read (.ofName []) inputs = .ok result ∧
      run read (.ofName []) ⟨[⟨"b.cu".toList⟩, ⟨"a.cu".toList⟩], [a, b]⟩ = .ok bySources ∧
      run read (.ofName []) ⟨inputs.sources, [b, a]⟩ = .ok byLogs ∧
      result.measurements.map (·.kernel) = [.inferred ['f'], .unknown (.ambiguous 2)] ∧
      bySources.measurements = result.measurements ∧
      bySources.report.sections.Perm result.report.sections ∧
      byLogs.measurements = [b, a].flatMap
        (repairedOfLog read (Config.ofName []).markers result.registry) := by
  intro read a b inputs
  have hmarkers : (Config.ofName []).markers.fault? = none := by decide +kernel
  have hrun := (run_eq_ok_iff read (.ofName []) inputs _).mpr ⟨hmarkers, rfl⟩
  obtain ⟨hsources, hlogs⟩ := (run_rearranged read (.ofName []) inputs).2 _ hrun
  obtain ⟨bySources, hbySources, hsame, -, -, -, -, hsections⟩ :=
    hsources [⟨"b.cu".toList⟩, ⟨"a.cu".toList⟩] (List.Perm.swap _ _ _) (by decide +kernel)
  obtain ⟨byLogs, hbyLogs, -, -, hmeasurements, -⟩ := hlogs [b, a] (List.Perm.swap _ _ _)
  have hkernels : (completed read (Config.ofName []).markers inputs).measurements.map (·.kernel) =
      [.inferred ['f'], .unknown (.ambiguous 2)] := by decide +kernel
  exact ⟨_, bySources, byLogs, hrun, hbySources, hbyLogs, hkernels, hsame, hsections,
    hmeasurements⟩

end Census

end KernelCensus
