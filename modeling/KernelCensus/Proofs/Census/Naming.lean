import KernelCensus.Log.Basic
import KernelCensus.Proofs.Extraction.Signatures
import KernelCensus.Proofs.Log.Context
import KernelCensus.Proofs.Report.Partition

/-!
# Names in sources and logs

Sources and logs write names in two ways: a declaration may set white space around `::`, a log may
not. A log that names a kernel by the name of its signature, in either form of a line, is understood
to name that kernel, and the report joins the two.

* `measurements_after_context`: a log of a line that names a kernel and a line with the best marker.
* `context_names_signature`: a signature and the logs that name it.
-/

namespace KernelCensus

/-! ## Logs that name a kernel -/

namespace Log

variable (markers : Markers) (log : LogFile)

/-- The measurement in a line of a log that is about a kernel. -/
def loggedMeasurement (kernel line : Text) : Measurement :=
  ⟨log.source, .logged kernel, log.precision, metrics markers.aliases line, log.path⟩

/-- In a log of a line that names a kernel and a line that names none, each line with the best
marker measures that kernel. -/
lemma measurements_after_context {text context best kernel : Text}
    (htext : Text.lines text = [context, best])
    (hcontext : context? markers.kernelLabel context = some kernel)
    (hbest : context? markers.kernelLabel best = none) :
    measurements markers log text =
      ([context, best].filter fun line => Text.contains markers.best line).map
        (loggedMeasurement markers log kernel) := by
  unfold measurements
  rw [htext, measurementsFrom, hcontext, measurementsFrom, hbest, measurementsFrom]
  rw [List.filter_cons, List.filter_cons, List.filter_nil]
  cases Text.contains markers.best context <;> cases Text.contains markers.best best <;> rfl

end Log

/-- The report lists a measurement under the kernel that its log names, if that is registered. -/
lemma Registry.Indexed.lists_logged {registry : Registry} (h : registry.Indexed)
    (markers : Markers) {log : LogFile} {kernel line : Text}
    (hkernel : registry.hasKernel log.source kernel = true) {ms : List Measurement}
    (hm : Log.loggedMeasurement markers log kernel line ∈ ms) :
    (Report.build registry ms).Lists log.source kernel
      (Log.loggedMeasurement markers log kernel line) := by
  rw [Report.lists_build_iff h, Registry.placeOf_eq_kernel_iff]
  exact ⟨hm, rfl, Registry.hasSource_of_hasKernel hkernel, rfl, hkernel⟩

/-! ## Signatures and logs -/

namespace Census

/-- A line that names a kernel by the name of a signature, in either form, is read as naming just
that. So if the signature is registered and a log of its source has such a line before a line with
the best marker, then the log measures that kernel, and every report lists it there. -/
theorem context_names_signature (markers : Markers)
    (hne : Text.trim markers.kernelLabel ≠ [])
    (hparts : ∀ c ∈ Text.trim markers.kernelLabel, Name.isPart c = true)
    {source : SourceFile} {code : Text} {signature : Signature}
    (hsignature : signature ∈ Extraction.signatures markers source code)
    {label : Text} (hlabel : Text.trim label = Text.trim markers.kernelLabel)
    {context : Text} (hcontext : context ∈ Log.contextLines label signature.name) :
    Log.context? markers.kernelLabel context = some signature.name ∧
    ∀ (steps : List Registry.Step) (log : LogFile) (text best : Text),
      (Registry.ofSteps steps).hasKernel signature.source.name signature.name = true →
      log.source = signature.source.name → Text.lines text = [context, best] →
      Text.contains markers.best best = true → Log.context? markers.kernelLabel best = none →
        (∀ m ∈ Log.measurements markers log text, m.kernel = .logged signature.name) ∧
        Log.loggedMeasurement markers log signature.name best ∈
          Log.measurements markers log text ∧
        ∀ ms : List Measurement, Log.loggedMeasurement markers log signature.name best ∈ ms →
          (Report.build (Registry.ofSteps steps) ms).Lists signature.source.name signature.name
            (Log.loggedMeasurement markers log signature.name best) := by
  have hplain := Extraction.isPlain_of_mem_signatures markers source hsignature
  have hnamed := Log.context?_of_mem_contextLines hne hparts hlabel hplain hcontext
  refine ⟨hnamed, ?_⟩
  intro steps log text best hkernel hsource htext hbest hnone
  have hmeasurements := Log.measurements_after_context markers log htext hnamed hnone
  rw [← hsource] at hkernel ⊢
  refine ⟨?_, ?_, ?_⟩
  · intro m hm
    rw [hmeasurements] at hm
    obtain ⟨line, -, rfl⟩ := List.mem_map.mp hm
    rfl
  · rw [hmeasurements]
    refine List.mem_map.mpr ⟨best, List.mem_filter.mpr ⟨?_, hbest⟩, rfl⟩
    exact List.mem_cons_of_mem context (List.mem_singleton_self best)
  · intro ms hm
    exact (Registry.indexed_ofSteps steps).lists_logged markers hkernel hm

/-- A kernel whose name holds the label is named by a line with an equals sign. -/
theorem context_names_signature_scoped :
    let source := SourceFile.ofPath ⟨"a.cu".toList⟩
    let signature : Signature := ⟨source, "my::kernel::foo".toList, "int n".toList, false⟩
    let registry := Registry.ofSteps [.register [signature]]
    let log : LogFile := ⟨source.name, .float, ⟨"a.log".toList⟩⟩
    let measurements := Log.measurements Markers.default log
      "kernel=my::kernel::foo\n[BEST] bx=1\n".toList
    Extraction.signatures Markers.default source
        "// @kernel\n__global__ void my :: kernel::foo(int n)\n".toList = [signature] ∧
      Log.context? Markers.default.kernelLabel "kernel=my::kernel::foo".toList =
        some "my::kernel::foo".toList ∧
      ∃ m ∈ measurements, m.kernel = .logged "my::kernel::foo".toList ∧
        (Report.build registry measurements).Lists source.name "my::kernel::foo".toList m := by
  intro source signature registry log measurements
  have hsignatures : Extraction.signatures Markers.default source
      "// @kernel\n__global__ void my :: kernel::foo(int n)\n".toList = [signature] := by
    decide +kernel
  have hparts : ∀ c ∈ Text.trim Markers.default.kernelLabel, Name.isPart c = true :=
    List.all_eq_true.mp (by decide +kernel)
  have hcontext : "kernel=my::kernel::foo".toList ∈
      Log.contextLines "kernel".toList signature.name := by decide
  obtain ⟨hnamed, hlog⟩ := context_names_signature Markers.default (by decide +kernel) hparts
    (hsignatures ▸ List.mem_singleton_self signature) (by decide +kernel) hcontext
  obtain ⟨hlogged, hmem, hlists⟩ := hlog [.register [signature]] log
    "kernel=my::kernel::foo\n[BEST] bx=1\n".toList "[BEST] bx=1".toList (by decide +kernel) rfl
    (by decide +kernel) (by decide +kernel) (by decide +kernel)
  exact ⟨hsignatures, hnamed, _, hmem, hlogged _ hmem, hlists measurements hmem⟩

end Census

end KernelCensus
