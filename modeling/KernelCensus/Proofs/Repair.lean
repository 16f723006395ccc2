import KernelCensus.Proofs.Log.Sites
import KernelCensus.Proofs.Report.Partition
import KernelCensus.Repair

/-!
# Repaired measurements

The repair settles each measurement: either its log names the kernel, or the registry decides, by
the number of kernels that the source has. The report counts the same kernels, so the reason that a
measurement without kernel carries is the one that its section shows.

* `Registry.attribution_cases`: what the registry decides.
* `Measurement.kernel?_repair`, `repair_repair`: the kernel of a repaired measurement.
* `Registry.Settled`: what holds of a measurement that was repaired.
* `Report.build_repair`: the report on repaired measurements.
-/

namespace KernelCensus

/-! ## Attribution by the registry -/

/-- A measurement without kernel is attributed to the only kernel of its source. -/
lemma Registry.kernel?_attribute (registry : Registry) (source : Text) :
    (registry.attribute source).kernel? = registry.soleKernel? source := by
  unfold Registry.attribute
  cases registry.soleKernel? source with
  | some kernel => rfl
  | none =>
    dsimp only
    split <;> rfl

/-- The registry decides by the number of kernels: the only one, or the reason why there is none. -/
lemma Registry.attribution_cases (registry : Registry) (source : Text) :
    (∃ signature, registry.kernelsOf source = [signature] ∧
      registry.attribute source = .inferred signature.name) ∨
    (registry.countOf source = 0 ∧ registry.attribute source = .unknown .noKernels) ∨
    (2 ≤ registry.countOf source ∧
      registry.attribute source = .unknown (.ambiguous (registry.countOf source))) := by
  unfold Registry.attribute soleKernel? countOf
  match registry.kernelsOf source with
  | [] => exact Or.inr (Or.inl ⟨rfl, rfl⟩)
  | [signature] => exact Or.inl ⟨signature, rfl, rfl⟩
  | first :: second :: rest => exact Or.inr (Or.inr ⟨by simp, rfl⟩)

/-! ## Repair -/

/-- The kernel that a log names stays, and without one the only kernel of the source takes its
place. -/
lemma Measurement.kernel?_repair (registry : Registry) (m : Measurement) :
    (m.repair registry).kernel.kernel? =
      m.kernel.kernel?.or (registry.soleKernel? m.source) := by
  rw [Measurement.repair]
  cases hkernel : m.kernel with
  | logged kernel =>
    have hknown : ¬ (Attribution.logged kernel).isUnknown = true := Bool.false_ne_true
    rw [if_neg hknown, hkernel]
    rfl
  | inferred kernel =>
    have hknown : ¬ (Attribution.inferred kernel).isUnknown = true := Bool.false_ne_true
    rw [if_neg hknown, hkernel]
    rfl
  | unknown reason =>
    have hunknown : (Attribution.unknown reason).isUnknown = true := rfl
    rw [if_pos hunknown]
    exact registry.kernel?_attribute m.source

lemma Measurement.repair_eq (registry : Registry) (m : Measurement) :
    m.repair registry = { m with kernel := (m.repair registry).kernel } := by
  rw [Measurement.repair]
  split <;> rfl

lemma Measurement.repair_of_known (registry : Registry) {m : Measurement}
    (h : m.kernel.isUnknown = false) : m.repair registry = m := by
  unfold Measurement.repair
  rw [h, if_neg Bool.false_ne_true]

lemma Measurement.repair_of_unknown (registry : Registry) {m : Measurement}
    (h : m.kernel.isUnknown = true) :
    m.repair registry = { m with kernel := registry.attribute m.source } := by
  unfold Measurement.repair
  rw [h, if_pos rfl]

lemma Measurement.repair_repair (registry : Registry) (m : Measurement) :
    (m.repair registry).repair registry = m.repair registry := by
  cases hm : m.kernel.isUnknown with
  | false => rw [m.repair_of_known registry hm, m.repair_of_known registry hm]
  | true =>
    rw [m.repair_of_unknown registry hm]
    -- the registry decides once more, and decides the same
    cases hagain : (registry.attribute m.source).isUnknown with
    | false => exact Measurement.repair_of_known registry hagain
    | true => exact Measurement.repair_of_unknown registry hagain

/-- A second repair changes none of the measurements. -/
theorem repair_repair (registry : Registry) (measurements : List Measurement) :
    repair registry (repair registry measurements) = repair registry measurements := by
  unfold repair
  rw [List.map_map]
  apply List.map_congr_left
  intro m _
  exact m.repair_repair registry

/-! ## Settled measurements -/

/-- Either a log names the kernel of the measurement, or the registry has decided on it. -/
def Registry.Settled (registry : Registry) (m : Measurement) : Prop :=
  (∃ kernel, m.kernel = .logged kernel) ∨ m.kernel = registry.attribute m.source

/-- A log names the kernel of a measurement, or gives no context. -/
lemma Log.kernel_of_mem_measurements {markers : Markers} {log : LogFile} {text : Text}
    {m : Measurement} (h : m ∈ Log.measurements markers log text) :
    (∃ kernel, m.kernel = .logged kernel) ∨ m.kernel = .unknown .noContext := by
  rw [measurements_eq] at h
  obtain ⟨site, -, rfl⟩ := List.mem_map.mp h
  show (∃ kernel, attribution (site.kernel? markers) = _) ∨ attribution (site.kernel? markers) = _
  cases site.kernel? markers with
  | some kernel => exact Or.inl ⟨kernel, rfl⟩
  | none => exact Or.inr rfl

lemma Registry.settled_repair (registry : Registry) {m : Measurement}
    (h : (∃ kernel, m.kernel = .logged kernel) ∨ m.kernel = .unknown .noContext) :
    registry.Settled (m.repair registry) := by
  rcases h with ⟨kernel, hlogged⟩ | hunknown
  · rw [m.repair_of_known registry (by rw [hlogged]; rfl)]
    exact Or.inl ⟨kernel, hlogged⟩
  · rw [m.repair_of_unknown registry (by rw [hunknown]; rfl)]
    exact Or.inr rfl

namespace Registry.Settled

variable {registry : Registry} {m : Measurement} (h : registry.Settled m)

include h

lemma kernel_of_isUnknown (hunknown : m.kernel.isUnknown = true) :
    m.kernel = registry.attribute m.source := by
  rcases h with ⟨kernel, hlogged⟩ | hdecided
  · rw [hlogged] at hunknown
    cases hunknown
  · exact hdecided

/-- The reason for want of a kernel is never that the log gives no context. -/
lemma kernel_ne_noContext : m.kernel ≠ .unknown .noContext := by
  intro hkernel
  have hdecided := h.kernel_of_isUnknown (by rw [hkernel]; rfl)
  rw [hkernel] at hdecided
  rcases registry.attribution_cases m.source with ⟨signature, -, hcase⟩ | ⟨-, hcase⟩ | ⟨-, hcase⟩ <;>
    rw [hcase] at hdecided <;> cases hdecided

/-- A kernel that was inferred is registered for the source. -/
lemma hasKernel_of_inferred {kernel : Text} (hkernel : m.kernel = .inferred kernel) :
    registry.hasKernel m.source kernel = true := by
  rcases h with ⟨logged, hlogged⟩ | hdecided
  · rw [hkernel] at hlogged
    cases hlogged
  · rw [hkernel] at hdecided
    rcases registry.attribution_cases m.source with
      ⟨signature, hkernels, hcase⟩ | ⟨-, hcase⟩ | ⟨-, hcase⟩ <;> rw [hcase] at hdecided <;>
      cases hdecided
    unfold hasKernel
    rw [hkernels]
    simp

end Registry.Settled

/-! ## Reports on settled measurements -/

section
variable {registry : Registry} (hindexed : registry.Indexed) {ms : List Measurement}
  (hsettled : ∀ m ∈ ms, registry.Settled m)

include hindexed hsettled

/-- A measurement without kernel is listed with its source, and carries as its reason the number of
kernels that the section shows. That number is never one. -/
lemma Report.kernel_of_mem_unattributed {part : SourceSection}
    (hpart : part ∈ (Report.build registry ms).sections) {m : Measurement}
    (hm : m ∈ part.unattributed) :
    (part.kernelCount = 0 ∧ m.kernel = .unknown .noKernels) ∨
      (2 ≤ part.kernelCount ∧ m.kernel = .unknown (.ambiguous part.kernelCount)) := by
  obtain ⟨entry, hentry, rfl⟩ := List.mem_map.mp hpart
  obtain ⟨hown, hunknown⟩ := List.mem_filter.mp hm
  obtain ⟨hmem, hsource⟩ := List.mem_filter.mp hown
  rw [beq_iff_eq] at hsource
  have hdecided := (hsettled m hmem).kernel_of_isUnknown hunknown
  -- the registry counts the kernels of the entry that the section is about
  have hcount : registry.countOf m.source = (SourceSection.build registry ms entry).kernelCount := by
    unfold Registry.countOf
    rw [hsource, hindexed.kernelsOf_of_mem hentry]
    rfl
  rw [← hcount]
  rcases registry.attribution_cases m.source with
    ⟨signature, -, hcase⟩ | ⟨hnone, hcase⟩ | ⟨hseveral, hcase⟩
  · rw [hdecided, hcase] at hunknown
    cases hunknown
  · exact Or.inl ⟨hnone, hdecided.trans hcase⟩
  · exact Or.inr ⟨hseveral, hdecided.trans hcase⟩

omit hindexed in
/-- A measurement of an inferred kernel is not listed as unmatched. -/
lemma Report.kernel_of_mem_unmatched {part : SourceSection}
    (hpart : part ∈ (Report.build registry ms).sections) {m : Measurement}
    (hm : m ∈ part.unmatched) (kernel : Text) : m.kernel ≠ .inferred kernel := by
  intro hkernel
  obtain ⟨entry, -, rfl⟩ := List.mem_map.mp hpart
  obtain ⟨hown, hunmatched⟩ := List.mem_filter.mp hm
  obtain ⟨hmem, hsource⟩ := List.mem_filter.mp hown
  rw [beq_iff_eq] at hsource
  have hregistered := (hsettled m hmem).hasKernel_of_inferred hkernel
  unfold Measurement.isUnmatched at hunmatched
  rw [hkernel, ← hsource] at hunmatched
  dsimp only [Attribution.kernel?] at hunmatched
  rw [hregistered] at hunmatched
  cases hunmatched

omit hindexed in
/-- A measurement of an inferred kernel is not listed as orphaned. -/
lemma Report.kernel_of_mem_orphaned {m : Measurement}
    (hm : m ∈ (Report.build registry ms).orphaned) (kernel : Text) :
    m.kernel ≠ .inferred kernel := by
  intro hkernel
  obtain ⟨hmem, horphaned⟩ := List.mem_filter.mp hm
  have hregistered := (hsettled m hmem).hasKernel_of_inferred hkernel
  rw [Registry.hasSource_of_hasKernel hregistered] at horphaned
  cases horphaned

end

/-- Repair changes nothing but the kernel of measurements that had none, and a second repair changes
nothing. In the report on repaired measurements of logs, each one that is left without kernel says
why, and its section shows the same number of kernels: none, or several. A source with one kernel
has no such measurement, and an inferred kernel is always one that is registered. -/
theorem Report.build_repair (steps : List Registry.Step) (raw : List Measurement)
    (hraw : ∀ m ∈ raw, ∃ markers log text, m ∈ Log.measurements markers log text) :
    let registry := Registry.ofSteps steps
    let repaired := repair registry raw
    let report := Report.build registry repaired
    List.Forall₂ (fun before after => after = { before with kernel := after.kernel } ∧
      (before.kernel.isUnknown = false → after = before)) raw repaired ∧
    (∀ part ∈ report.sections, part.kernelCount = 1 → part.unattributed = []) ∧
    (∀ part ∈ report.sections, ∀ m ∈ part.unattributed,
      (part.kernelCount = 0 ∧ m.kernel = .unknown .noKernels) ∨
        (2 ≤ part.kernelCount ∧ m.kernel = .unknown (.ambiguous part.kernelCount))) ∧
    (∀ part ∈ report.sections, ∀ m ∈ part.unmatched, ∀ kernel, m.kernel ≠ .inferred kernel) ∧
    (∀ m ∈ report.orphaned, ∀ kernel, m.kernel ≠ .inferred kernel) ∧
    (∀ bucket ∈ report.buckets, ∀ m ∈ bucket.2, m.kernel ≠ .unknown .noContext) ∧
    repair registry repaired = repaired := by
  intro registry repaired report
  have hindexed : registry.Indexed := Registry.indexed_ofSteps steps
  have hsettled : ∀ m ∈ repaired, registry.Settled m := by
    intro m hm
    obtain ⟨before, hbefore, rfl⟩ := List.mem_map.mp hm
    obtain ⟨markers, log, text, hlog⟩ := hraw before hbefore
    exact registry.settled_repair (Log.kernel_of_mem_measurements hlog)
  refine ⟨?_, ?_, ?_, ?_, ?_, ?_, repair_repair registry raw⟩
  · show List.Forall₂ _ raw (raw.map (Measurement.repair registry))
    rw [List.forall₂_map_right_iff, List.forall₂_same]
    intro m _
    exact ⟨m.repair_eq registry, m.repair_of_known registry⟩
  · intro part hpart hone
    rw [List.eq_nil_iff_forall_not_mem]
    intro m hm
    rcases Report.kernel_of_mem_unattributed hindexed hsettled hpart hm with
      ⟨hnone, -⟩ | ⟨hseveral, -⟩ <;> omega
  · intro part hpart m hm
    exact Report.kernel_of_mem_unattributed hindexed hsettled hpart hm
  · intro part hpart m hm
    exact Report.kernel_of_mem_unmatched hsettled hpart hm
  · intro m hm
    exact Report.kernel_of_mem_orphaned hsettled hm
  · intro bucket hbucket m hm
    exact (hsettled m (Report.mem_of_mem_bucket hindexed hbucket hm)).kernel_ne_noContext

/-- Four logs without context, of sources with no kernel, one kernel and two kernels, and of a source
that was not scanned. -/
theorem Report.build_repair_four_sources :
    let source (name : Text) : SourceFile := .ofPath ⟨name⟩
    let kernel (name kernel : Text) : Signature := ⟨source name, kernel, [], false⟩
    let registry := Registry.ofSteps [.add (source "none.cu".toList),
      .register [kernel "one.cu".toList ['f'], kernel "two.cu".toList ['g'],
        kernel "two.cu".toList ['h']]]
    let raw := ["none.cu".toList, "one.cu".toList, "two.cu".toList, "gone.cu".toList].flatMap
      fun name => Log.measurements Markers.default ⟨name, .half, ⟨"x.log".toList⟩⟩
        "[BEST] bx=1\n".toList
    let report := Report.build registry (repair registry raw)
    (repair registry raw).map (·.kernel) =
        [.unknown .noKernels, .inferred ['f'], .unknown (.ambiguous 2), .unknown .noKernels] ∧
      (report.sections.map (·.unattributed.length)) = [1, 0, 1] ∧
      (∀ part ∈ report.sections, part.kernelCount = 1 → part.unattributed = []) ∧
      repair registry (repair registry raw) = repair registry raw := by
  intro source kernel registry raw report
  have hraw : ∀ m ∈ raw, ∃ markers log text, m ∈ Log.measurements markers log text := by
    intro m hm
    obtain ⟨name, -, hlog⟩ := List.mem_flatMap.mp hm
    exact ⟨_, _, _, hlog⟩
  obtain ⟨-, hone, -, -, -, -, hagain⟩ := Report.build_repair
    [.add (source "none.cu".toList), .register [kernel "one.cu".toList ['f'],
      kernel "two.cu".toList ['g'], kernel "two.cu".toList ['h']]] raw hraw
  exact ⟨by decide +kernel, by decide +kernel, hone, hagain⟩

end KernelCensus
