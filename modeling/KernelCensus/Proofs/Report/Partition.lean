import KernelCensus.Proofs.Registry.FirstWins
import KernelCensus.Report.Basic
import Mathlib

/-!
# Reports partition the measurements

The lists of a report are filtered one by one out of all measurements. A measurement has one place,
which the registry decides, and each list of the report holds the measurements of its place: so no
measurement is lost and none is listed twice. The places are told apart by names, which do not
repeat on a registry whose index is in step with its entries.

* `buckets_build`: the lists of a report are the fibres of `Registry.placeOf`.
* `build_partition`: what a report does with the measurements, for every registry that steps reach.
-/

namespace KernelCensus

/-! ## Places -/

/-- A list of a report. -/
inductive Place
  | kernel (source kernel : Text)
  | unattributed (source : Text)
  /-- The measurements of a source whose kernel is not registered. -/
  | unmatched (source : Text)
  /-- The measurements of sources that were not scanned. -/
  | orphaned
deriving Repr, DecidableEq

/-- A place and the measurements that are listed there. -/
abbrev Bucket := Place × List Measurement

/-- The lists of the section of a source. -/
def SourceSection.buckets (part : SourceSection) : List Bucket :=
  (part.kernels.map fun kernel =>
    (.kernel part.source.name kernel.signature.name, kernel.measurements)) ++
  [(.unattributed part.source.name, part.unattributed),
    (.unmatched part.source.name, part.unmatched)]

/-- All lists of a report. -/
def Report.buckets (report : Report) : List Bucket :=
  report.sections.flatMap SourceSection.buckets ++ [(.orphaned, report.orphaned)]

/-- The places of a source. -/
def SourceEntry.places (entry : SourceEntry) : List Place :=
  (entry.kernels.map fun signature => .kernel entry.source.name signature.name) ++
  [.unattributed entry.source.name, .unmatched entry.source.name]

/-- The places that a registry has for measurements. -/
def Registry.places (registry : Registry) : List Place :=
  registry.entries.flatMap SourceEntry.places ++ [.orphaned]

/-- The place of a measurement. -/
def Registry.placeOf (registry : Registry) (m : Measurement) : Place :=
  if registry.hasSource m.source then
    match m.kernel.kernel? with
    | none => .unattributed m.source
    | some kernel =>
      if registry.hasKernel m.source kernel then .kernel m.source kernel else .unmatched m.source
  else .orphaned

/-! ## Fibres -/

section Fibres
variable {α β : Type} [DecidableEq β]

/-- The fibres of a function over values that do not repeat make up the list, if the function has
no other values on it. -/
lemma flatMap_fibre_perm (f : α → β) {values : List β} (hnodup : values.Nodup) (xs : List α)
    (hvalues : ∀ x ∈ xs, f x ∈ values) :
    (values.flatMap fun value => xs.filter fun x => f x == value).Perm xs := by
  induction values generalizing xs with
  | nil =>
    cases xs with
    | nil => exact List.Perm.refl []
    | cons x xs => cases hvalues x List.mem_cons_self
  | cons value values ih =>
    rw [List.nodup_cons] at hnodup
    -- the other fibres lie among what is not in this one
    have hrest : (values.flatMap fun other => xs.filter fun x => f x == other) =
        values.flatMap fun other =>
          (xs.filter fun x => !(f x == value)).filter fun x => f x == other := by
      refine List.flatMap_congr fun other hother => ?_
      rw [List.filter_filter]
      refine List.filter_congr fun x _ => ?_
      have hne : other ≠ value := fun h => hnodup.1 (h ▸ hother)
      by_cases hx : f x = other
      · simp [hx, hne]
      · simp [hx]
    have hcover : ∀ x ∈ xs.filter fun x => !(f x == value), f x ∈ values := by
      intro x hx
      rw [List.mem_filter, Bool.not_eq_true', beq_eq_false_iff_ne] at hx
      exact (List.mem_cons.mp (hvalues x hx.1)).resolve_left hx.2
    have hperm := ih hnodup.2 _ hcover
    rw [List.flatMap_cons, hrest]
    exact (hperm.append_left _).trans (List.filter_append_perm _ xs)

end Fibres

/-! ## One list -/

/-- A measurement has the place of a kernel if and only if it names it, with its source, and the
kernel is registered. -/
lemma Registry.placeOf_eq_kernel_iff (registry : Registry) (source kernel : Text)
    (m : Measurement) :
    registry.placeOf m = .kernel source kernel ↔
      m.source = source ∧ registry.hasSource source = true ∧ m.kernel.kernel? = some kernel ∧
        registry.hasKernel source kernel = true := by
  rw [placeOf]
  constructor
  · intro hplace
    split at hplace
    · next hsource =>
      split at hplace
      · cases hplace
      · next name hname =>
        split at hplace
        · next hkernel =>
          obtain ⟨rfl, rfl⟩ := Place.kernel.inj hplace
          exact ⟨rfl, hsource, hname, hkernel⟩
        · cases hplace
    · cases hplace
  · rintro ⟨rfl, hsource, hname, hkernel⟩
    rw [if_pos hsource, hname]
    exact if_pos hkernel

namespace Registry.Indexed

variable {registry : Registry} (h : registry.Indexed)

include h

lemma hasSource_of_mem {entry : SourceEntry} (hentry : entry ∈ registry.entries) :
    registry.hasSource entry.source.name = true :=
  (h.hasSource_iff _).mpr ⟨entry, hentry, rfl⟩

/-- The kernels that are registered for a base name of an entry are those of the entry. -/
lemma hasKernel_iff_of_mem {entry : SourceEntry} (hentry : entry ∈ registry.entries)
    (kernel : Text) :
    registry.hasKernel entry.source.name kernel = true ↔
      ∃ signature ∈ entry.kernels, signature.name = kernel := by
  rw [hasKernel, h.kernelsOf_of_mem hentry, List.any_eq_true]
  simp only [beq_iff_eq]

/-- The list of a kernel holds the measurements of its place. -/
lemma kernel_fibre {entry : SourceEntry} (hentry : entry ∈ registry.entries)
    {signature : Signature} (hsignature : signature ∈ entry.kernels) (m : Measurement) :
    (m.kernel.kernel? == some signature.name && m.source == entry.source.name) =
      (registry.placeOf m == .kernel entry.source.name signature.name) := by
  have hsource := h.hasSource_of_mem hentry
  have hkernel := (h.hasKernel_iff_of_mem hentry signature.name).mpr ⟨signature, hsignature, rfl⟩
  rw [Bool.eq_iff_iff, Bool.and_eq_true, beq_iff_eq, beq_iff_eq, beq_iff_eq,
    registry.placeOf_eq_kernel_iff]
  constructor
  · rintro ⟨hk, hs⟩
    exact ⟨hs, hsource, hk, hkernel⟩
  · rintro ⟨hs, -, hk, -⟩
    exact ⟨hk, hs⟩

/-- The list of what has no kernel holds the measurements of its place. -/
lemma unattributed_fibre {entry : SourceEntry} (hentry : entry ∈ registry.entries)
    (m : Measurement) :
    (m.kernel.isUnknown && m.source == entry.source.name) =
      (registry.placeOf m == .unattributed entry.source.name) := by
  have hsource := h.hasSource_of_mem hentry
  have hunknown : m.kernel.isUnknown = true ↔ m.kernel.kernel? = none := by
    cases m.kernel <;> simp [Attribution.isUnknown, Attribution.kernel?]
  rw [Bool.eq_iff_iff, Bool.and_eq_true, hunknown, beq_iff_eq, beq_iff_eq, placeOf]
  constructor
  · rintro ⟨hk, hs⟩
    rw [hs, hk, if_pos hsource]
  · intro hplace
    split at hplace
    · split at hplace
      · next hk =>
        rw [Place.unattributed.injEq] at hplace
        exact ⟨hk, hplace⟩
      · split at hplace <;> cases hplace
    · cases hplace

/-- The list of what has a kernel that is not registered holds the measurements of its place. -/
lemma unmatched_fibre {entry : SourceEntry} (hentry : entry ∈ registry.entries)
    (m : Measurement) :
    (m.isUnmatched registry entry.source.name && m.source == entry.source.name) =
      (registry.placeOf m == .unmatched entry.source.name) := by
  have hsource := h.hasSource_of_mem hentry
  rw [Bool.eq_iff_iff, Bool.and_eq_true, beq_iff_eq, beq_iff_eq, placeOf, Measurement.isUnmatched]
  constructor
  · rintro ⟨hk, hs⟩
    rw [hs, if_pos hsource]
    cases hkernel : m.kernel.kernel? with
    | none => rw [hkernel] at hk; cases hk
    | some kernel =>
      rw [hkernel, Bool.not_eq_true'] at hk
      dsimp only
      rw [hk, if_neg Bool.false_ne_true]
  · intro hplace
    split at hplace
    · split at hplace
      · cases hplace
      · next kernel hk =>
        split at hplace
        · cases hplace
        · next hnot =>
          rw [Place.unmatched.injEq] at hplace
          rw [hk, ← hplace]
          exact ⟨by simpa using hnot, rfl⟩
    · cases hplace

end Registry.Indexed

/-- The list of what was measured of sources that were not scanned holds the measurements of its
place. -/
lemma Registry.orphaned_fibre (registry : Registry) (m : Measurement) :
    (!registry.hasSource m.source) = (registry.placeOf m == .orphaned) := by
  rw [placeOf]
  cases hsource : registry.hasSource m.source with
  | false => rfl
  | true =>
    rw [if_pos rfl]
    split
    · rfl
    · split <;> rfl

/-! ## All lists -/

/-- The lists of a section hold the measurements of the places of its source. -/
lemma SourceSection.buckets_build {registry : Registry} (h : registry.Indexed)
    (ms : List Measurement) {entry : SourceEntry} (hentry : entry ∈ registry.entries) :
    (SourceSection.build registry ms entry).buckets =
      entry.places.map fun place => (place, ms.filter fun m => registry.placeOf m == place) := by
  rw [buckets, SourceEntry.places, List.map_append, List.map_map]
  congr 1
  · show (entry.kernels.map _).map _ = _
    rw [List.map_map]
    refine List.map_congr_left fun signature hsignature => ?_
    show (Place.kernel _ _, (ms.filter _).filter _) = (_, _)
    rw [List.filter_filter]
    simp only [h.kernel_fibre hentry hsignature]
    rfl
  · show [(Place.unattributed _, (ms.filter _).filter _), (Place.unmatched _, (ms.filter _).filter _)]
      = _
    rw [List.filter_filter, List.filter_filter]
    simp only [h.unattributed_fibre hentry, h.unmatched_fibre hentry, List.map_cons, List.map_nil]
    rfl

/-- The lists of a report hold the measurements of the places of its registry. -/
theorem Report.buckets_build {registry : Registry} (h : registry.Indexed) (ms : List Measurement) :
    (Report.build registry ms).buckets =
      registry.places.map fun place =>
        (place, ms.filter fun m => registry.placeOf m == place) := by
  rw [buckets, Registry.places, List.map_append, List.map_flatMap]
  congr 1
  · show (registry.entries.map _).flatMap _ = _
    rw [List.flatMap_map]
    exact List.flatMap_congr fun entry hentry => SourceSection.buckets_build h ms hentry
  · show [(Place.orphaned, ms.filter _)] = _
    simp only [registry.orphaned_fibre, List.map_cons, List.map_nil]

/-- The base name in a place of a source. -/
def Place.source? : Place → Option Text
  | kernel source _ => some source
  | unattributed source => some source
  | unmatched source => some source
  | orphaned => none

lemma SourceEntry.source?_of_mem_places {entry : SourceEntry} {place : Place}
    (h : place ∈ entry.places) : place.source? = some entry.source.name := by
  rw [places, List.mem_append] at h
  rcases h with hkernel | hother
  · obtain ⟨signature, -, rfl⟩ := List.mem_map.mp hkernel
    rfl
  · rcases List.mem_pair.mp hother with rfl | rfl <;> rfl

/-- The places of a source do not repeat if the names of its kernels do not. -/
lemma SourceEntry.nodup_places {entry : SourceEntry}
    (h : (entry.kernels.map (·.name)).Nodup) : entry.places.Nodup := by
  rw [places, List.nodup_append]
  refine ⟨?_, by simp, ?_⟩
  · have hmap : entry.kernels.map (fun s => Place.kernel entry.source.name s.name) =
        (entry.kernels.map (·.name)).map (Place.kernel entry.source.name) := by
      rw [List.map_map]
      rfl
    rw [hmap]
    refine h.map fun first second hsame => ?_
    exact (Place.kernel.inj hsame).2
  · intro place hkernel other hother hsame
    obtain ⟨signature, -, rfl⟩ := List.mem_map.mp hkernel
    rcases List.mem_pair.mp (hsame ▸ hother) with hcase | hcase <;> cases hcase

/-- The places of a registry do not repeat. -/
theorem Registry.Indexed.nodup_places {registry : Registry} (h : registry.Indexed) :
    registry.places.Nodup := by
  rw [places, List.nodup_append]
  refine ⟨?_, List.nodup_singleton _, ?_⟩
  · rw [List.nodup_flatMap]
    refine ⟨fun entry hentry => SourceEntry.nodup_places (h.nodup_kernels entry hentry), ?_⟩
    -- two entries have two base names, and a place keeps the one of its entry
    have hnames := List.pairwise_map.mp h.nodup_names
    refine hnames.imp fun {first second} hne => ?_
    intro place hfirst hsecond
    have hsame := (SourceEntry.source?_of_mem_places hfirst).symm.trans
      (SourceEntry.source?_of_mem_places hsecond)
    exact hne (Option.some.inj hsame)
  · -- the place of what was not scanned is the only one without a source
    intro place hplace other hother hsame
    obtain ⟨entry, -, hentry⟩ := List.mem_flatMap.mp hplace
    have hsource := SourceEntry.source?_of_mem_places hentry
    rw [hsame, List.mem_singleton.mp hother] at hsource
    cases hsource

/-- The place of a measurement is one that the registry has. -/
theorem Registry.Indexed.placeOf_mem {registry : Registry} (h : registry.Indexed)
    (m : Measurement) : registry.placeOf m ∈ registry.places := by
  rw [placeOf, places, List.mem_append]
  cases hsource : registry.hasSource m.source with
  | false => exact Or.inr (List.mem_singleton.mpr rfl)
  | true =>
    obtain ⟨entry, hentry, hname⟩ := (h.hasSource_iff _).mp hsource
    refine Or.inl (List.mem_flatMap.mpr ⟨entry, hentry, ?_⟩)
    rw [if_pos rfl, ← hname, SourceEntry.places, List.mem_append]
    split
    · exact Or.inr (by simp)
    · next kernel _ =>
      split
      · next hkernel =>
        obtain ⟨signature, hsignature, hsame⟩ := (h.hasKernel_iff_of_mem hentry kernel).mp hkernel
        exact Or.inl (List.mem_map.mpr ⟨signature, hsignature, by rw [hsame]⟩)
      · exact Or.inr (by simp)

/-- The lists of a report make up the measurements. -/
theorem Report.flatMap_buckets_perm {registry : Registry} (h : registry.Indexed)
    (ms : List Measurement) : ((Report.build registry ms).buckets.flatMap Prod.snd).Perm ms := by
  rw [Report.buckets_build h, List.flatMap_map]
  exact flatMap_fibre_perm registry.placeOf h.nodup_places ms fun m _ => h.placeOf_mem m

lemma Report.mem_of_mem_bucket {registry : Registry} (h : registry.Indexed) {ms : List Measurement}
    {bucket : Bucket} (hbucket : bucket ∈ (Report.build registry ms).buckets) {m : Measurement}
    (hm : m ∈ bucket.2) : m ∈ ms :=
  (Report.flatMap_buckets_perm h ms).mem_iff.mp (List.mem_flatMap.mpr ⟨bucket, hbucket, hm⟩)

/-! ## The measurements of a kernel -/

/-- Whether a report lists a measurement under a kernel of a source. -/
def Report.Lists (report : Report) (source kernel : Text) (m : Measurement) : Prop :=
  ∃ part ∈ report.sections, part.source.name = source ∧
    ∃ own ∈ part.kernels, own.signature.name = kernel ∧ m ∈ own.measurements

lemma Report.lists_iff_buckets (report : Report) (source kernel : Text) (m : Measurement) :
    report.Lists source kernel m ↔
      ∃ bucket ∈ report.buckets, bucket.1 = .kernel source kernel ∧ m ∈ bucket.2 := by
  constructor
  · rintro ⟨part, hpart, hsource, own, hown, hkernel, hm⟩
    have hbucket : (Place.kernel part.source.name own.signature.name, own.measurements) ∈
        part.buckets := List.mem_append_left _ (List.mem_map.mpr ⟨own, hown, rfl⟩)
    refine ⟨_, List.mem_append_left _ (List.mem_flatMap.mpr ⟨part, hpart, hbucket⟩), ?_, hm⟩
    rw [hsource, hkernel]
  · rintro ⟨bucket, hbucket, hplace, hm⟩
    rcases List.mem_append.mp hbucket with hsection | horphaned
    · obtain ⟨part, hpart, hmem⟩ := List.mem_flatMap.mp hsection
      rcases List.mem_append.mp hmem with hkernel | hother
      · obtain ⟨own, hown, rfl⟩ := List.mem_map.mp hkernel
        obtain ⟨hsource, hname⟩ := Place.kernel.inj hplace
        exact ⟨part, hpart, hsource, own, hown, hname, hm⟩
      · rcases List.mem_pair.mp hother with rfl | rfl <;> cases hplace
    · rw [List.mem_singleton.mp horphaned] at hplace
      cases hplace

/-- A report lists a measurement under a kernel if and only if the kernel is its place. -/
theorem Report.lists_build_iff {registry : Registry} (h : registry.Indexed)
    (ms : List Measurement) (source kernel : Text) (m : Measurement) :
    (Report.build registry ms).Lists source kernel m ↔
      m ∈ ms ∧ registry.placeOf m = .kernel source kernel := by
  rw [lists_iff_buckets, Report.buckets_build h]
  constructor
  · rintro ⟨bucket, hbucket, hplace, hm⟩
    obtain ⟨place, -, rfl⟩ := List.mem_map.mp hbucket
    obtain ⟨hmem, hown⟩ := List.mem_filter.mp hm
    rw [beq_iff_eq] at hown
    exact ⟨hmem, hown.trans hplace⟩
  · rintro ⟨hmem, hplace⟩
    refine ⟨_, List.mem_map.mpr ⟨_, h.placeOf_mem m, rfl⟩, hplace, ?_⟩
    exact List.mem_filter.mpr ⟨hmem, beq_self_eq_true _⟩

/-! ## Reports on what was registered -/

lemma SourceSection.length_buckets (part : SourceSection) :
    (part.buckets.map fun bucket => bucket.2.length).sum =
      (part.kernels.map fun kernel => kernel.measurements.length).sum +
        part.unattributed.length + part.unmatched.length := by
  rw [buckets, List.map_append, List.sum_append, List.map_map]
  show _ + (part.unattributed.length + (part.unmatched.length + 0)) = _
  rw [Nat.add_zero, Nat.add_assoc]
  rfl

lemma Report.length_buckets (report : Report) :
    (report.buckets.map fun bucket => bucket.2.length).sum =
      ((report.sections.flatMap (·.kernels)).map fun kernel => kernel.measurements.length).sum +
        (report.sections.map fun part => part.unattributed.length).sum +
        (report.sections.map fun part => part.unmatched.length).sum + report.orphaned.length := by
  have hsections : ((report.sections.flatMap SourceSection.buckets).map
        fun bucket => bucket.2.length).sum =
      ((report.sections.flatMap (·.kernels)).map fun kernel => kernel.measurements.length).sum +
        (report.sections.map fun part => part.unattributed.length).sum +
        (report.sections.map fun part => part.unmatched.length).sum := by
    induction report.sections with
    | nil => rfl
    | cons part parts ih =>
      have hpart := part.length_buckets
      simp only [List.flatMap_cons, List.map_append, List.sum_append, List.map_cons,
        List.sum_cons] at ih ⊢
      omega
  rw [buckets, List.map_append, List.sum_append, hsections]
  rfl

/-- A report puts each measurement into exactly one of its lists and each list keeps the order of
the measurements, whatever was registered before. Its counts add up, and those of sources, kernels
and merged paths do not depend on the measurements. -/
theorem Report.build_partition (steps : List Registry.Step) (ms : List Measurement) :
    let registry := Registry.ofSteps steps
    let report := Report.build registry ms
    (report.buckets.map Prod.fst).Nodup ∧
    (∀ m ∈ ms, ∃! bucket, bucket ∈ report.buckets ∧ m ∈ bucket.2) ∧
    (report.buckets.flatMap Prod.snd).Perm ms ∧
    (∀ bucket ∈ report.buckets, bucket.2.Sublist ms) ∧
    report.totals.measurements =
      ((report.sections.flatMap (·.kernels)).map fun kernel => kernel.measurements.length).sum +
        report.totals.unattributed + report.totals.unmatched + report.totals.orphaned ∧
    report.totals.unattributed = (report.sections.map fun part => part.unattributed.length).sum ∧
    report.totals.unmatched = (report.sections.map fun part => part.unmatched.length).sum ∧
    report.totals.orphaned = report.orphaned.length ∧
    report.totals.kernels = (report.sections.map (·.kernelCount)).sum ∧
    ∀ others : List Measurement,
      (Report.build registry others).totals.sources = report.totals.sources ∧
      (Report.build registry others).totals.kernels = report.totals.kernels ∧
      (Report.build registry others).totals.merged = report.totals.merged := by
  intro registry report
  have h : registry.Indexed := Registry.indexed_ofSteps steps
  have hbuckets : report.buckets = registry.places.map fun place =>
      (place, ms.filter fun m => registry.placeOf m == place) := Report.buckets_build h ms
  have hperm : (report.buckets.flatMap Prod.snd).Perm ms := by
    rw [hbuckets, List.flatMap_map]
    exact flatMap_fibre_perm registry.placeOf h.nodup_places ms fun m _ => h.placeOf_mem m
  have hunattributed : report.totals.unattributed =
      (report.sections.map fun part => part.unattributed.length).sum := List.length_flatMap
  have hunmatched : report.totals.unmatched =
      (report.sections.map fun part => part.unmatched.length).sum := List.length_flatMap
  -- sources, kernels and merges are counted on the registry, so other measurements change nothing
  refine ⟨?_, ?_, hperm, ?_, ?_, hunattributed, hunmatched, rfl, ?_, fun _ => ⟨rfl, rfl, rfl⟩⟩
  · have hplaces : report.buckets.map Prod.fst = registry.places := by
      rw [hbuckets, List.map_map]
      exact List.map_id _
    rw [hplaces]
    exact h.nodup_places
  · intro m hm
    refine ⟨(registry.placeOf m, ms.filter fun other => registry.placeOf other ==
      registry.placeOf m), ⟨?_, ?_⟩, ?_⟩
    · rw [hbuckets]
      exact List.mem_map.mpr ⟨_, h.placeOf_mem m, rfl⟩
    · exact List.mem_filter.mpr ⟨hm, beq_self_eq_true _⟩
    · rintro bucket ⟨hbucket, hmem⟩
      rw [hbuckets] at hbucket
      obtain ⟨place, -, rfl⟩ := List.mem_map.mp hbucket
      have hplace := (List.mem_filter.mp hmem).2
      rw [beq_iff_eq] at hplace
      rw [hplace]
  · intro bucket hbucket
    rw [hbuckets] at hbucket
    obtain ⟨place, -, rfl⟩ := List.mem_map.mp hbucket
    exact List.filter_sublist
  · have hlength := hperm.length_eq
    rw [List.length_flatMap, report.length_buckets] at hlength
    rw [hunattributed, hunmatched]
    exact hlength.symm
  · show registry.kernelCount = ((registry.entries.map _).map _).sum
    rw [Registry.kernelCount, Registry.signatures, List.length_flatMap, List.map_map]
    rfl

end KernelCensus
