import KernelCensus.Proofs.Registry.FirstWins
import Mathlib.Algebra.GroupWithZero.Nat

/-!
# Places in a registry

A source has one place in a registry, and the index knows it. A registry only grows: an entry stays
where it is and keeps its source and its kernels, whatever comes behind it. So the place of a source
holds for good, and whatever is looked up through the index is what a search through all entries
finds.

* `GrowsTo`: what an operation leaves of a registry.
* `Indexed.entriesOf_eq`: a base name has no entry but the one that the index gives.
* `lookups_eq_search`: all look-ups after any steps.
-/

namespace KernelCensus.Registry

/-! ## Growth -/

/-- Every entry stays at its place, with its source and with its kernels in front of others. -/
def GrowsTo (registry later : Registry) : Prop :=
  ∀ (place : Nat) (entry : SourceEntry), registry.entries[place]? = some entry →
    ∃ grown, later.entries[place]? = some grown ∧ grown.source = entry.source ∧
      entry.kernels <+: grown.kernels

lemma GrowsTo.refl (registry : Registry) : registry.GrowsTo registry :=
  fun _ entry hentry => ⟨entry, hentry, rfl, List.prefix_refl _⟩

lemma GrowsTo.trans {first second third : Registry} (h : first.GrowsTo second)
    (h' : second.GrowsTo third) : first.GrowsTo third := by
  intro place entry hentry
  obtain ⟨grown, hgrown, hsource, hkernels⟩ := h place entry hentry
  obtain ⟨last, hlast, hsource', hkernels'⟩ := h' place grown hgrown
  exact ⟨last, hlast, hsource'.trans hsource, hkernels.trans hkernels'⟩

/-- An entry grows by the kernels that are added behind the others. -/
lemma grown_insert (entry : SourceEntry) (signature : Signature) :
    (entry.insert signature).source = entry.source ∧
      entry.kernels <+: (entry.insert signature).kernels := by
  unfold SourceEntry.insert
  split
  · exact ⟨rfl, List.prefix_refl _⟩
  · exact ⟨rfl, List.prefix_append _ _⟩

/-- A source is added behind the others, or not at all. -/
lemma growsTo_addSource (registry : Registry) (source : SourceFile) :
    registry.GrowsTo (registry.addSource source) := by
  intro place entry hentry
  refine ⟨entry, ?_, rfl, List.prefix_refl _⟩
  unfold addSource
  split
  · exact hentry
  · have hplace : place < registry.entries.length := (List.getElem?_eq_some_iff.mp hentry).1
    rw [← hentry]
    exact List.getElem?_append_left hplace

lemma growsTo_insert (registry : Registry) (signature : Signature) :
    registry.GrowsTo (registry.insert signature) := by
  refine (registry.growsTo_addSource signature.source).trans fun place entry hentry => ?_
  unfold insert
  dsimp only
  split
  · next changed _ =>
    dsimp only
    rw [List.getElem?_modify, hentry, Option.map_eq_map, Option.map_some]
    by_cases hplace : changed = place
    · rw [if_pos hplace]
      exact ⟨entry.insert signature, rfl, grown_insert entry signature⟩
    · rw [if_neg hplace]
      exact ⟨entry, rfl, rfl, List.prefix_refl _⟩
  · exact ⟨entry, hentry, rfl, List.prefix_refl _⟩

lemma growsTo_apply (registry : Registry) (step : Step) :
    registry.GrowsTo (registry.apply step) := by
  cases step with
  | add source => exact registry.growsTo_addSource source
  | register signatures =>
    induction signatures generalizing registry with
    | nil => exact .refl registry
    | cons signature signatures ih =>
      exact (registry.growsTo_insert signature).trans (ih (registry.insert signature))

/-- A registry grows by all the steps that follow. -/
theorem growsTo_ofSteps (steps more : List Step) :
    (ofSteps steps).GrowsTo (ofSteps (steps ++ more)) := by
  unfold ofSteps
  rw [List.foldl_append]
  generalize steps.foldl apply empty = registry
  induction more generalizing registry with
  | nil => exact .refl registry
  | cons step more ih => exact (registry.growsTo_apply step).trans (ih (registry.apply step))

/-! ## Searching -/

/-- The entries of a base name, by a search through all entries. -/
def entriesOf (registry : Registry) (source : Text) : List SourceEntry :=
  registry.entries.filter fun entry => entry.source.name == source

/-- The kernels of a base name, by a search through all entries. -/
def searchKernels (registry : Registry) (source : Text) : List Signature :=
  (registry.entriesOf source).flatMap (·.kernels)

namespace Indexed

variable {registry : Registry} (h : registry.Indexed)

include h

/-- The index gives a place for a base name if and only if the entry at this place has the name. -/
theorem position?_eq_some_iff (source : Text) (place : Nat) :
    registry.position? source = some place ↔
      ∃ entry, registry.entries[place]? = some entry ∧ entry.source.name = source := by
  rw [h.position?_eq]
  constructor
  · intro hplace
    obtain ⟨hlt, hname, -⟩ := List.findIdx?_eq_some_iff_getElem.mp hplace
    exact ⟨_, List.getElem?_eq_getElem hlt, by simpa using hname⟩
  · rintro ⟨entry, hentry, rfl⟩
    obtain ⟨hlt, rfl⟩ := List.getElem?_eq_some_iff.mp hentry
    rw [List.findIdx?_eq_some_iff_getElem]
    refine ⟨hlt, beq_self_eq_true _, fun earlier hearlier => ?_⟩
    -- an earlier entry of this name would repeat it
    intro hname
    rw [beq_iff_eq] at hname
    let names := registry.entries.map fun entry => entry.source.name
    have hplace : place < names.length := by rwa [List.length_map]
    have hbefore : earlier < names.length := Nat.lt_trans hearlier hplace
    have hsame : names[earlier] = names[place] := by simpa [names] using hname
    exact Nat.ne_of_lt hearlier (h.nodup_names.getElem_inj_iff.mp hsame)

/-- The entry that the index gives for a base name is the only one of that name. -/
theorem entriesOf_eq (source : Text) :
    registry.entriesOf source = (registry.lookup? source).toList := by
  unfold entriesOf
  cases hlookup : registry.lookup? source with
  | none =>
    rw [h.lookup?_eq, List.find?_eq_none] at hlookup
    rw [List.filter_eq_nil_iff.mpr hlookup]
    rfl
  | some entry =>
    obtain ⟨hmem, rfl⟩ := h.mem_of_lookup? hlookup
    obtain ⟨front, back, hentries⟩ := List.append_of_mem hmem
    have hnames := h.nodup_names
    rw [hentries, List.map_append, List.map_cons, List.nodup_middle, List.nodup_cons,
      List.mem_append, not_or] at hnames
    have hother {others : List SourceEntry}
        (hnot : entry.source.name ∉ others.map (·.source.name)) :
        others.filter (fun other => other.source.name == entry.source.name) = [] := by
      rw [List.filter_eq_nil_iff]
      intro other hother hname
      rw [beq_iff_eq] at hname
      exact hnot (hname ▸ List.mem_map_of_mem hother)
    rw [hentries, List.filter_append, List.filter_cons_of_pos (by simp), hother hnames.1.1,
      hother hnames.1.2]
    rfl

/-- The kernels that are looked up are those that a search finds. -/
theorem kernelsOf_eq (source : Text) :
    registry.kernelsOf source = registry.searchKernels source := by
  unfold searchKernels kernelsOf
  rw [h.entriesOf_eq]
  cases registry.lookup? source with
  | none => rfl
  | some entry =>
    exact (List.flatMap_singleton (fun entry : SourceEntry => entry.kernels) entry).symm

/-- A base name is known if and only if a search finds an entry of that name. -/
theorem hasSource_eq (source : Text) :
    registry.hasSource source = registry.entries.any fun entry => entry.source.name == source := by
  rw [Bool.eq_iff_iff, h.hasSource_iff, List.any_eq_true]
  simp only [beq_iff_eq]

/-- A kernel is known if and only if a search finds it in an entry of the base name. -/
theorem hasKernel_eq (source kernel : Text) :
    registry.hasKernel source kernel = registry.entries.any fun entry =>
      entry.source.name == source &&
        entry.kernels.any fun signature => signature.name == kernel := by
  rw [hasKernel, h.kernelsOf_eq, searchKernels, entriesOf, List.any_flatMap, List.any_filter]

/-- The name of an only kernel is the one name that a search finds. -/
theorem soleKernel?_eq_some_iff_search (source kernel : Text) :
    registry.soleKernel? source = some kernel ↔
      (registry.searchKernels source).map (·.name) = [kernel] := by
  rw [soleKernel?, h.kernelsOf_eq]
  rcases registry.searchKernels source with _ | ⟨first, _ | ⟨second, rest⟩⟩
  · simp
  · simp
  · simp

/-- All kernels are counted source by source. -/
theorem kernelCount_eq :
    registry.kernelCount =
      ((registry.entries.map (·.source.name)).map registry.countOf).sum := by
  rw [kernelCount, signatures, List.length_flatMap, List.map_map]
  congr 1
  refine List.map_congr_left fun entry hentry => ?_
  show entry.kernels.length = (registry.kernelsOf entry.source.name).length
  rw [h.kernelsOf_of_mem hentry]

/-- Where the index places a base name, it places it after any growth as well. -/
lemma position?_of_growsTo {later : Registry} (hlater : later.Indexed)
    (hgrows : registry.GrowsTo later) {source : Text} {place : Nat}
    (hplace : registry.position? source = some place) :
    later.position? source = some place := by
  obtain ⟨entry, hentry, hname⟩ := (h.position?_eq_some_iff source place).mp hplace
  obtain ⟨grown, hgrown, hsource, -⟩ := hgrows place entry hentry
  rw [hlater.position?_eq_some_iff]
  exact ⟨grown, hgrown, by rw [hsource]; exact hname⟩

end Indexed

lemma exists_position?_addSource (registry : Registry) (source : SourceFile) :
    ∃ place, (registry.addSource source).position? source.name = some place := by
  rw [← Option.isSome_iff_exists]
  unfold addSource
  split
  · next hknown => exact hknown
  · unfold position?
    dsimp only
    rw [List.lookup_append, List.lookup_cons_self]
    cases registry.index.lookup source.name <;> rfl

/-- After any steps, the index gives for each base name the place of its entry, no name repeats,
and each kernel is registered under the base name of its source. A source that is added gets a place
at which there is an entry of its base name, and that entry keeps the place and the source through
all steps that follow. Whatever is looked up through the index is what a search through all entries
finds, and the kernels are counted source by source. -/
theorem lookups_eq_search (steps : List Step) :
    let registry := ofSteps steps
    (∀ source place, registry.position? source = some place ↔
      ∃ entry, registry.entries[place]? = some entry ∧ entry.source.name = source) ∧
    (registry.entries.map (·.source.name)).Nodup ∧
    (∀ entry ∈ registry.entries, (entry.kernels.map (·.name)).Nodup ∧
      ∀ signature ∈ entry.kernels, signature.source.name = entry.source.name) ∧
    (∀ source : SourceFile, ∃ place entry,
      (registry.addSource source).position? source.name = some place ∧
      (registry.addSource source).entries[place]? = some entry ∧
      entry.source.name = source.name ∧
      ∀ more, (ofSteps (steps ++ .add source :: more)).position? source.name = some place ∧
        ∃ later, (ofSteps (steps ++ .add source :: more)).entries[place]? = some later ∧
          later.source = entry.source) ∧
    (∀ source, registry.kernelsOf source = registry.searchKernels source ∧
      registry.countOf source = (registry.searchKernels source).length ∧
      (∀ kernel, registry.soleKernel? source = some kernel ↔
        (registry.searchKernels source).map (·.name) = [kernel]) ∧
      (registry.hasSource source =
        registry.entries.any fun entry => entry.source.name == source) ∧
      ∀ kernel, registry.hasKernel source kernel =
        registry.entries.any fun entry => entry.source.name == source &&
          entry.kernels.any fun signature => signature.name == kernel) ∧
    registry.kernelCount =
      ((registry.entries.map (·.source.name)).map registry.countOf).sum := by
  intro registry
  have h : registry.Indexed := indexed_ofSteps steps
  refine ⟨h.position?_eq_some_iff, h.nodup_names, ?_, ?_, ?_, h.kernelCount_eq⟩
  · exact fun entry hentry => ⟨h.nodup_kernels entry hentry, h.source_name entry hentry⟩
  · intro source
    have hadd : ofSteps (steps ++ [.add source]) = registry.addSource source := by
      unfold ofSteps
      rw [List.foldl_append]
      rfl
    have hadded : (registry.addSource source).Indexed := hadd ▸ indexed_ofSteps _
    obtain ⟨place, hplace⟩ := registry.exists_position?_addSource source
    obtain ⟨entry, hentry, hname⟩ := (hadded.position?_eq_some_iff _ place).mp hplace
    refine ⟨place, entry, hplace, hentry, hname, fun more => ?_⟩
    have hgrows := growsTo_ofSteps (steps ++ [.add source]) more
    rw [hadd, List.append_assoc, List.singleton_append] at hgrows
    obtain ⟨later, hlater, hsource, -⟩ := hgrows place entry hentry
    exact ⟨hadded.position?_of_growsTo (indexed_ofSteps _) hgrows hplace, later, hlater, hsource⟩
  · intro source
    have hkernels := h.kernelsOf_eq source
    exact ⟨hkernels, congrArg List.length hkernels, h.soleKernel?_eq_some_iff_search source,
      h.hasSource_eq source, h.hasKernel_eq source⟩

/-- Sources under names that are not those of their paths: the second path of a name gets the place
of the first, and keeps it when other sources and kernels are added. -/
theorem lookups_eq_search_renamed :
    let first : SourceFile := ⟨⟨"a/x.cu".toList⟩, "y".toList⟩
    let second : SourceFile := ⟨⟨"b/x.cu".toList⟩, "x.cu".toList⟩
    let again : SourceFile := ⟨⟨"c/z.cu".toList⟩, "x.cu".toList⟩
    let kernel : Signature := ⟨again, ['f'], "int n".toList, false⟩
    let steps : List Step := [.add first, .register [kernel, kernel], .add second]
    let more : List Step := [.register [⟨first, ['f'], [], true⟩], .add ⟨second.path, ['w']⟩]
    (⟨again, [kernel]⟩ ∈ (ofSteps steps).entries ∧ ([kernel].map (·.name)).Nodup) ∧
    ((ofSteps steps).addSource second).position? "x.cu".toList = some 1 ∧
    (ofSteps (steps ++ .add second :: more)).position? "x.cu".toList = some 1 ∧
    (ofSteps steps).soleKernel? "x.cu".toList = some ['f'] := by
  intro first second again kernel steps more
  obtain ⟨-, -, hkernels, hplaces, hlookups, -⟩ := lookups_eq_search steps
  have hmem : ⟨again, [kernel]⟩ ∈ (ofSteps steps).entries := by decide +kernel
  have hplace : ((ofSteps steps).addSource second).position? "x.cu".toList = some 1 := by
    decide +kernel
  obtain ⟨place, entry, hfound, -, -, hlater⟩ := hplaces second
  obtain rfl : place = 1 := Option.some.inj (hfound.symm.trans hplace)
  refine ⟨⟨hmem, (hkernels _ hmem).1⟩, hplace, (hlater more).1, ?_⟩
  exact ((hlookups "x.cu".toList).2.2.1 ['f']).mpr (by decide +kernel)

end KernelCensus.Registry
