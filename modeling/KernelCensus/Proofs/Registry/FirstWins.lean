import KernelCensus.Codec.Source
import KernelCensus.Proofs.Path
import KernelCensus.Proofs.Registry.History

/-!
# First wins

The registry that steps build up is the one that first occurrences define. The lemmas follow one
sighting at the end of a sequence: what it does to the registry of the sequence is what it does to
the first occurrences. The theorem about whole histories is then an induction from the end.

* `ofSightings_concat`: one more sighting is one step of the registry.
* `indexed_ofSteps`: the index of a registry is always in step with its entries.
* `hasKernel_ofSteps`: what is registered is what was found.
* `ofSteps_eq_ofSightings`: the whole history, with its notices and its repetitions.
-/

namespace KernelCensus

namespace Sightings

variable (sightings : List Sighting)

/-! ## Look-ups -/

/-- A base name has a first source if and only if it was seen. -/
lemma first?_isSome (name : Text) :
    (first? sightings name).isSome = true ↔
      name ∈ (sightings.map Sighting.source).map SourceFile.name := by
  rw [first?, List.find?_isSome]
  simp only [List.mem_map, beq_iff_eq]

lemma name_of_first? {name : Text} {source : SourceFile}
    (h : first? sightings name = some source) : source.name = name := by
  simpa using List.find?_some h

/-- A source at the end is the first of its base name only if there was none before. -/
lemma first?_concat (sighting : Sighting) (name : Text) :
    first? (sightings ++ [sighting]) name =
      (first? sightings name).or
        (if sighting.source.name = name then some sighting.source else none) := by
  rw [first?, List.map_append, List.find?_append, first?, List.map_singleton,
    List.find?_singleton]
  simp only [beq_iff_eq]

/-- What is added at the end does not change the first source of a base name that was seen. -/
lemma first?_concat_of_mem (sighting : Sighting) {name : Text}
    (h : name ∈ (sightings.map Sighting.source).map SourceFile.name) :
    first? (sightings ++ [sighting]) name = first? sightings name := by
  rw [← first?_isSome, Option.isSome_iff_exists] at h
  obtain ⟨source, hsource⟩ := h
  rw [first?_concat, hsource]
  rfl

end Sightings

namespace Registry

open Sightings

variable (sightings : List Sighting)

/-- The registry of sightings is indexed. -/
theorem indexed_ofSightings : (ofSightings sightings).Indexed where
  index_eq := rfl
  nodup_names := by
    rw [ofSightings, List.map_map]
    exact nodup_map_firstsBy _
  nodup_kernels := by
    intro entry hentry
    obtain ⟨source, -, rfl⟩ := List.mem_map.mp hentry
    exact nodup_map_firstsBy _
  source_name := by
    intro entry hentry signature hsignature
    obtain ⟨source, -, rfl⟩ := List.mem_map.mp hentry
    have hmem := (firstsBy_sublist _).subset hsignature
    simpa using (List.mem_filter.mp hmem).2

/-- The entry of a base name is its first source with its first kernels. -/
lemma lookup?_ofSightings (name : Text) :
    (ofSightings sightings).lookup? name =
      (first? sightings name).map fun source => ⟨source, kernels sightings name⟩ := by
  have hfind : (sources sightings).find? (fun source => source.name == name) =
      first? sightings name := find?_firstsBy (sightings.map Sighting.source) name
  rw [(indexed_ofSightings sightings).lookup?_eq, ofSightings, List.find?_map]
  show ((sources sightings).find? fun source => source.name == name).map _ = _
  rw [hfind]
  cases hfirst : first? sightings name with
  | none => rfl
  | some source =>
    rw [Option.map_some, Option.map_some, name_of_first? sightings hfirst]

/-- A base name is known if and only if it was seen. -/
lemma hasSource_ofSightings (name : Text) :
    (ofSightings sightings).hasSource name = true ↔
      name ∈ (sightings.map Sighting.source).map SourceFile.name := by
  rw [(indexed_ofSightings sightings).hasSource_iff, ofSightings]
  rw [← mem_map_firstsBy (sightings.map Sighting.source) name]
  simp only [List.mem_map, sources]
  constructor
  · rintro ⟨entry, ⟨source, hsource, rfl⟩, hname⟩
    exact ⟨source, hsource, hname⟩
  · rintro ⟨source, hsource, hname⟩
    exact ⟨_, ⟨source, hsource, rfl⟩, hname⟩

/-- A source that is added is merged as its sightings say, unless its path is merged already. -/
lemma merge?_ofSightings (source : SourceFile) :
    (ofSightings sightings).merge? source =
      (Sightings.merge? sightings source).filter fun merge =>
        decide (merge.merged.parts ∉ (Sightings.merges sightings).map fun m => m.merged.parts) := by
  have hmerged : ((ofSightings sightings).merges.any fun m => m.merged.same source.path) =
      decide (source.path.parts ∈ (Sightings.merges sightings).map fun m => m.merged.parts) := by
    rw [Bool.eq_iff_iff, List.any_eq_true, decide_eq_true_eq, List.mem_map]
    simp only [Path.same, beq_iff_eq]
    rfl
  rw [Registry.merge?, lookup?_ofSightings, Sightings.merge?, hmerged]
  cases first? sightings source.name with
  | none => rfl
  | some first =>
    rw [Option.map_some, Option.bind_some]
    dsimp only
    by_cases hsame : first.path.same source.path = true
    · rw [hsame, Bool.true_or, if_pos rfl, Option.filter_none]
    · rw [Bool.eq_false_iff.mpr hsame, Bool.false_or, if_neg Bool.false_ne_true, Option.filter_some]
      by_cases hmem : source.path.parts ∈ (Sightings.merges sightings).map fun m => m.merged.parts
      · rw [if_pos (decide_eq_true hmem), if_neg (by simpa using hmem)]
      · rw [if_neg (by simpa using hmem), if_pos (decide_eq_true hmem)]

lemma mem_parts_merges (parts : List Path.Part) :
    parts ∈ (Sightings.merges sightings).map (fun merge => merge.merged.parts) ↔
      parts ∈ (allMerges sightings).map fun merge => merge.merged.parts :=
  mem_map_firstsBy _ _

/-- The names of the kernels of an entry are those found under its base name. -/
lemma hasKernel_iff (source : SourceFile) (kernel : Text) :
    (⟨source, kernels sightings source.name⟩ : SourceEntry).hasKernel kernel = true ↔
      kernel ∈ (found sightings source.name).map Signature.name := by
  rw [← mem_map_firstsBy, SourceEntry.hasKernel, List.any_eq_true, List.mem_map]
  simp only [beq_iff_eq]
  rfl

/-! ## One more sighting -/

/-- A sighting of a base name that was seen adds no source. -/
lemma sources_concat_of_mem (sighting : Sighting)
    (h : sighting.source.name ∈ (sightings.map Sighting.source).map SourceFile.name) :
    sources (sightings ++ [sighting]) = sources sightings := by
  rw [sources, List.map_append, List.map_singleton, firstsBy_concat, if_pos h]
  rfl

/-- A sighting of a new base name adds its source. -/
lemma sources_concat_of_not_mem (sighting : Sighting)
    (h : sighting.source.name ∉ (sightings.map Sighting.source).map SourceFile.name) :
    sources (sightings ++ [sighting]) = sources sightings ++ [sighting.source] := by
  rw [sources, List.map_append, List.map_singleton, firstsBy_concat, if_neg h]
  rfl

/-- A base name that was not seen has no kernels. -/
lemma kernels_of_not_mem {name : Text}
    (h : name ∉ (sightings.map Sighting.source).map SourceFile.name) :
    kernels sightings name = [] := by
  have hfound : found sightings name = [] := by
    refine List.filter_eq_nil_iff.mpr fun signature hmem hname => h ?_
    obtain ⟨sighting, hsighting, hsome⟩ := List.mem_filterMap.mp hmem
    cases sighting with
    | scanned source => cases hsome
    | found s =>
      rw [← Option.some.inj hsome, beq_iff_eq] at hname
      exact List.mem_map.mpr ⟨s.source, List.mem_map_of_mem hsighting, hname⟩
  rw [kernels, hfound]
  rfl

/-- A merge does not change with what is seen after it. -/
lemma allMerges_concat (sighting : Sighting) :
    allMerges (sightings ++ [sighting]) =
      allMerges sightings ++
        (Sightings.merge? (sightings ++ [sighting]) sighting.source).toList := by
  rw [allMerges, List.filterMap_append]
  have hbefore : sightings.filterMap (fun s => Sightings.merge? (sightings ++ [sighting]) s.source) =
      allMerges sightings := by
    refine List.filterMap_congr fun s hs => ?_
    rw [Sightings.merge?, Sightings.merge?,
      first?_concat_of_mem sightings sighting (List.mem_map_of_mem (List.mem_map_of_mem hs))]
  rw [hbefore]
  rfl

/-- What a sighting at the end does to the merges. -/
lemma merges_concat (sighting : Sighting) :
    Sightings.merges (sightings ++ [sighting]) =
      Sightings.merges sightings ++
        ((ofSightings sightings).merge? sighting.source).toList := by
  rw [Sightings.merges, allMerges_concat, merge?_ofSightings]
  by_cases hseen : sighting.source.name ∈ (sightings.map Sighting.source).map SourceFile.name
  · -- the base name was seen, so the candidate is the one that the registry knows
    have hmerge : Sightings.merge? (sightings ++ [sighting]) sighting.source =
        Sightings.merge? sightings sighting.source := by
      rw [Sightings.merge?, Sightings.merge?, first?_concat_of_mem sightings sighting hseen]
    rw [hmerge]
    cases hcase : Sightings.merge? sightings sighting.source with
    | none =>
      rw [Option.filter_none, Option.toList_none, List.append_nil, List.append_nil, Sightings.merges]
    | some merge =>
      have hmem := mem_parts_merges sightings merge.merged.parts
      rw [Option.toList_some, firstsBy_concat, Option.filter_some]
      by_cases hknown : merge.merged.parts ∈ (Sightings.merges sightings).map fun m => m.merged.parts
      · rw [if_pos (hmem.mp hknown), if_neg (by simpa using hknown), Option.toList_none,
          List.append_nil]
        rfl
      · rw [if_neg (fun h => hknown (hmem.mpr h)), if_pos (by simpa using hknown)]
        rfl
  · -- the base name is new: its first source is this one, which is not merged
    have hfirst : first? sightings sighting.source.name = none := by
      rw [← Option.not_isSome_iff_eq_none, first?_isSome]
      exact hseen
    have hself : Sightings.merge? (sightings ++ [sighting]) sighting.source = none := by
      rw [Sightings.merge?, first?_concat, hfirst, if_pos rfl, Option.none_or, Option.bind_some,
        if_pos (show sighting.source.path.same sighting.source.path = true from beq_self_eq_true _)]
    have hnone : Sightings.merge? sightings sighting.source = none := by
      rw [Sightings.merge?, hfirst, Option.bind_none]
    rw [hself, hnone, Option.filter_none, Option.toList_none, List.append_nil, List.append_nil]
    rfl

lemma kernels_concat_scanned (source : SourceFile) :
    kernels (sightings ++ [.scanned source]) = kernels sightings := by
  funext name
  have hnone : [Sighting.scanned source].filterMap Sighting.signature? = [] := rfl
  rw [kernels, found, List.filterMap_append, hnone, List.append_nil]
  rfl

/-- A kernel at the end is found under its base name. -/
lemma found_concat_found (signature : Signature) (name : Text) :
    found (sightings ++ [.found signature]) name =
      if signature.source.name = name then found sightings name ++ [signature]
      else found sightings name := by
  have hsome : [Sighting.found signature].filterMap Sighting.signature? = [signature] := rfl
  rw [found, List.filterMap_append, hsome, List.filter_append, List.filter_singleton, found]
  by_cases hname : signature.source.name = name
  · rw [if_pos hname, beq_iff_eq.mpr hname, cond_true]
  · rw [if_neg hname, beq_eq_false_iff_ne.mpr hname, cond_false, List.append_nil]

/-- A kernel at the end is inserted into the entry of its base name. -/
lemma entry_concat_found (signature : Signature) (source : SourceFile) :
    (⟨source, kernels (sightings ++ [.found signature]) source.name⟩ : SourceEntry) =
      if source.name = signature.source.name then
        (⟨source, kernels sightings source.name⟩ : SourceEntry).insert signature
      else ⟨source, kernels sightings source.name⟩ := by
  rw [kernels, found_concat_found]
  by_cases hname : source.name = signature.source.name
  · have hhas := hasKernel_iff sightings source signature.name
    rw [if_pos hname, if_pos hname.symm, firstsBy_concat, SourceEntry.insert]
    -- the insertion keeps the entry exactly where the first occurrence of the name is an older one
    by_cases htaken : signature.name ∈ (found sightings source.name).map Signature.name
    · rw [if_pos htaken, if_pos (hhas.mpr htaken)]
      rfl
    · rw [if_neg htaken, if_neg (fun h => htaken (hhas.mp h))]
      rfl
  · rw [if_neg hname, if_neg (Ne.symm hname)]
    rfl

/-- The registry of sightings with a source at the end is the registry with the source added. -/
lemma ofSightings_concat_scanned (source : SourceFile) :
    ofSightings (sightings ++ [.scanned source]) = (ofSightings sightings).addSource source := by
  have hsource := hasSource_ofSightings sightings source.name
  rw [addSource, ofSightings, kernels_concat_scanned, merges_concat]
  by_cases hseen : source.name ∈ (sightings.map Sighting.source).map SourceFile.name
  -- a known base name leaves sources and kernels as they are
  · rw [sources_concat_of_mem sightings (.scanned source) hseen, if_pos (hsource.mpr hseen)]
    rfl
  -- a new one has no kernels yet, and nothing to be merged into
  · have hmerge : (ofSightings sightings).merge? source = none := by
      rw [Registry.merge?, lookup?_ofSightings]
      rw [← first?_isSome, Option.not_isSome_iff_eq_none] at hseen
      rw [hseen]
      rfl
    rw [sources_concat_of_not_mem sightings (.scanned source) hseen,
      if_neg (fun h => hseen (hsource.mp h))]
    dsimp only [Sighting.source]
    rw [List.map_append, List.map_singleton, kernels_of_not_mem sightings hseen, indexOf_concat,
      hmerge, Option.toList_none, List.append_nil]
    rfl

/-- The registry of sightings with a kernel at the end is the registry with the kernel inserted. -/
lemma ofSightings_concat_found (signature : Signature) :
    ofSightings (sightings ++ [.found signature]) = (ofSightings sightings).insert signature := by
  rw [insert, ← ofSightings_concat_scanned]
  have hindexed := indexed_ofSightings (sightings ++ [.scanned signature.source])
  have hplace : ((ofSightings (sightings ++ [.scanned signature.source])).position?
      signature.source.name).isSome = true := by
    rw [← hasSource, hasSource_ofSightings, List.map_append, List.map_append]
    exact List.mem_append_right _ List.mem_cons_self
  -- the source is there after it was added, so the insertion finds its entry
  obtain ⟨place, hplace⟩ := Option.isSome_iff_exists.mp hplace
  rw [hplace]
  dsimp only
  rw [hindexed.position?_eq] at hplace
  rw [modify_findIdx? (fun entry : SourceEntry => entry.source.name) hindexed.nodup_names hplace]
  -- both sides have the same sources and merges, and the entries differ as a kernel inserted does
  have hsources : sources (sightings ++ [.found signature]) =
      sources (sightings ++ [.scanned signature.source]) := by
    rw [sources, sources, List.map_append, List.map_append]
    rfl
  have hentries : (ofSightings (sightings ++ [.found signature])).entries =
      (ofSightings (sightings ++ [.scanned signature.source])).entries.map fun entry =>
        if entry.source.name = signature.source.name then entry.insert signature else entry := by
    rw [ofSightings, ofSightings, hsources, kernels_concat_scanned, List.map_map]
    exact List.map_congr_left fun source _ => entry_concat_found sightings signature source
  have hmerges : (ofSightings (sightings ++ [.found signature])).merges =
      (ofSightings (sightings ++ [.scanned signature.source])).merges := by
    show Sightings.merges _ = Sightings.merges _
    rw [merges_concat, merges_concat]
    rfl
  have hindex : (ofSightings (sightings ++ [.found signature])).index =
      (ofSightings (sightings ++ [.scanned signature.source])).index := by
    rw [(indexed_ofSightings _).index_eq, hindexed.index_eq, hentries]
    refine indexOf_map _ fun entry => ?_
    split
    · rw [SourceEntry.insert]
      split <;> rfl
    · rfl
  rw [← hentries, ← hmerges, ← hindex]

/-- One more sighting is one step of the registry. -/
theorem ofSightings_concat (sighting : Sighting) :
    ofSightings (sightings ++ [sighting]) = (ofSightings sightings).see sighting := by
  cases sighting with
  | scanned source => exact ofSightings_concat_scanned sightings source
  | found signature => exact ofSightings_concat_found sightings signature

/-- Sightings one after another come to what their first occurrences say. -/
theorem foldl_see_empty : sightings.foldl see empty = ofSightings sightings := by
  induction sightings using List.reverseRecOn with
  | nil => rfl
  | append_singleton sightings sighting ih =>
    rw [List.foldl_append, ih, ofSightings_concat]
    rfl

/-- The index of a registry is in step with its entries after any steps. -/
theorem indexed_ofSteps (steps : List Step) : (ofSteps steps).Indexed := by
  rw [ofSteps_eq_foldl, foldl_see_empty]
  exact indexed_ofSightings _

/-! ## What is registered -/

/-- The kernels of a base name are the first ones found under it. -/
lemma kernelsOf_ofSightings (name : Text) :
    (ofSightings sightings).kernelsOf name = kernels sightings name := by
  rw [kernelsOf, lookup?_ofSightings]
  cases hfirst : first? sightings name with
  | some source => rfl
  | none =>
    have hunseen : name ∉ (sightings.map Sighting.source).map SourceFile.name := by
      rw [← first?_isSome, hfirst]
      exact Bool.false_ne_true
    rw [kernels_of_not_mem sightings hunseen]
    rfl

/-- A base name is known after steps if and only if one of them saw it. -/
theorem hasSource_ofSteps (steps : List Step) (name : Text) :
    (ofSteps steps).hasSource name = true ↔
      ∃ sighting ∈ steps.flatMap Step.sightings, sighting.source.name = name := by
  rw [ofSteps_eq_foldl, foldl_see_empty, hasSource_ofSightings, List.map_map, List.mem_map]
  rfl

/-- A kernel is registered after steps if and only if one of them found it. -/
theorem hasKernel_ofSteps (steps : List Step) (name kernel : Text) :
    (ofSteps steps).hasKernel name kernel = true ↔
      ∃ signature, .found signature ∈ steps.flatMap Step.sightings ∧
        signature.source.name = name ∧ signature.name = kernel := by
  have hkernels : (ofSteps steps).hasKernel name kernel = true ↔
      kernel ∈ (found (steps.flatMap Step.sightings) name).map Signature.name := by
    rw [ofSteps_eq_foldl, foldl_see_empty, hasKernel, kernelsOf_ofSightings,
      ← mem_map_firstsBy, List.any_eq_true, List.mem_map]
    simp only [beq_iff_eq]
    rfl
  rw [hkernels, List.mem_map]
  constructor
  · rintro ⟨signature, hfound, hname⟩
    obtain ⟨hseen, hsource⟩ := List.mem_filter.mp hfound
    obtain ⟨sighting, hsighting, hsome⟩ := List.mem_filterMap.mp hseen
    cases sighting with
    | scanned source => cases hsome
    | found other =>
      cases hsome
      exact ⟨signature, hsighting, by simpa using hsource, hname⟩
  · rintro ⟨signature, hsighting, hsource, hname⟩
    have hseen : signature ∈ (steps.flatMap Step.sightings).filterMap Sighting.signature? :=
      List.mem_filterMap.mpr ⟨_, hsighting, rfl⟩
    exact ⟨signature, List.mem_filter.mpr ⟨hseen, by simpa using hsource⟩, hname⟩

/-- A kernel of the registry is one that a step found. -/
theorem found_of_mem_signatures {steps : List Step} {signature : Signature}
    (h : signature ∈ (ofSteps steps).signatures) :
    .found signature ∈ steps.flatMap Step.sightings := by
  rw [ofSteps_eq_foldl, foldl_see_empty] at h
  obtain ⟨entry, hentry, hkernel⟩ := List.mem_flatMap.mp h
  obtain ⟨source, -, rfl⟩ := List.mem_map.mp hentry
  have hfound := (firstsBy_sublist (found _ source.name)).subset hkernel
  obtain ⟨sighting, hsighting, hsome⟩ := List.mem_filterMap.mp (List.mem_filter.mp hfound).1
  cases sighting with
  | scanned source => cases hsome
  | found other =>
    cases hsome
    exact hsighting

/-! ## Notices -/

/-- A source that is added is recorded as merged if and only if it causes a merge. -/
lemma merges_addSource (registry : Registry) (source : SourceFile) :
    (registry.addSource source).merges =
      registry.merges ++ (registry.merge? source).toList := by
  rw [addSource]
  by_cases hsource : registry.hasSource source.name = true
  · rw [if_pos hsource]
  · have hmerge : registry.merge? source = none := by
      rw [hasSource, Option.not_isSome_iff_eq_none] at hsource
      rw [Registry.merge?, lookup?, hsource]
      rfl
    rw [if_neg hsource, hmerge, Option.toList_none, List.append_nil]

lemma merges_insert (registry : Registry) (signature : Signature) :
    (registry.insert signature).merges =
      registry.merges ++ (registry.merge? signature.source).toList := by
  rw [← merges_addSource, insert]
  split <;> rfl

/-- There is one notice for each merge that signatures cause. -/
lemma notices_insertAll (registry : Registry) (signatures : List Signature) :
    (registry.insertAll signatures).merges.map Merge.notice =
      registry.merges.map Merge.notice ++ registry.noticesOf signatures := by
  induction signatures generalizing registry with
  | nil => rw [noticesOf, List.append_nil]; rfl
  | cons signature signatures ih =>
    rw [insertAll, List.foldl_cons, ← insertAll, ih, merges_insert, List.map_append,
      List.append_assoc, noticesOf, Option.toList_map]

/-- There is one notice for each merge that a step causes. -/
lemma notices_apply (registry : Registry) (step : Step) :
    (registry.apply step).merges.map Merge.notice =
      registry.merges.map Merge.notice ++ registry.noticesOfStep step := by
  cases step with
  | add source =>
    rw [apply, merges_addSource, List.map_append, noticesOfStep, Option.toList_map]
  | register signatures => exact notices_insertAll registry signatures

/-- There is one notice for each merge that steps cause. -/
theorem noticesOfSteps_eq (registry : Registry) (steps : List Step) :
    (steps.foldl apply registry).merges.map Merge.notice =
      registry.merges.map Merge.notice ++ registry.noticesOfSteps steps := by
  induction steps generalizing registry with
  | nil => rw [noticesOfSteps, List.append_nil]; rfl
  | cons step steps ih =>
    rw [List.foldl_cons, ih, notices_apply, List.append_assoc]
    rfl

/-! ## Repetitions -/

lemma merge?_of_mem {sighting : Sighting} (h : sighting ∈ sightings) :
    (ofSightings sightings).merge? sighting.source = none := by
  rw [merge?_ofSightings]
  cases hmerge : Sightings.merge? sightings sighting.source with
  | none => rw [Option.filter_none]
  | some merge =>
    -- the merge that it would cause is recorded since its own sighting
    have hmem : merge ∈ allMerges sightings := List.mem_filterMap.mpr ⟨sighting, h, hmerge⟩
    have hknown := (mem_parts_merges sightings merge.merged.parts).mpr (List.mem_map_of_mem hmem)
    rw [Option.filter_some, if_neg (by simpa using hknown)]

lemma insert_of_mem {signature : Signature} (h : .found signature ∈ sightings) :
    (ofSightings sightings).insert signature = ofSightings sightings := by
  have hseen : signature.source.name ∈ (sightings.map Sighting.source).map SourceFile.name :=
    List.mem_map_of_mem (List.mem_map_of_mem h)
  have hentries : (sources sightings).map (fun source =>
      (⟨source, kernels (sightings ++ [.found signature]) source.name⟩ : SourceEntry)) =
      (sources sightings).map fun source => ⟨source, kernels sightings source.name⟩ := by
    refine List.map_congr_left fun source _ => ?_
    rw [entry_concat_found]
    split
    · next hname =>
      have hfound : signature ∈ found sightings source.name :=
        List.mem_filter.mpr ⟨List.mem_filterMap.mpr ⟨_, h, rfl⟩, by simp [hname]⟩
      have hhas := (hasKernel_iff sightings source signature.name).mpr (List.mem_map_of_mem hfound)
      rw [SourceEntry.insert, if_pos hhas]
    · rfl
  rw [← ofSightings_concat_found, ofSightings,
    sources_concat_of_mem sightings (.found signature) hseen, hentries, merges_concat,
    show (ofSightings sightings).merge? (Sighting.found signature).source = none from
      merge?_of_mem sightings h, Option.toList_none, List.append_nil]
  rfl

/-- Signatures that were found before change nothing and cause no notice. -/
theorem insertAll_of_forall_mem (signatures : List Signature)
    (h : ∀ signature ∈ signatures, .found signature ∈ sightings) :
    (ofSightings sightings).insertAll signatures = ofSightings sightings ∧
      (ofSightings sightings).noticesOf signatures = [] := by
  induction signatures with
  | nil => exact ⟨rfl, rfl⟩
  | cons signature signatures ih =>
    have hmem := h signature List.mem_cons_self
    have hmerge : (ofSightings sightings).merge? signature.source = none :=
      merge?_of_mem sightings hmem
    obtain ⟨hregistry, hnotices⟩ := ih fun s hs => h s (List.mem_cons_of_mem _ hs)
    constructor
    · rw [insertAll, List.foldl_cons, insert_of_mem sightings hmem]
      exact hregistry
    · rw [noticesOf, insert_of_mem sightings hmem, hnotices, hmerge]
      rfl

/-! ## Merged paths -/

/-- Of two sources at one path, each has the name of the other if one of them is merged. -/
private lemma name_eq_of_same {first source other : SourceFile}
    (hfirst : first = .ofPath first.path) (hsource : source = .ofPath source.path)
    (hother : other = .ofPath other.path) (hname : first.name = source.name)
    (hdiffers : first.path.same source.path = false)
    (hsame : other.path.same source.path = true) : other.name = source.name := by
  cases hfile : source.path.fileName? with
  | none =>
    have hpath : first.path = source.path := by
      rw [hfirst, hsource] at hname
      exact SourceFile.eq_of_name_eq_of_fileName?_eq_none hname hfile
    rw [hpath, Path.same, beq_self_eq_true] at hdiffers
    cases hdiffers
  | some name =>
    have hfile' := SourceFile.fileName?_eq_of_same hsame
    rw [hother, hsource, SourceFile.ofPath, SourceFile.ofPath, hfile', hfile]
    rfl

/-- Among sources named by their paths, each path that is seen under a base name first seen at
another path is recorded, with that other path as the one kept. -/
theorem exists_merge (hpaths : ∀ sighting ∈ sightings, sighting.source = .ofPath sighting.source.path)
    {sighting : Sighting} (hmem : sighting ∈ sightings) {first : SourceFile}
    (hfirst : first? sightings sighting.source.name = some first)
    (hdiffers : first.path.same sighting.source.path = false) :
    ∃ merge ∈ (ofSightings sightings).merges, merge.name = sighting.source.name ∧
      merge.kept = first.path ∧ merge.merged.same sighting.source.path = true := by
  have hcandidate : Sightings.merge? sightings sighting.source =
      some ⟨sighting.source.name, first.path, sighting.source.path⟩ := by
    rw [Sightings.merge?, hfirst, Option.bind_some, hdiffers, if_neg Bool.false_ne_true]
  have hparts := (mem_parts_merges sightings sighting.source.path.parts).mpr
    (List.mem_map.mpr ⟨_, List.mem_filterMap.mpr ⟨sighting, hmem, hcandidate⟩, rfl⟩)
  obtain ⟨merge, hmerge, hpath⟩ := List.mem_map.mp hparts
  refine ⟨merge, hmerge, ?_⟩
  -- the recorded merge may come from another sighting of the path, which has the same name
  obtain ⟨other, hother, hsome⟩ := List.mem_filterMap.mp ((firstsBy_sublist _).subset hmerge)
  rw [Sightings.merge?, Option.bind_eq_some_iff] at hsome
  obtain ⟨first', hfirst', hsome⟩ := hsome
  split at hsome
  · cases hsome
  · have hsame : other.source.path.same sighting.source.path = true := by
      rw [← Option.some.inj hsome] at hpath
      rw [Path.same, beq_iff_eq]
      exact hpath
    have hfound : first ∈ sightings.map Sighting.source := List.mem_of_find?_eq_some hfirst
    obtain ⟨earlier, hearlier, hsource⟩ := List.mem_map.mp hfound
    have hname := name_eq_of_same (hsource ▸ hpaths earlier hearlier) (hpaths sighting hmem)
      (hpaths other hother) (name_of_first? sightings hfirst) hdiffers hsame
    rw [hname, hfirst, Option.some.injEq] at hfirst'
    rw [← Option.some.inj hsome, hfirst']
    exact ⟨hname, rfl, hsame⟩

/-! ## Histories -/

/-- After any steps the registry is the one that the first occurrences in the flat sequence of
sightings define, and each merge was noticed once. No path is merged twice, and if sources are
named by their paths, each path whose base name was first seen elsewhere is merged into that first
path. Registering again what was registered changes nothing and causes no notice. -/
theorem ofSteps_eq_ofSightings (steps : List Step) :
    ofSteps steps = ofSightings (steps.flatMap Step.sightings) ∧
    empty.noticesOfSteps steps = (ofSteps steps).merges.map Merge.notice ∧
    ((ofSteps steps).merges.map fun merge => merge.merged.parts).Nodup ∧
    ((∀ sighting ∈ steps.flatMap Step.sightings,
        sighting.source = .ofPath sighting.source.path) →
      ∀ sighting ∈ steps.flatMap Step.sightings, ∀ first,
        first? (steps.flatMap Step.sightings) sighting.source.name = some first →
        first.path.same sighting.source.path = false →
        ∃ merge ∈ (ofSteps steps).merges, merge.name = sighting.source.name ∧
          merge.kept = first.path ∧ merge.merged.same sighting.source.path = true) ∧
    ∀ signatures : List Signature,
      (∀ signature ∈ signatures, .found signature ∈ steps.flatMap Step.sightings) →
        (ofSteps steps).apply (.register signatures) = ofSteps steps ∧
        ((ofSteps steps).apply (.register signatures)).toJson = (ofSteps steps).toJson ∧
        (ofSteps steps).noticesOfStep (.register signatures) = [] := by
  have hregistry : ofSteps steps = ofSightings (steps.flatMap Step.sightings) := by
    rw [ofSteps_eq_foldl, foldl_see_empty]
  have hnotices := noticesOfSteps_eq empty steps
  refine ⟨hregistry, hnotices.symm, ?_, ?_, ?_⟩
  · rw [hregistry]
    exact nodup_map_firstsBy _
  · intro hpaths sighting hmem first hfirst hdiffers
    rw [hregistry]
    exact exists_merge _ hpaths hmem hfirst hdiffers
  · intro signatures hsignatures
    obtain ⟨hsame, hsilent⟩ := insertAll_of_forall_mem _ signatures hsignatures
    rw [hregistry]
    exact ⟨hsame, congrArg toJson hsame, hsilent⟩

/-- Of two files of one base name the second is merged into the first, however its path is spelled
and however often it is seen. -/
theorem ofSteps_two_paths :
    let source (path : Text) : SourceFile := .ofPath ⟨path⟩
    let kernel : Signature := ⟨source "b//x.cu".toList, ['f'], [], false⟩
    let steps : List Step :=
      [.add (source "a/x.cu".toList), .register [kernel], .add (source "b/x.cu".toList)]
    (∃ merge ∈ (ofSteps steps).merges, merge.name = "x.cu".toList ∧
      merge.kept = ⟨"a/x.cu".toList⟩ ∧ merge.merged.same ⟨"b/x.cu".toList⟩ = true) ∧
    (ofSteps steps).apply (.register [kernel]) = ofSteps steps := by
  intro source kernel steps
  obtain ⟨-, -, -, hmerged, hagain⟩ := ofSteps_eq_ofSightings steps
  constructor
  · exact hmerged (by decide +kernel) (.scanned (source "b/x.cu".toList)) (by decide +kernel)
      (source "a/x.cu".toList) (by decide +kernel) (by decide +kernel)
  · exact (hagain [kernel] (by decide +kernel)).1

end Registry

end KernelCensus
