import KernelCensus.Census.Run
import KernelCensus.Proofs.Extraction.Signatures
import KernelCensus.Proofs.Registry.FirstWins

/-!
# Scanned sources

Scanning sources is a history of the registry: each source that can be read is added, and then the
signatures in it are registered. So what the registry of a run knows is what the readable sources
declare.

* `scanSources_eq_ofSteps`: the registry of a run is that of its steps.
* `hasSource_scanSources`, `hasKernel_scanSources`: what it knows, by the texts of the sources.
-/

namespace KernelCensus

namespace Census

variable (read : ReadFile) (markers : Markers) (paths : List Path)

/-- What scanning a source does to the registry. -/
def stepsOfSource (path : Path) : List Registry.Step :=
  match readText read path with
  | .ok text =>
    [.add (.ofPath path), .register (Extraction.signatures markers (.ofPath path) text)]
  | .error _ => []

/-- Whether a source of a base name is among the paths and can be read. -/
def IsScanned (source : Text) : Prop :=
  ∃ path ∈ paths, ∃ text, readText read path = .ok text ∧ (SourceFile.ofPath path).name = source

/-- Whether a source of a base name is among the paths, can be read, and declares a kernel. -/
def Declares (source kernel : Text) : Prop :=
  ∃ path ∈ paths, ∃ text, readText read path = .ok text ∧
    (SourceFile.ofPath path).name = source ∧
    ∃ signature ∈ Extraction.signatures markers (.ofPath path) text, signature.name = kernel

/-- The registry of a run is that of its steps. -/
theorem scanSources_eq_ofSteps :
    scanSources read markers paths = .ofSteps (paths.flatMap (stepsOfSource read markers)) := by
  have hstep (registry : Registry) (path : Path) :
      scanSource read markers registry path =
        (stepsOfSource read markers path).foldl Registry.apply registry := by
    unfold scanSource stepsOfSource
    cases readText read path with
    | ok text => rfl
    | error error => rfl
  rw [scanSources, Registry.ofSteps, List.foldl_flatMap]
  congr 1
  funext registry path
  exact hstep registry path

/-- The sightings of a run are those of the sources that can be read. -/
lemma mem_sightings_iff (sighting : Sighting) :
    sighting ∈ (paths.flatMap (stepsOfSource read markers)).flatMap Registry.Step.sightings ↔
      ∃ path ∈ paths, ∃ text, readText read path = .ok text ∧
        (sighting = .scanned (.ofPath path) ∨
          ∃ signature ∈ Extraction.signatures markers (.ofPath path) text,
            sighting = .found signature) := by
  rw [List.flatMap_assoc, List.mem_flatMap]
  refine exists_congr fun path => and_congr_right fun _ => ?_
  unfold stepsOfSource
  cases readText read path with
  | error error => simp
  | ok text => simp [Registry.Step.sightings, eq_comm]

/-- The registry of a run knows a base name if and only if a source of that name was scanned. -/
theorem hasSource_scanSources (source : Text) :
    (scanSources read markers paths).hasSource source = true ↔ IsScanned read paths source := by
  rw [scanSources_eq_ofSteps, Registry.hasSource_ofSteps]
  constructor
  · rintro ⟨sighting, hmem, hname⟩
    obtain ⟨path, hpath, text, htext, hcase⟩ := (mem_sightings_iff read markers paths _).mp hmem
    refine ⟨path, hpath, text, htext, ?_⟩
    rcases hcase with rfl | ⟨signature, hsignature, rfl⟩
    · exact hname
    -- a signature registers its own source, which is the one it was found in
    · rw [← Extraction.source_of_mem_signatures markers _ hsignature]
      exact hname
  · rintro ⟨path, hpath, text, htext, hname⟩
    refine ⟨.scanned (.ofPath path), ?_, hname⟩
    exact (mem_sightings_iff read markers paths _).mpr ⟨path, hpath, text, htext, Or.inl rfl⟩

/-- The registry of a run has a kernel for a base name if and only if a source of that name
declares it. -/
theorem hasKernel_scanSources (source kernel : Text) :
    (scanSources read markers paths).hasKernel source kernel = true ↔
      Declares read markers paths source kernel := by
  rw [scanSources_eq_ofSteps, Registry.hasKernel_ofSteps]
  constructor
  · rintro ⟨signature, hmem, hsource, hname⟩
    obtain ⟨path, hpath, text, htext, hcase⟩ := (mem_sightings_iff read markers paths _).mp hmem
    rcases hcase with hscanned | ⟨other, hsignature, hfound⟩
    · cases hscanned
    · cases hfound
      refine ⟨path, hpath, text, htext, ?_, signature, hsignature, hname⟩
      rw [← Extraction.source_of_mem_signatures markers _ hsignature]
      exact hsource
  · rintro ⟨path, hpath, text, htext, hsource, signature, hsignature, hname⟩
    refine ⟨signature, ?_, ?_, hname⟩
    · exact (mem_sightings_iff read markers paths _).mpr
        ⟨path, hpath, text, htext, Or.inr ⟨signature, hsignature, rfl⟩⟩
    · rw [Extraction.source_of_mem_signatures markers _ hsignature]
      exact hsource

/-- A kernel of the registry of a run is declared in one of its sources. -/
theorem exists_source_of_mem_signatures {signature : Signature}
    (h : signature ∈ (scanSources read markers paths).signatures) :
    ∃ path ∈ paths, ∃ text, readText read path = .ok text ∧
      signature ∈ Extraction.signatures markers (.ofPath path) text := by
  rw [scanSources_eq_ofSteps] at h
  have hfound := Registry.found_of_mem_signatures h
  obtain ⟨path, hpath, text, htext, hcase⟩ := (mem_sightings_iff read markers paths _).mp hfound
  rcases hcase with hscanned | ⟨other, hsignature, hother⟩
  · cases hscanned
  · cases hother
    exact ⟨path, hpath, text, htext, hsignature⟩

/-- The registry of a run is indexed. -/
theorem indexed_scanSources : (scanSources read markers paths).Indexed := by
  rw [scanSources_eq_ofSteps]
  exact Registry.indexed_ofSteps _

end Census

end KernelCensus
