import KernelCensus.Proofs.Firsts
import KernelCensus.Proofs.Registry.Index

/-!
# Histories of registries

A registry grows by steps: a source is added, or signatures are registered, one after another.
However the signatures are batched, all that counts is the flat sequence of sightings, each of a
source alone or of a kernel in it. `Registry.ofSightings` reads a registry off the whole sequence
at once, by first occurrences only, and never looks at a registry in between.
-/

namespace KernelCensus

/-! ## Steps -/

/-- An operation on a registry. -/
inductive Registry.Step
  | add (source : SourceFile)
  | register (signatures : List Signature)
deriving Repr, DecidableEq

namespace Registry

/-- The registry after a step. -/
def apply (registry : Registry) : Step → Registry
  | .add source => registry.addSource source
  | .register signatures => registry.insertAll signatures

/-- The notices of a step. -/
def noticesOfStep (registry : Registry) : Step → List Notice
  | .add source => ((registry.merge? source).map Merge.notice).toList
  | .register signatures => registry.noticesOf signatures

/-- The registry after steps, one after another, from the empty one on. -/
def ofSteps (steps : List Step) : Registry := steps.foldl apply empty

/-- The notices of steps, one after another, from a registry on. -/
def noticesOfSteps : Registry → List Step → List Notice
  | _, [] => []
  | registry, step :: steps =>
    registry.noticesOfStep step ++ noticesOfSteps (registry.apply step) steps

end Registry

/-! ## Sightings -/

/-- What a registry is told at a time. -/
inductive Sighting
  /-- A source, and no kernel in it. -/
  | scanned (source : SourceFile)
  | found (signature : Signature)
deriving Repr, DecidableEq

namespace Sighting

/-- The source that is seen. -/
def source : Sighting → SourceFile
  | scanned source => source
  | found signature => signature.source

/-- The kernel that is seen, if any. -/
def signature? : Sighting → Option Signature
  | scanned _ => none
  | found signature => some signature

end Sighting

/-- The sightings of a step. -/
def Registry.Step.sightings : Registry.Step → List Sighting
  | add source => [.scanned source]
  | register signatures => signatures.map .found

/-- The registry after a sighting. -/
def Registry.see (registry : Registry) : Sighting → Registry
  | .scanned source => registry.addSource source
  | .found signature => registry.insert signature

lemma Registry.apply_eq_foldl (registry : Registry) (step : Registry.Step) :
    registry.apply step = step.sightings.foldl Registry.see registry := by
  cases step with
  | add source => rfl
  | register signatures =>
    rw [apply, insertAll, Step.sightings, List.foldl_map]
    rfl

/-- A history is its sightings, one after another. -/
theorem Registry.ofSteps_eq_foldl (steps : List Registry.Step) :
    Registry.ofSteps steps = (steps.flatMap Step.sightings).foldl Registry.see empty := by
  rw [ofSteps, List.foldl_flatMap]
  congr 1
  funext registry step
  exact registry.apply_eq_foldl step

/-! ## The registry of sightings -/

namespace Sightings

/-- The first source of each base name. -/
def sources (sightings : List Sighting) : List SourceFile :=
  firstsBy SourceFile.name (sightings.map Sighting.source)

/-- The kernels that were found under a base name. -/
def found (sightings : List Sighting) (name : Text) : List Signature :=
  (sightings.filterMap Sighting.signature?).filter fun signature => signature.source.name == name

/-- The first kernel of each name among those found under a base name. -/
def kernels (sightings : List Sighting) (name : Text) : List Signature :=
  firstsBy Signature.name (found sightings name)

/-- The first source of a base name. -/
def first? (sightings : List Sighting) (name : Text) : Option SourceFile :=
  (sightings.map Sighting.source).find? fun source => source.name == name

/-- The merge of a source into the first source of its base name, if that has another path. -/
def merge? (sightings : List Sighting) (source : SourceFile) : Option Merge :=
  (first? sightings source.name).bind fun first =>
    if first.path.same source.path then none else some ⟨source.name, first.path, source.path⟩

/-- The merges of all sightings, each path as often as it is seen. -/
def allMerges (sightings : List Sighting) : List Merge :=
  sightings.filterMap fun sighting => merge? sightings sighting.source

/-- The first merge of each path. -/
def merges (sightings : List Sighting) : List Merge :=
  firstsBy (fun merge => merge.merged.parts) (allMerges sightings)

end Sightings

/-- The registry that a sequence of sightings comes to, by first occurrences. -/
def Registry.ofSightings (sightings : List Sighting) : Registry :=
  let entries := (Sightings.sources sightings).map fun source =>
    ⟨source, Sightings.kernels sightings source.name⟩
  ⟨entries, Sightings.merges sightings, Registry.indexOf entries⟩

end KernelCensus
