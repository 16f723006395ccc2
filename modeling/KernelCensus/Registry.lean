import KernelCensus.Notice
import KernelCensus.Source

/-!
# The registry of kernels

The registry lists the scanned sources and their kernels in the order in which they were first
seen. Sources are known by base name and kernels by name within their source. What came first
stays: a later source of the same base name is merged into the first, and a later kernel of the
same name is left out. An index beside the list gives the place of each base name in it.
-/

namespace KernelCensus

/-- A source and its kernels. -/
structure SourceEntry where
  source : SourceFile
  kernels : List Signature
deriving Repr, DecidableEq

namespace SourceEntry

def hasKernel (entry : SourceEntry) (kernel : Text) : Bool :=
  entry.kernels.any fun signature => signature.name == kernel

/-- The entry with a kernel added, unless it has one of that name. -/
def insert (entry : SourceEntry) (signature : Signature) : SourceEntry :=
  if entry.hasKernel signature.name then entry
  else { entry with kernels := entry.kernels ++ [signature] }

end SourceEntry

/-- A path that was merged into a source of the same base name. -/
structure Merge where
  name : Text
  kept : Path
  merged : Path
deriving Repr, DecidableEq

def Merge.notice (merge : Merge) : Notice := .mergedSource merge.name merge.kept merge.merged

/-- The scanned sources, their kernels, and the merges among them. -/
structure Registry where
  /-- The sources, in the order in which their base names were first seen. -/
  entries : List SourceEntry
  merges : List Merge
  /-- The place of each base name in the list of sources. -/
  index : List (Text × Nat)
deriving Repr, DecidableEq

namespace Registry

def empty : Registry := ⟨[], [], []⟩

/-! ## Look-ups -/

/-- The place of a base name in the list of sources, by the index. -/
def position? (registry : Registry) (source : Text) : Option Nat := registry.index.lookup source

def lookup? (registry : Registry) (source : Text) : Option SourceEntry :=
  (registry.position? source).bind fun place => registry.entries[place]?

def hasSource (registry : Registry) (source : Text) : Bool := (registry.position? source).isSome

/-- The kernels of a source. A source that was not scanned has none. -/
def kernelsOf (registry : Registry) (source : Text) : List Signature :=
  match registry.lookup? source with
  | some entry => entry.kernels
  | none => []

def countOf (registry : Registry) (source : Text) : Nat := (registry.kernelsOf source).length

def hasKernel (registry : Registry) (source kernel : Text) : Bool :=
  (registry.kernelsOf source).any fun signature => signature.name == kernel

/-- The name of the kernel of a source that has exactly one. -/
def soleKernel? (registry : Registry) (source : Text) : Option Text :=
  match registry.kernelsOf source with
  | [signature] => some signature.name
  | _ => none

/-- All kernels, source by source. -/
def signatures (registry : Registry) : List Signature := registry.entries.flatMap (·.kernels)

def kernelCount (registry : Registry) : Nat := registry.signatures.length

/-! ## Growth -/

/-- The merge that adding a source causes: its base name stands for another path, and its own path
has not been merged yet. -/
def merge? (registry : Registry) (source : SourceFile) : Option Merge :=
  match registry.lookup? source.name with
  | none => none
  | some entry =>
    if entry.source.path.same source.path
        || registry.merges.any fun merge => merge.merged.same source.path then none
    else some ⟨source.name, entry.source.path, source.path⟩

/-- The registry after a source was scanned. -/
def addSource (registry : Registry) (source : SourceFile) : Registry :=
  if registry.hasSource source.name then
    { registry with merges := registry.merges ++ (registry.merge? source).toList }
  else
    { registry with
      entries := registry.entries ++ [⟨source, []⟩]
      index := registry.index ++ [(source.name, registry.entries.length)] }

/-- The registry after a kernel was found: its source is added, and then the entry at the place of
the source is changed. -/
def insert (registry : Registry) (signature : Signature) : Registry :=
  let registry := registry.addSource signature.source
  match registry.position? signature.source.name with
  | some place =>
    { registry with
      entries := registry.entries.modify place fun entry => entry.insert signature }
  | none => registry

/-- The registry after kernels were found, one after another. -/
def insertAll (registry : Registry) (signatures : List Signature) : Registry :=
  signatures.foldl insert registry

/-- The notices about the merges that kernels cause, one after another. -/
def noticesOf (registry : Registry) : List Signature → List Notice
  | [] => []
  | signature :: rest =>
    ((registry.merge? signature.source).map Merge.notice).toList ++
      noticesOf (registry.insert signature) rest

end Registry

end KernelCensus
