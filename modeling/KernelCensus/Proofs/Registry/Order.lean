import KernelCensus.Proofs.Registry.Index
import KernelCensus.Repair
import KernelCensus.Report.Basic
import Mathlib.Data.List.Perm.Basic

/-!
# Registries that differ in order

The repair and the report ask a registry by base name and never by place. So two registries that
answer alike are as good as one: they repair measurements alike, and their reports differ in the
order of the sections only. Registries with the same entries in another order answer alike.

* `Registry.Indexed.alike_of_perm`: the order of the entries does not show in the answers.
* `Registry.Alike.repair_eq`, `Registry.Alike.sections_perm`, `Registry.Alike.totals_eq`: what two
  registries that answer alike make of measurements.
* `Registry.scan_of_new`: a source of a new base name adds its own entry at the end.
-/

namespace KernelCensus

/-! ## Registries that answer alike -/

/-- Two registries that know the same base names, with the same kernels. -/
structure Registry.Alike (first second : Registry) : Prop where
  hasSource_eq : ∀ source, first.hasSource source = second.hasSource source
  kernelsOf_eq : ∀ source, first.kernelsOf source = second.kernelsOf source

/-- The entry of a base name is the one that has it. -/
lemma Registry.Indexed.lookup?_eq_some_iff {registry : Registry} (h : registry.Indexed)
    {source : Text} {entry : SourceEntry} :
    registry.lookup? source = some entry ↔
      entry ∈ registry.entries ∧ entry.source.name = source := by
  constructor
  · intro hentry
    exact h.mem_of_lookup? hentry
  · rintro ⟨hmem, rfl⟩
    exact h.lookup?_of_mem hmem

/-- Registries with the same entries answer alike, whatever the order of the entries. -/
theorem Registry.Indexed.alike_of_perm {first second : Registry} (hfirst : first.Indexed)
    (hsecond : second.Indexed) (hperm : first.entries.Perm second.entries) :
    first.Alike second where
  hasSource_eq := by
    intro source
    rw [Bool.eq_iff_iff, hfirst.hasSource_iff, hsecond.hasSource_iff]
    simp only [hperm.mem_iff]
  kernelsOf_eq := by
    intro source
    have hlookup : first.lookup? source = second.lookup? source := by
      apply Option.ext
      intro entry
      rw [hfirst.lookup?_eq_some_iff, hsecond.lookup?_eq_some_iff, hperm.mem_iff]
    unfold kernelsOf
    rw [hlookup]

namespace Registry.Alike

variable {first second : Registry} (h : first.Alike second)

include h

/-- They have the same kernels by name. -/
lemma hasKernel_eq (source kernel : Text) :
    first.hasKernel source kernel = second.hasKernel source kernel := by
  unfold hasKernel
  rw [h.kernelsOf_eq]

/-- They attribute measurements alike. -/
lemma attribution_eq (source : Text) :
    first.attribute source = second.attribute source := by
  unfold Registry.attribute soleKernel? countOf
  rw [h.kernelsOf_eq]

/-- They repair measurements alike. -/
theorem repair_eq (measurements : List Measurement) :
    repair first measurements = repair second measurements := by
  unfold repair
  apply List.map_congr_left
  intro m _
  unfold Measurement.repair
  rw [h.attribution_eq]

/-- They report alike on a source. -/
lemma section_eq (measurements : List Measurement) (entry : SourceEntry) :
    SourceSection.build first measurements entry = SourceSection.build second measurements entry := by
  have hunmatched : Measurement.isUnmatched first entry.source.name =
      Measurement.isUnmatched second entry.source.name := by
    funext m
    unfold Measurement.isUnmatched
    cases m.kernel.kernel? with
    | none => rfl
    | some kernel => dsimp only; rw [h.hasKernel_eq]
  unfold SourceSection.build
  rw [hunmatched]

/-- They orphan the same measurements. -/
lemma orphaned_eq (measurements : List Measurement) :
    (Report.build first measurements).orphaned = (Report.build second measurements).orphaned := by
  show measurements.filter _ = measurements.filter _
  simp only [h.hasSource_eq]

/-- With the same entries their reports have the same sections, in the order of the entries. -/
theorem sections_perm (hperm : first.entries.Perm second.entries)
    (measurements : List Measurement) :
    (Report.build first measurements).sections.Perm
      (Report.build second measurements).sections := by
  show (first.entries.map _).Perm (second.entries.map _)
  rw [funext (h.section_eq measurements)]
  exact hperm.map _

/-- With the same entries and as many merges their reports have the same totals. -/
theorem totals_eq (hperm : first.entries.Perm second.entries)
    (hmerges : first.merges.length = second.merges.length) (measurements : List Measurement) :
    (Report.build first measurements).totals = (Report.build second measurements).totals := by
  have hsections := h.sections_perm hperm measurements
  have hkernels : first.kernelCount = second.kernelCount := (hperm.flatMap_right _).length_eq
  have hunattributed := (hsections.flatMap_right (·.unattributed)).length_eq
  have hunmatched := (hsections.flatMap_right (·.unmatched)).length_eq
  have horphaned := congrArg List.length (h.orphaned_eq measurements)
  show Totals.mk _ _ _ _ _ _ _ = Totals.mk _ _ _ _ _ _ _
  rw [Totals.mk.injEq]
  exact ⟨hperm.length_eq, hkernels, rfl, hunattributed, hunmatched, horphaned, hmerges⟩

end Registry.Alike

/-! ## A source of a new base name -/

/-- Changing the element at the end of a list. -/
private lemma modify_concat {α : Type} (before : List α) (last : α) (f : α → α) :
    (before ++ [last]).modify before.length f = before ++ [f last] :=
  List.modifyTailIdx_add (List.modifyHead f) 0 before [last]

namespace Registry

variable {registry : Registry} {before : List SourceEntry}

/-- A signature of the last source changes the last entry, and nothing else. -/
lemma insert_last {entry : SourceEntry} {signature : Signature}
    (hentries : registry.entries = before ++ [entry])
    (hposition : registry.position? entry.source.name = some before.length)
    (hsource : signature.source = entry.source) :
    registry.insert signature =
      { registry with entries := before ++ [entry.insert signature] } := by
  have hlookup : registry.lookup? entry.source.name = some entry := by
    unfold lookup?
    rw [hposition, hentries]
    exact List.getElem?_concat_length
  -- the source is the one that its base name stands for, so nothing is merged
  have hmerge : registry.merge? entry.source = none := by
    unfold merge?
    rw [hlookup]
    exact if_pos (by simp [Path.same])
  have hadd : registry.addSource entry.source = registry := by
    unfold addSource hasSource
    rw [hposition, hmerge, Option.toList_none, List.append_nil]
    rfl
  unfold insert
  rw [hsource, hadd]
  dsimp only
  rw [hposition, hentries]
  dsimp only
  rw [modify_concat]

/-- Signatures of the last source change the last entry, one after another, and nothing else. -/
lemma insertAll_last {entry : SourceEntry} {signatures : List Signature}
    (hentries : registry.entries = before ++ [entry])
    (hposition : registry.position? entry.source.name = some before.length)
    (hsource : ∀ signature ∈ signatures, signature.source = entry.source) :
    registry.insertAll signatures =
      { registry with entries := before ++ [signatures.foldl SourceEntry.insert entry] } := by
  induction signatures generalizing registry entry with
  | nil =>
    show registry = _
    rw [List.foldl_nil, ← hentries]
  | cons signature signatures ih =>
    have hinsert := insert_last hentries hposition (hsource signature List.mem_cons_self)
    have hsame : (entry.insert signature).source = entry.source := by
      unfold SourceEntry.insert
      split <;> rfl
    have hrest : ∀ other ∈ signatures, other.source = (entry.insert signature).source := by
      intro other hother
      rw [hsame]
      exact hsource other (List.mem_cons_of_mem signature hother)
    show (registry.insert signature).insertAll signatures = _
    rw [hinsert]
    refine (ih rfl ?_ hrest).trans rfl
    rw [hsame]
    exact hposition

/-- The entry of a source with signatures, the first of each name. -/
def entryOf (source : SourceFile) (signatures : List Signature) : SourceEntry :=
  signatures.foldl SourceEntry.insert ⟨source, []⟩

/-- A source of a new base name adds the entry of its signatures at the end. Nothing is merged. -/
theorem scan_of_new {source : SourceFile} {signatures : List Signature}
    (hnew : registry.hasSource source.name = false)
    (hsource : ∀ signature ∈ signatures, signature.source = source) :
    (registry.addSource source).insertAll signatures =
      { registry with
        entries := registry.entries ++ [entryOf source signatures]
        index := registry.index ++ [(source.name, registry.entries.length)] } := by
  have hadd : registry.addSource source =
      { registry with
        entries := registry.entries ++ [⟨source, []⟩]
        index := registry.index ++ [(source.name, registry.entries.length)] } := by
    unfold addSource
    rw [hnew, if_neg Bool.false_ne_true]
  have hposition : (registry.addSource source).position? source.name =
      some registry.entries.length := by
    unfold hasSource position? at hnew
    rw [Option.isSome_eq_false_iff, Option.isNone_iff_eq_none] at hnew
    rw [hadd]
    unfold position?
    rw [List.lookup_append, hnew, Option.none_or, List.lookup_cons_self]
  have hentries : (registry.addSource source).entries = registry.entries ++ [⟨source, []⟩] := by
    rw [hadd]
  rw [insertAll_last hentries hposition hsource, hadd]
  rfl

end Registry

end KernelCensus
