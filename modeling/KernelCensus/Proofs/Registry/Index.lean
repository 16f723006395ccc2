import KernelCensus.Registry
import Mathlib.Data.List.Nodup
import Mathlib.Tactic.Common

/-!
# The index of a registry

A registry is indexed if its index lists the base name of each entry with the place of the entry,
and neither base names nor, within an entry, kernel names repeat. The look-ups go through the
index. On an indexed registry each of them answers what a search of the entries answers, and that
is how everything else reads them.
-/

namespace KernelCensus

/-- The index that goes with a list of entries. -/
def Registry.indexOf (entries : List SourceEntry) : List (Text × Nat) :=
  entries.zipIdx.map fun place => (place.1.source.name, place.2)

lemma Registry.indexOf_concat (entries : List SourceEntry) (entry : SourceEntry) :
    indexOf (entries ++ [entry]) = indexOf entries ++ [(entry.source.name, entries.length)] := by
  rw [indexOf, List.zipIdx_append, List.map_append, Nat.zero_add]
  rfl

lemma Registry.indexOf_map (entries : List SourceEntry) {f : SourceEntry → SourceEntry}
    (hf : ∀ entry, (f entry).source = entry.source) :
    indexOf (entries.map f) = indexOf entries := by
  rw [indexOf, List.zipIdx_map, List.map_map]
  refine List.map_congr_left fun place _ => ?_
  show ((f place.1).source.name, place.2) = _
  rw [hf]

/-- The index is in step with the entries, and names do not repeat. -/
structure Registry.Indexed (registry : Registry) : Prop where
  index_eq : registry.index = Registry.indexOf registry.entries
  nodup_names : (registry.entries.map (·.source.name)).Nodup
  nodup_kernels : ∀ entry ∈ registry.entries, (entry.kernels.map (·.name)).Nodup
  source_name : ∀ entry ∈ registry.entries, ∀ signature ∈ entry.kernels,
    signature.source.name = entry.source.name

/-! ## Lists with keys -/

section
variable {α : Type} (key : α → Text)

/-- Looking a key up in an index is a search for the first element with the key. -/
private lemma lookup_zipIdx (xs : List α) (start : Nat) (k : Text) :
    ((xs.zipIdx start).map fun place => (key place.1, place.2)).lookup k =
      (xs.findIdx? fun x => key x == k).map (· + start) := by
  induction xs generalizing start with
  | nil => rfl
  | cons x xs ih =>
    rw [List.zipIdx_cons, List.map_cons, List.lookup_cons, List.findIdx?_cons]
    by_cases hx : key x = k
    · have hk : (k == key x) = true := by simp [hx]
      rw [hk, if_pos (by simp [hx])]
      simp
    · have hk : (k == key x) = false := by simp [Ne.symm hx]
      rw [hk, if_neg (by simp [hx]), ih]
      simp only [Option.map_map]
      congr 1
      funext i
      show i + (start + 1) = i + 1 + start
      omega

/-- The element at the place of a key is the first one with the key. -/
private lemma getElem?_findIdx? (xs : List α) (k : Text) :
    ((xs.findIdx? fun x => key x == k).bind fun i => xs[i]?) = xs.find? fun x => key x == k := by
  induction xs with
  | nil => rfl
  | cons x xs ih =>
    rw [List.findIdx?_cons]
    by_cases hx : key x = k
    · have hk : (key x == k) = true := by simp [hx]
      rw [if_pos hk, List.find?_cons_of_pos (p := fun x => key x == k) hk]
      rfl
    · have hk : ¬ (key x == k) = true := by simp [hx]
      rw [if_neg hk, List.find?_cons_of_neg (p := fun x => key x == k) hk, ← ih, Option.bind_map]
      rfl

/-- Changing the element at the place of a key is changing the elements with the key, if the key
does not repeat. -/
lemma modify_findIdx? {xs : List α} (hnodup : (xs.map key).Nodup) {k : Text} {place : Nat}
    (hplace : (xs.findIdx? fun x => key x == k) = some place) (f : α → α) :
    xs.modify place f = xs.map fun x => if key x = k then f x else x := by
  induction xs generalizing place with
  | nil => simp at hplace
  | cons x xs ih =>
    rw [List.map_cons, List.nodup_cons] at hnodup
    rw [List.findIdx?_cons] at hplace
    by_cases hx : key x = k
    · rw [if_pos (by simp [hx]), Option.some.injEq] at hplace
      have hrest : xs.map (fun y => if key y = k then f y else y) = xs := by
        refine (List.map_congr_left fun y hy => if_neg fun hk => ?_).trans (List.map_id' xs)
        exact hnodup.1 (hx.trans hk.symm ▸ List.mem_map_of_mem hy)
      rw [← hplace, List.modify_zero_cons, List.map_cons, if_pos hx, hrest]
    · rw [if_neg (by simp [hx]), Option.map_eq_some_iff] at hplace
      obtain ⟨i, hi, rfl⟩ := hplace
      rw [List.modify_succ_cons, List.map_cons, if_neg hx, ih hnodup.2 hi]

/-- Looking a key up finds the element that has it, if the key does not repeat. -/
lemma find?_of_mem {xs : List α} (hnodup : (xs.map key).Nodup) {x : α} (hx : x ∈ xs) :
    (xs.find? fun y => key y == key x) = some x := by
  induction xs with
  | nil => cases hx
  | cons y xs ih =>
    rw [List.map_cons, List.nodup_cons] at hnodup
    rcases List.mem_cons.mp hx with rfl | hmem
    · exact List.find?_cons_of_pos (by simp)
    · have hne : ¬ (key y == key x) = true := by
        intro h
        rw [beq_iff_eq] at h
        exact hnodup.1 (h ▸ List.mem_map_of_mem hmem)
      rw [List.find?_cons_of_neg (p := fun z => key z == key x) hne]
      exact ih hnodup.2 hmem

end

/-! ## Look-ups -/

lemma Registry.hasSource_of_hasKernel {registry : Registry} {source kernel : Text}
    (h : registry.hasKernel source kernel = true) : registry.hasSource source = true := by
  cases hposition : registry.position? source with
  | some place =>
    rw [hasSource, hposition]
    rfl
  | none =>
    have hkernels : registry.kernelsOf source = [] := by
      rw [kernelsOf, lookup?, hposition]
      rfl
    rw [hasKernel, hkernels] at h
    cases h

namespace Registry.Indexed

variable {registry : Registry}

/-- The index gives the place of the first entry of a base name. -/
theorem position?_eq (h : registry.Indexed) (source : Text) :
    registry.position? source =
      registry.entries.findIdx? fun entry => entry.source.name == source := by
  rw [position?, h.index_eq, indexOf, lookup_zipIdx fun entry : SourceEntry => entry.source.name]
  simp

/-- The entry of a base name is the first one of that name. -/
theorem lookup?_eq (h : registry.Indexed) (source : Text) :
    registry.lookup? source = registry.entries.find? fun entry => entry.source.name == source := by
  rw [lookup?, h.position?_eq, getElem?_findIdx? fun entry : SourceEntry => entry.source.name]

/-- The entries are found by their base names. -/
theorem lookup?_of_mem (h : registry.Indexed) {entry : SourceEntry}
    (hmem : entry ∈ registry.entries) : registry.lookup? entry.source.name = some entry := by
  rw [h.lookup?_eq]
  exact find?_of_mem (fun entry : SourceEntry => entry.source.name) h.nodup_names hmem

/-- What is found by a base name is an entry of that name. -/
theorem mem_of_lookup? (h : registry.Indexed) {source : Text} {entry : SourceEntry}
    (hentry : registry.lookup? source = some entry) :
    entry ∈ registry.entries ∧ entry.source.name = source := by
  rw [h.lookup?_eq] at hentry
  exact ⟨List.mem_of_find?_eq_some hentry, by simpa using List.find?_some hentry⟩

/-- The kernels of an entry are those of its base name. -/
theorem kernelsOf_of_mem (h : registry.Indexed) {entry : SourceEntry}
    (hmem : entry ∈ registry.entries) : registry.kernelsOf entry.source.name = entry.kernels := by
  rw [kernelsOf, h.lookup?_of_mem hmem]

/-- A base name is known if and only if an entry has it. -/
theorem hasSource_iff (h : registry.Indexed) (source : Text) :
    registry.hasSource source = true ↔ ∃ entry ∈ registry.entries, entry.source.name = source := by
  rw [hasSource, h.position?_eq, List.findIdx?_isSome, List.any_eq_true]
  simp

/-- A kernel is the only one of its source if and only if it is registered and no other is. -/
theorem soleKernel?_eq_some_iff (h : registry.Indexed) (source kernel : Text) :
    registry.soleKernel? source = some kernel ↔
      registry.hasKernel source kernel = true ∧
        ∀ other, registry.hasKernel source other = true → other = kernel := by
  have hnodup : ((registry.kernelsOf source).map (·.name)).Nodup := by
    rw [kernelsOf]
    split
    · next entry hentry => exact h.nodup_kernels entry (h.mem_of_lookup? hentry).1
    · exact List.nodup_nil
  have hhas (k : Text) : registry.hasKernel source k = true ↔
      k ∈ (registry.kernelsOf source).map (·.name) := by
    rw [hasKernel, List.any_eq_true, List.mem_map]
    simp only [beq_iff_eq]
  simp only [hhas]
  rw [soleKernel?]
  -- names do not repeat, so two kernels have two names
  match registry.kernelsOf source, hnodup with
  | [], _ => simp
  | [signature], _ => simp [eq_comm]
  | first :: second :: rest, hnodup =>
    simp only [List.map_cons, List.nodup_cons, List.mem_cons, not_or] at hnodup ⊢
    constructor
    · intro hnone
      cases hnone
    · rintro ⟨-, honly⟩
      have hfirst := honly first.name (Or.inl rfl)
      have hsecond := honly second.name (Or.inr (Or.inl rfl))
      exact absurd (hfirst.trans hsecond.symm) hnodup.1.1

end Registry.Indexed

end KernelCensus
