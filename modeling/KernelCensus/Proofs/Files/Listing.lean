import KernelCensus.Proofs.Files.Walk

/-!
# Listings

A tree lists the files of a directory in the order of its nodes. If its nodes are put in another
order, paths lead to the same places and directories have the same files, listed in another order.

* `Tree.Relisted`: the same tree with its nodes in another order.
* `Tree.Relisted.find`, `Tree.Relisted.isDirectory_eq`, `Tree.Relisted.filesIn`: what is there.
-/

namespace KernelCensus.Tree

/-- Looking a place up finds what is listed with it, if no place is listed twice. -/
lemma lookup_eq_some_iff_mem {nodes : List (Location × FileNode)}
    (h : (nodes.map Prod.fst).Nodup) (location : Location) (node : FileNode) :
    nodes.lookup location = some node ↔ (location, node) ∈ nodes := by
  induction nodes with
  | nil => simp
  | cons entry nodes ih =>
    obtain ⟨place, other⟩ := entry
    rw [List.map_cons, List.nodup_cons] at h
    rw [List.lookup_cons, List.mem_cons, Prod.mk.injEq]
    by_cases hplace : location = place
    · rw [hplace, beq_self_eq_true]
      have hnew : (place, node) ∉ nodes := fun hmem => h.1 (List.mem_map.mpr ⟨_, hmem, rfl⟩)
      simp [hnew, eq_comm]
    · rw [beq_false_of_ne hplace]
      simp [hplace, ih h.2]

/-- Whether a tree has the nodes of another one in any order, no place being listed twice. -/
structure Relisted (tree other : Tree) : Prop where
  nodes : other.nodes.Perm tree.nodes
  current : other.current = tree.current
  nodup : (tree.nodes.map Prod.fst).Nodup

namespace Relisted

variable {tree other : Tree}

lemma symm (h : Relisted tree other) : Relisted other tree :=
  ⟨h.nodes.symm, h.current.symm, (h.nodes.map Prod.fst).nodup_iff.mpr h.nodup⟩

lemma node?_eq (h : Relisted tree other) (location : Location) :
    other.node? location = tree.node? location := by
  unfold node?
  split
  · rfl
  · refine Option.ext fun node => ?_
    rw [lookup_eq_some_iff_mem h.symm.nodup, lookup_eq_some_iff_mem h.nodup, h.nodes.mem_iff]

lemma grows (h : Relisted tree other) : Grows tree other where
  current := h.current
  directory hnode := (h.node?_eq _).trans hnode
  link {location target} := by rw [h.node?_eq]
  occupied hnode := by rwa [h.node?_eq]

/-- What a path leads to is found in either tree. -/
theorem find (h : Relisted tree other) {path : Path} {found : Location × FileNode}
    (hfind : tree.find path = .ok found) : other.find path = .ok found := by
  unfold Tree.find at hfind ⊢
  split at hfind
  · cases hfind
  · next location hlocate =>
    rw [h.grows.locate hlocate]
    dsimp only
    rw [h.node?_eq]
    exact hfind

lemma isDirectory_of (h : Relisted tree other) {path : Path} (hdir : tree.isDirectory path = true) :
    other.isDirectory path = true := by
  unfold isDirectory at hdir ⊢
  split at hdir
  · next location hfind => rw [h.find hfind]
  · cases hdir

lemma isDirectory_eq (h : Relisted tree other) (path : Path) :
    other.isDirectory path = tree.isDirectory path :=
  Bool.eq_iff_iff.mpr ⟨h.symm.isDirectory_of, h.isDirectory_of⟩

/-- A directory has the same files in either tree, in another order. -/
theorem filesIn (h : Relisted tree other) {path : Path} {names : List Text}
    (hfiles : tree.filesIn path = .ok names) :
    ∃ listed, other.filesIn path = .ok listed ∧ listed.Perm names := by
  unfold Tree.filesIn at hfiles ⊢
  split at hfiles
  · cases hfiles
  · next location hfind =>
    cases hfiles
    rw [h.find hfind]
    exact ⟨_, rfl, h.nodes.filterMap _⟩
  · cases hfiles

end Relisted

end KernelCensus.Tree
