import KernelCensus.Proofs.Files.Walk

/-!
# What writing changes

A file that is written is the one change of the tree. Making a directory adds directories where
nothing was, at places that a front of the path leads to, and changes nothing else.

* `Tree.node?_put`: the places of a tree.
* `Tree.write_eq_ok`, `Tree.grows_put_file`: writing.
* `Tree.AddsDirectories`, `Tree.addsDirectories_makeDirs`: making directories.
-/

namespace KernelCensus.Tree

/-! ## Places -/

/-- Entries for another place do not count for a place. -/
lemma lookup_filter_ne {location other : Location} (hne : other ≠ location)
    (nodes : List (Location × FileNode)) :
    (nodes.filter fun entry => entry.1 != location).lookup other = nodes.lookup other := by
  induction nodes with
  | nil => rfl
  | cons entry nodes ih =>
    obtain ⟨place, node⟩ := entry
    by_cases hplace : place = location
    · have hother : (other == place) = false := beq_false_of_ne (hplace ▸ hne)
      rw [List.filter_cons_of_neg (by simpa using hplace), ih, List.lookup_cons, hother]
    · rw [List.filter_cons_of_pos (by simpa using hplace), List.lookup_cons, List.lookup_cons, ih]

/-- What is put at a place other than the root directory is there, and nothing else changes. -/
lemma node?_put (tree : Tree) {location : Location} (hroot : location ≠ []) (node : FileNode)
    (other : Location) :
    (tree.put location node).node? other =
      if other = location then some node else tree.node? other := by
  by_cases hother : other = location
  · rw [if_pos hother, node?, put, hother, if_neg hroot, List.lookup_cons, beq_self_eq_true]
  · have hne : (other == location) = false := beq_false_of_ne hother
    rw [if_neg hother, node?, put, node?, List.lookup_cons, hne, lookup_filter_ne hother]

lemma ne_root_of_node? {tree : Tree} {location : Location}
    (h : tree.node? location ≠ some .directory) : location ≠ [] := by
  rintro rfl
  exact h (if_pos rfl)

/-! ## Writing -/

section
variable {tree after : Tree} {path : Path} {contents : Bytes}

/-- A file is written at the place of its path, where no directory is. -/
lemma write_eq_ok (h : tree.write path contents = (.ok (), after)) :
    ∃ location, tree.locate true path = .ok location ∧
      tree.node? location ≠ some .directory ∧ asksForDirectory path = false ∧
      after = tree.put location (.file contents) := by
  unfold write at h
  split at h
  · cases h
  · next location hlocate =>
    split at h
    · cases h
    · next hnode =>
      split at h
      · cases h
      · next hasks =>
        cases h
        exact ⟨location, hlocate, hnode, Bool.eq_false_iff.mpr hasks, rfl⟩

/-- A tree grows when a file is put at a place that has neither a directory nor a link. -/
lemma grows_put_file {location : Location} (hdirectory : tree.node? location ≠ some .directory)
    (hlink : ∀ target, tree.node? location ≠ some (.link target)) (contents : Bytes) :
    Grows tree (tree.put location (.file contents)) := by
  have hput := tree.node?_put (ne_root_of_node? hdirectory) (.file contents)
  refine ⟨rfl, fun {other} hnode => ?_, fun {other target} => ?_, fun {other} hnode => ?_⟩
  · rw [hput, if_neg fun heq : other = location => hdirectory (heq ▸ hnode), hnode]
  · rw [hput]
    split
    · next heq => simpa [heq] using hlink target
    · exact Iff.rfl
  · rw [hput]
    split
    · exact Option.some_ne_none _
    · exact hnode

/-- A file is read at the place of its path. -/
lemma read_of_locate {location : Location} (hlocate : tree.locate true path = .ok location)
    (hnode : tree.node? location = some (.file contents)) (hasks : asksForDirectory path = false) :
    tree.read path = .ok contents := by
  simp [read, find, hlocate, hnode, hasks]

end

/-! ## Making directories -/

/-- Whether a tree comes from another one by adding directories where nothing was, at places that
fronts of some parts lead to. -/
structure AddsDirectories (before after : Tree) (parts : List Path.Part) : Prop where
  current : after.current = before.current
  node? : ∀ location, after.node? location = before.node? location ∨
    before.node? location = none ∧ after.node? location = some .directory ∧
      ∃ front, front <+: parts ∧ after.walk true linkLimit after.current front = .ok location

namespace AddsDirectories

variable {before made after : Tree} {parts front : List Path.Part}

lemma refl (tree : Tree) (parts : List Path.Part) : AddsDirectories tree tree parts :=
  ⟨rfl, fun _ => Or.inl rfl⟩

lemma grows (h : AddsDirectories before after parts) : Grows before after := by
  refine ⟨h.current, fun {location} hnode => ?_, fun {location target} => ?_,
    fun {location} hnode => ?_⟩
  · rcases h.node? location with heq | ⟨-, hdirectory, -⟩
    · rw [heq, hnode]
    · exact hdirectory
  · rcases h.node? location with heq | ⟨hnone, hdirectory, -⟩
    · rw [heq]
    · simp [hnone, hdirectory]
  · rcases h.node? location with heq | ⟨hnone, -, -⟩
    · rwa [heq]
    · exact absurd hnone hnode

/-- Directories are added at fronts of a front, and then at fronts of the whole. -/
lemma trans (h : AddsDirectories before made front) (h' : AddsDirectories made after parts)
    (hfront : front <+: parts) : AddsDirectories before after parts := by
  refine ⟨h'.current.trans h.current, fun location => ?_⟩
  rcases h.node? location with heq | ⟨hnone, hdirectory, way, hway, hwalk⟩
  · rw [← heq]
    exact h'.node? location
  · refine Or.inr ⟨hnone, h'.grows.directory hdirectory, way, hway.trans hfront, ?_⟩
    rw [h'.current]
    exact h'.grows.walk hwalk

end AddsDirectories

lemma addsDirectories_makeDir (tree : Tree) (parts : List Path.Part) :
    AddsDirectories tree (tree.makeDir parts).2 parts := by
  unfold makeDir
  split
  · exact .refl tree parts
  · next location hwalk =>
    split
    · exact .refl tree parts
    · next hnone =>
      have hnode : tree.node? location ≠ some .directory := by
        rw [hnone]
        exact Option.some_ne_none _ ∘ Eq.symm
      have hput := tree.node?_put (ne_root_of_node? hnode) .directory
      have hsame (other : Location) (hne : other ≠ location) :
          (tree.put location .directory).node? other = tree.node? other := by
        rw [hput, if_neg hne]
      have hthere : (tree.put location .directory).node? location = some .directory := by
        rw [hput, if_pos rfl]
      have hgrows : Grows tree (tree.put location .directory) := by
        refine ⟨rfl, fun {other} h => ?_, fun {other target} => ?_, fun {other} h => ?_⟩
        · rw [hsame other fun heq => hnode (heq ▸ h), h]
        · by_cases heq : other = location
          · simp [heq, hthere, hnone]
          · rw [hsame other heq]
        · rwa [hsame other fun heq => h (heq ▸ hnone)]
      refine ⟨rfl, fun other => ?_⟩
      by_cases heq : other = location
      · subst heq
        refine Or.inr ⟨hnone, hthere, parts, List.prefix_refl parts, ?_⟩
        have htrue := walk_true_of_walk hwalk (by simp [hnone])
        exact hgrows.walk htrue
      · exact Or.inl (hsame other heq)

/-- Making a directory and those above it adds directories at fronts of its parts. -/
lemma addsDirectories_makeDirsTo (tree : Tree) (above : List Path.Part) :
    AddsDirectories tree (tree.makeDirsTo above).2 above.reverse := by
  induction above with
  | nil => exact .refl tree []
  | cons part above ih =>
    have hfront : above.reverse <+: (part :: above).reverse := by
      rw [List.reverse_cons]
      exact List.prefix_append _ _
    have hmake := tree.addsDirectories_makeDir (part :: above).reverse
    unfold makeDirsTo
    dsimp only
    split
    · next made heq => rwa [heq] at hmake
    · split
      · next error made habove =>
        rw [habove] at ih
        exact ih.trans (.refl made _) hfront
      · -- the second attempt starts from the tree with the directories above
        next made habove =>
        rw [habove] at ih
        have hagain := ih.trans (made.addsDirectories_makeDir (part :: above).reverse) hfront
        split
        · next heq => rwa [heq] at hagain
        · next heq => rwa [heq] at hagain
    · exact .refl tree _

/-- Making the directory at a path adds directories at fronts of the path. -/
theorem addsDirectories_makeDirs (tree : Tree) (path : Path) :
    AddsDirectories tree (tree.makeDirs path).2 path.parts := by
  unfold makeDirs
  split
  · exact .refl tree path.parts
  · have hadds := tree.addsDirectories_makeDirsTo path.parts.reverse
    rwa [List.reverse_reverse] at hadds

end KernelCensus.Tree
