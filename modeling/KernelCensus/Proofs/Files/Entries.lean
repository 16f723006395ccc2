import KernelCensus.Project.Plan
import KernelCensus.Proofs.Files.Change
import KernelCensus.Proofs.Files.Join

/-!
# Files written in a directory

The changes of a plan are made one after another, up to the first that fails. Files that are written
under plain names in a directory have their contents afterwards and are all that changes, as long as
none of the names is that of a symbolic link.

* `Change.performAll_eq_error`, `Change.performAll_cons_eq_ok`: changes one by one.
* `Tree.WritesEntries`, `Tree.writesEntries_of_performAll`: files in a directory.
-/

namespace KernelCensus

/-! ## Changes -/

/-- A state is handed on from the first step to the second. -/
lemma StateM.bind_apply {σ α β : Type} (work : StateM σ α) (next : α → StateM σ β) (state : σ) :
    (work >>= next) state = next (work state).1 (work state).2 :=
  rfl

namespace Change

variable {tree after : Tree} {change : Change} {changes : List Change}

/-- The changes after the first are made in the tree that the first leaves, unless it fails. -/
lemma performAll_cons (tree : Tree) (change : Change) (changes : List Change) :
    performAll Tree.perform (change :: changes) tree =
      match Tree.perform change tree with
      | (.ok (), next) => performAll Tree.perform changes next
      | (.error error, next) => (.error (.change change.purpose change.path error), next) := by
  rw [performAll, StateM.bind_apply]
  rcases Tree.perform change tree with ⟨error | ⟨⟩, next⟩
  · rfl
  · rfl

/-- The first of some changes is made before the others. -/
lemma performAll_cons_eq_ok
    (h : performAll Tree.perform (change :: changes) tree = (.ok (), after)) :
    ∃ next, Tree.perform change tree = (.ok (), next) ∧
      performAll Tree.perform changes next = (.ok (), after) := by
  rw [performAll_cons] at h
  split at h
  · next next heq => exact ⟨next, heq, h⟩
  · cases h

/-- A failure of changes is one to make a change. -/
lemma performAll_eq_error {problem : Problem} :
    ∀ {tree : Tree}, performAll Tree.perform changes tree = (.error problem, after) →
      ∃ purpose path error, problem = .change purpose path error := by
  induction changes with
  | nil =>
    intro tree h
    cases h
  | cons change changes ih =>
    intro tree h
    rw [performAll_cons] at h
    split at h
    · exact ih h
    · cases h
      exact ⟨_, _, _, rfl⟩

end Change

/-! ## Entries -/

namespace Tree

/-- Whether a name stands for an entry of a directory: it is not empty, has no slash and is neither
`.` nor `..`. -/
def IsPlain (name : Text) : Prop := '/' ∉ name ∧ Path.Part.ofPiece? name = some (.entry name)

/-- Whether the one change of a tree is that files with the given names and contents were written in
a directory. -/
structure WritesEntries (before after : Tree) (dir : Path) (home : Location)
    (entries : List (Text × Bytes)) : Prop where
  grows : Grows before after
  contents : ∀ entry ∈ entries, after.read (dir.join ⟨entry.1⟩) = .ok entry.2
  node? : ∀ location, (∀ entry ∈ entries, location ≠ home ++ [entry.1]) →
    after.node? location = before.node? location

variable {tree after : Tree} {dir : Path} {home : Location} {name : Text} {contents : Bytes}

/-- The place of an entry is in the directory of its path. -/
lemma home_of_locate {location : Location} (hplain : IsPlain name)
    (hlocate : tree.locate true (dir.join ⟨name⟩) = .ok location) :
    ∃ home, tree.walk true linkLimit tree.current dir.parts = .ok home ∧
      tree.node? home = some .directory ∧
      ((∀ target, tree.node? (home ++ [name]) ≠ some (.link target)) →
        location = home ++ [name]) := by
  unfold locate at hlocate
  split at hlocate
  · cases hlocate
  · split at hlocate
    · cases hlocate
    · rw [Path.parts_join_entry dir hplain.1 hplain.2] at hlocate
      exact exists_home hlocate

/-- An entry that is no symbolic link is written in the directory. -/
lemma write_entry_eq_ok (hplain : IsPlain name)
    (hhome : tree.walk true linkLimit tree.current dir.parts = .ok home)
    (hlink : ∀ target, tree.node? (home ++ [name]) ≠ some (.link target))
    (h : tree.write (dir.join ⟨name⟩) contents = (.ok (), after)) :
    tree.locate true (dir.join ⟨name⟩) = .ok (home ++ [name]) ∧
      asksForDirectory (dir.join ⟨name⟩) = false ∧ Grows tree after ∧
      ∀ location, after.node? location =
        if location = home ++ [name] then some (.file contents) else tree.node? location := by
  obtain ⟨location, hlocate, hnode, hasks, rfl⟩ := write_eq_ok h
  obtain ⟨home', hhome', -, hplace⟩ := home_of_locate hplain hlocate
  obtain rfl : home' = home := Except.ok.inj (hhome'.symm.trans hhome)
  obtain rfl := hplace hlink
  exact ⟨hlocate, hasks, grows_put_file hnode hlink contents,
    tree.node?_put (ne_root_of_node? hnode) (.file contents)⟩

/-- Files written under plain names that are no symbolic links are all that changes. -/
theorem writesEntries_of_performAll {purpose : Purpose} {entries : List (Text × Bytes)}
    (hplain : ∀ entry ∈ entries, IsPlain entry.1) (hnodup : (entries.map Prod.fst).Nodup)
    (hhome : tree.walk true linkLimit tree.current dir.parts = .ok home)
    (hlink : ∀ entry ∈ entries, ∀ target, tree.node? (home ++ [entry.1]) ≠ some (.link target))
    (h : Change.performAll Tree.perform
      (entries.map fun entry => .file purpose (dir.join ⟨entry.1⟩) entry.2) tree =
        (.ok (), after)) : WritesEntries tree after dir home entries := by
  induction entries generalizing tree with
  | nil =>
    cases h
    exact ⟨.refl _, List.forall_mem_nil _, fun _ _ => rfl⟩
  | cons entry entries ih =>
    obtain ⟨hplain, hplains⟩ := List.forall_mem_cons.mp hplain
    obtain ⟨hlink, hlinks⟩ := List.forall_mem_cons.mp hlink
    obtain ⟨hfresh, hnodup⟩ := List.nodup_cons.mp hnodup
    obtain ⟨next, hwrite, hothers⟩ := Change.performAll_cons_eq_ok h
    obtain ⟨hlocate, hasks, hgrows, hnode⟩ := write_entry_eq_ok hplain hhome hlink hwrite
    have hrest : WritesEntries next after dir home entries := by
      refine ih hplains hnodup ?_ (fun other hmem target hother => ?_) hothers
      · rw [hgrows.current]
        exact hgrows.walk hhome
      · exact hlinks other hmem target (hgrows.link.mp hother)
    -- the later entries have other names
    have hkept : after.node? (home ++ [entry.1]) = some (.file entry.2) := by
      rw [hrest.node? _ fun other hmem heq => ?_, hnode, if_pos rfl]
      have hname : entry.1 = other.1 := List.singleton_inj.mp (List.append_cancel_left heq)
      exact hfresh (hname ▸ List.mem_map_of_mem hmem)
    refine ⟨hgrows.trans hrest.grows, List.forall_mem_cons.mpr ⟨?_, hrest.contents⟩, ?_⟩
    · exact read_of_locate ((hgrows.trans hrest.grows).locate hlocate) hkept hasks
    · intro location hother
      obtain ⟨hne, hothers⟩ := List.forall_mem_cons.mp hother
      rw [hrest.node? location hothers, hnode, if_neg hne]

end Tree

end KernelCensus
