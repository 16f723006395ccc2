import KernelCensus.Project.Sources
import KernelCensus.Proofs.Files.Entries
import KernelCensus.Proofs.Files.Listing
import KernelCensus.Proofs.Firsts
import KernelCensus.Proofs.Path.Order
import KernelCensus.Proofs.Project.Work
import Mathlib

/-!
# The paths of sources

An entry of the list of sources contributes its own path, or the paths of files in the directory
that it is. The sources are these paths, entry by entry and sorted within an entry, each kept where
it comes first. So nothing but the contents of the directories decides what the sources are and in
which order they stand.

* `Project.contributions`: what an entry contributes, in the order in which a disk lists it.
* `Project.run_sources_eq_ok_iff`: the sources as the firsts of all contributions.
* `Project.Lists`: disks that list their directories in another order.
* `Project.sources_collected`: which paths are sources, and in which order.
-/

namespace KernelCensus.Project

/-- Paths without those that are the same as an earlier one are the firsts of their parts. -/
lemma distinct_eq (paths : List Path) : distinct paths = firstsBy Path.parts paths := by
  induction paths with
  | nil => rfl
  | cons path paths ih =>
    have hsingle : firstsBy Path.parts [path] = [path] := rfl
    rw [distinct, ih, ← List.singleton_append (l := paths), firstsBy_append, hsingle]
    refine congrArg (path :: ·) (List.filter_congr fun later _ => ?_)
    rw [Path.same, List.map_singleton, List.contains_cons, List.contains_nil, Bool.or_false,
      Bool.beq_comm]

/-! ## Entries -/

section
variable (disk : Disk Id) (layout : Layout) (extensions : List Text)

/-- What is at a path, unless it is a directory that cannot be listed. -/
def found (path : Path) : Except Problem Entry :=
  if (disk.isDirectory path).run then
    match (disk.filesIn path).run with
    | .ok names => .ok (.directory path names)
    | .error error => .error (.unlistableDirectory path error)
  else .ok (.single path)

lemma answer_entryAt (path : Path) (notices : List Notice) :
    Work.answer (entryAt disk path) notices = (found disk path, notices) := by
  unfold entryAt found
  rw [Work.answer_bind]
  show Work.answer (if (disk.isDirectory path).run = true then _ else _) notices = _
  split
  · rw [Work.answer_bind]
    show Work.answer (Work.check _ (disk.filesIn path).run >>= _) notices = _
    cases (disk.filesIn path).run with
    | error error => rfl
    | ok names => rfl
  · rfl

/-- The sources are found by looking at the entries one after another, and nothing is noted. -/
lemma answer_sources (entries : List Text) (notices : List Notice) :
    Work.answer (sources disk layout entries extensions) notices =
      ((entries.mapM fun entry => found disk (entryPath layout entry)).map (sourcesOf extensions),
        notices) := by
  have hentries := Work.answer_mapM
    (fun entry notices => answer_entryAt disk (entryPath layout entry) notices) entries notices
  rw [sources, Work.answer_bind, hentries]
  cases entries.mapM fun entry => found disk (entryPath layout entry) with
  | error problem => rfl
  | ok entries => rfl

/-- The paths that an entry contributes: those of the files in a directory that have one of the
extensions, or its own. -/
def contributions (entry : Text) : List Path :=
  let path := entryPath layout entry
  if (disk.isDirectory path).run then
    match (disk.filesIn path).run with
    | .ok names => (names.map fun name => path.join ⟨name⟩).filter (hasExtension extensions)
    | .error _ => []
  else [path]

/-- Whether a path can be listed if it is a directory. -/
def IsListable (path : Path) : Prop :=
  (disk.isDirectory path).run = true →
    ∃ names, (disk.filesIn path).run = .ok names

/-- What is at an entry stands for its contributions, sorted. -/
lemma found_eq_ok {entry : Text} {place : Entry}
    (h : found disk (entryPath layout entry) = .ok place) :
    IsListable disk (entryPath layout entry) ∧
      place.paths extensions = (contributions disk layout extensions entry).mergeSort Path.le := by
  unfold found at h
  unfold contributions
  dsimp only
  split at h
  · next hdirectory =>
    rw [if_pos hdirectory]
    cases hfiles : (disk.filesIn (entryPath layout entry)).run with
    | error error =>
      rw [hfiles] at h
      cases h
    | ok names =>
      rw [hfiles] at h
      cases h
      exact ⟨fun _ => ⟨names, hfiles⟩, rfl⟩
  · next hsingle =>
    cases h
    rw [if_neg hsingle, List.mergeSort_singleton]
    exact ⟨fun hdirectory => absurd hdirectory hsingle, rfl⟩

lemma exists_found {path : Path} (h : IsListable disk path) :
    ∃ place, found disk path = .ok place := by
  unfold found
  split
  · next hdirectory =>
    obtain ⟨names, hnames⟩ := h hdirectory
    rw [hnames]
    exact ⟨_, rfl⟩
  · exact ⟨_, rfl⟩

/-- The sources that entries come to. -/
def collected (entries : List Text) : List Path :=
  firstsBy Path.parts
    (entries.flatMap fun entry => (contributions disk layout extensions entry).mergeSort Path.le)

/-- All entries are found if and only if each of them can be listed. -/
lemma mapM_found_eq_ok_iff (entries : List Text) (paths : List Path) :
    ((entries.mapM fun entry => found disk (entryPath layout entry)).map fun places =>
        places.flatMap (Entry.paths extensions)) = .ok paths ↔
      (∀ entry ∈ entries, IsListable disk (entryPath layout entry)) ∧
        paths = entries.flatMap fun entry =>
          (contributions disk layout extensions entry).mergeSort Path.le := by
  induction entries generalizing paths with
  | nil =>
    constructor
    · rintro ⟨⟩
      exact ⟨List.forall_mem_nil _, rfl⟩
    · rintro ⟨-, rfl⟩
      rfl
  | cons entry entries ih =>
    rw [List.mapM_cons, List.forall_mem_cons, List.flatMap_cons]
    cases hfound : found disk (entryPath layout entry) with
    | error problem =>
      refine ⟨fun h => (nomatch h), fun h => ?_⟩
      obtain ⟨place, hplace⟩ := exists_found disk h.1.1
      exact nomatch hfound.symm.trans hplace
    | ok place =>
      obtain ⟨hlistable, hpaths⟩ := found_eq_ok disk layout extensions hfound
      cases hrest : entries.mapM fun entry => found disk (entryPath layout entry) with
      | error problem =>
        rw [hrest] at ih
        exact ⟨fun h => (nomatch h), fun h => (nomatch (ih _).mpr ⟨h.1.2, rfl⟩)⟩
      | ok places =>
        rw [hrest] at ih
        show Except.ok (place.paths extensions ++ places.flatMap _) = .ok paths ↔ _
        obtain ⟨hlistables, hplaces⟩ := (ih (places.flatMap (Entry.paths extensions))).mp rfl
        rw [Except.ok.injEq, hpaths, hplaces]
        exact ⟨fun h => ⟨⟨hlistable, hlistables⟩, h.symm⟩, fun h => h.2.symm⟩

/-- The sources are the firsts of what the entries contribute, if each of them can be listed. -/
theorem run_sources_eq_ok_iff (entries : List Text) (paths : List Path) (notices : List Notice) :
    Work.run (sources disk layout entries extensions) = (.ok paths, notices) ↔
      (∀ entry ∈ entries, IsListable disk (entryPath layout entry)) ∧
        paths = collected disk layout extensions entries ∧ notices = [] := by
  have hrun : Work.run (sources disk layout entries extensions) =
      ((entries.mapM fun entry => found disk (entryPath layout entry)).map (sourcesOf extensions),
        []) := answer_sources disk layout extensions entries []
  have hfound := mapM_found_eq_ok_iff disk layout extensions entries
  rw [hrun, Prod.mk.injEq]
  cases hentries : entries.mapM fun entry => found disk (entryPath layout entry) with
  | error problem =>
    rw [hentries] at hfound
    exact ⟨fun h => (nomatch h.1), fun h => (nomatch (hfound _).mpr ⟨h.1, rfl⟩)⟩
  | ok places =>
    rw [hentries] at hfound
    obtain ⟨hlistable, hplaces⟩ := (hfound (places.flatMap (Entry.paths extensions))).mp rfl
    have hsources : sourcesOf extensions places = collected disk layout extensions entries := by
      rw [sourcesOf, distinct_eq, hplaces, collected]
    rw [← hsources]
    constructor
    · rintro ⟨hpaths, rfl⟩
      exact ⟨hlistable, (Except.ok.inj hpaths).symm, rfl⟩
    · rintro ⟨-, rfl, rfl⟩
      exact ⟨rfl, rfl⟩

end

/-! ## Listing in another order -/

/-- Whether a disk has the directories of another one and lists each of them with the same names, in
any order. -/
structure Lists (disk other : Disk Id) : Prop where
  isDirectory : ∀ path, (other.isDirectory path).run = (disk.isDirectory path).run
  filesIn : ∀ path names, (disk.filesIn path).run = .ok names →
    ∃ listed, (other.filesIn path).run = .ok listed ∧ listed.Perm names

/-- A file tree with its nodes in another order is such a disk. -/
lemma lists_of_relisted {tree other : Tree} (h : tree.Relisted other) (now : Text) :
    Lists (tree.disk now) (other.disk now) :=
  ⟨h.isDirectory_eq, fun _ _ => h.filesIn⟩

/-- The names in directories are plain if the names in the places of a tree are. -/
lemma isPlain_of_mem_filesIn {tree : Tree}
    (h : ∀ entry ∈ tree.nodes, ∀ name ∈ entry.1, Tree.IsPlain name) {path : Path}
    {names : List Text} (hfiles : tree.filesIn path = .ok names) :
    ∀ name ∈ names, Tree.IsPlain name := by
  unfold Tree.filesIn at hfiles
  split at hfiles
  · cases hfiles
  · next location hfind =>
    cases hfiles
    intro name hname
    obtain ⟨⟨place, node⟩, hentry, hsome⟩ := List.mem_filterMap.mp hname
    cases node with
    | directory => cases hsome
    | link target => cases hsome
    | file contents =>
      have hlast : Tree.nameIn? location place = some name := hsome
      unfold Tree.nameIn? at hlast
      split at hlast
      · next last hplace =>
        split at hlast
        · cases hlast
          exact h _ hentry name (List.mem_of_getLast? hplace)
        · cases hlast
      · cases hlast
  · cases hfiles

section
variable {disk other : Disk Id} (hlists : Lists disk other) (layout : Layout)
  (extensions : List Text)

include hlists

lemma Lists.isListable {path : Path} (h : IsListable disk path) : IsListable other path := by
  intro hdirectory
  rw [hlists.isDirectory] at hdirectory
  obtain ⟨names, hnames⟩ := h hdirectory
  obtain ⟨listed, hlisted, -⟩ := hlists.filesIn path names hnames
  exact ⟨listed, hlisted⟩

/-- An entry that can be listed contributes the same paths, in another order. -/
lemma Lists.contributions_perm {entry : Text} (h : IsListable disk (entryPath layout entry)) :
    (contributions other layout extensions entry).Perm
      (contributions disk layout extensions entry) := by
  unfold contributions
  dsimp only
  rw [hlists.isDirectory]
  split
  · next hdirectory =>
    obtain ⟨names, hnames⟩ := h hdirectory
    obtain ⟨listed, hlisted, hperm⟩ := hlists.filesIn _ names hnames
    rw [hnames, hlisted]
    exact (hperm.map _).filter _
  · exact .refl _

/-- The sources have the same parts in the same order, in whatever order directories are listed. -/
lemma Lists.map_parts_collected {entries : List Text}
    (h : ∀ entry ∈ entries, IsListable disk (entryPath layout entry)) :
    (collected other layout extensions entries).map Path.parts =
      (collected disk layout extensions entries).map Path.parts := by
  rw [collected, collected, map_firstsBy, map_firstsBy, List.map_flatMap, List.map_flatMap]
  refine congrArg (firstsBy id) (List.flatMap_congr fun entry hentry => ?_)
  exact Path.map_parts_mergeSort_of_perm
    (hlists.contributions_perm layout extensions (h entry hentry))

end

/-- Paths of files with plain names in one directory are written in one way. -/
lemma eq_of_parts_eq {disk : Disk Id} {layout : Layout} {extensions : List Text} {entry : Text}
    {p q : Path} (hp : p ∈ contributions disk layout extensions entry)
    (hq : q ∈ contributions disk layout extensions entry)
    (hplain : ∀ path names, (disk.filesIn path).run = .ok names →
      ∀ name ∈ names, Tree.IsPlain name) (h : p.parts = q.parts) : p = q := by
  unfold contributions at hp hq
  dsimp only at hp hq
  split at hp
  · next hdirectory =>
    rw [if_pos hdirectory] at hq
    split at hp
    · next names hnames =>
      rw [hnames] at hq
      obtain ⟨m, hm, rfl⟩ := List.mem_map.mp (List.mem_filter.mp hp).1
      obtain ⟨n, hn, rfl⟩ := List.mem_map.mp (List.mem_filter.mp hq).1
      obtain ⟨hmslash, hmname⟩ := hplain _ names hnames m hm
      obtain ⟨hnslash, hnname⟩ := hplain _ names hnames n hn
      rw [Path.parts_join_entry _ hmslash hmname, Path.parts_join_entry _ hnslash hnname] at h
      rw [Path.Part.entry.inj (List.singleton_inj.mp (List.append_cancel_left h))]
    · exact absurd hp List.not_mem_nil
  · next hsingle =>
    rw [if_neg hsingle] at hq
    rw [List.mem_singleton.mp hp, List.mem_singleton.mp hq]

/-- The sources are written in the same way, in whatever order directories are listed, if these have
plain names in them. -/
lemma Lists.collected_eq {disk other : Disk Id} (hlists : Lists disk other) (layout : Layout)
    (extensions : List Text) {entries : List Text}
    (h : ∀ entry ∈ entries, IsListable disk (entryPath layout entry))
    (hplain : ∀ path names, (disk.filesIn path).run = .ok names →
      ∀ name ∈ names, Tree.IsPlain name) :
    collected other layout extensions entries = collected disk layout extensions entries := by
  refine congrArg (firstsBy Path.parts) (List.flatMap_congr fun entry hentry => ?_)
  have hperm := hlists.contributions_perm layout extensions (h entry hentry)
  exact Path.mergeSort_eq_of_perm hperm fun p hp q hq =>
    eq_of_parts_eq (hperm.mem_iff.mp hp) hq hplain

/-! ## The sources -/

/-- The number of the first entry that contributes a path. -/
def firstEntry (disk : Disk Id) (layout : Layout) (extensions entries : List Text) (path : Path) :
    Nat :=
  entries.findIdx fun entry =>
    (contributions disk layout extensions entry).any fun other => other.same path

/-- The order in which a disk lists directories does not matter to the sources that are found, which
are the same paths then, and written in the same way where directories have plain names in them. No
two of the sources are the same path. They are contributed by entries, and each path that an entry
contributes is among them. They stand in the order of the first entries that contribute them, and
those of one entry in the order of paths. -/
theorem sources_collected {disk : Disk Id} {layout : Layout} {entries extensions : List Text}
    {paths : List Path} {notices : List Notice}
    (h : Work.run (sources disk layout entries extensions) = (.ok paths, notices)) :
    (∀ other, Lists disk other → ∃ listed,
      Work.run (sources other layout entries extensions) = (.ok listed, notices) ∧
      listed.map Path.parts = paths.map Path.parts ∧
      ((∀ path names, (disk.filesIn path).run = .ok names → ∀ name ∈ names, Tree.IsPlain name) →
        listed = paths)) ∧
    paths.Pairwise (fun p q => p.same q = false) ∧
    (∀ path ∈ paths, ∃ entry ∈ entries, path ∈ contributions disk layout extensions entry) ∧
    (∀ entry ∈ entries, ∀ path ∈ contributions disk layout extensions entry,
      ∃ p ∈ paths, p.same path = true) ∧
    paths.Pairwise fun p q =>
      let position := firstEntry disk layout extensions entries
      position p < position q ∨ position p = position q ∧ p.le q = true ∧ q.le p = false := by
  obtain ⟨hlistable, rfl, rfl⟩ := (run_sources_eq_ok_iff _ _ _ _ _ _).mp h
  have hdistinct : (collected disk layout extensions entries).Pairwise
      fun p q => p.same q = false :=
    (List.pairwise_map.mp (nodup_map_firstsBy _)).imp fun hne => beq_false_of_ne hne
  refine ⟨?_, hdistinct, ?_, ?_, ?_⟩
  · intro other hlists
    refine ⟨collected other layout extensions entries, ?_,
      hlists.map_parts_collected layout extensions hlistable,
      hlists.collected_eq layout extensions hlistable⟩
    rw [run_sources_eq_ok_iff]
    exact ⟨fun entry hentry => hlists.isListable (hlistable entry hentry), rfl, rfl⟩
  · intro path hpath
    obtain ⟨entry, hentry, hmem⟩ := List.mem_flatMap.mp ((firstsBy_sublist _).subset hpath)
    exact ⟨entry, hentry, List.mem_mergeSort.mp hmem⟩
  · intro entry hentry path hpath
    have hmem : path ∈ entries.flatMap fun entry =>
        (contributions disk layout extensions entry).mergeSort Path.le :=
      List.mem_flatMap.mpr ⟨entry, hentry, List.mem_mergeSort.mpr hpath⟩
    have hparts := (mem_map_firstsBy _ _).mpr (List.mem_map_of_mem (f := Path.parts) hmem)
    obtain ⟨p, hp, heq⟩ := List.mem_map.mp hparts
    exact ⟨p, hp, beq_iff_eq.mpr heq⟩
  · -- each entry is a block, sorted by paths
    have hsorted : ∀ entry ∈ entries,
        ((contributions disk layout extensions entry).mergeSort Path.le).Pairwise
          fun p q => p.le q := fun entry _ => Path.pairwise_mergeSort _
    have horder := pairwise_firstsBy_flatMap Path.parts hsorted
    have hposition (path : Path) : blockOf Path.parts
        (fun entry => (contributions disk layout extensions entry).mergeSort Path.le) entries
          path.parts = firstEntry disk layout extensions entries path := by
      unfold blockOf firstEntry
      refine congrArg (entries.findIdx ·) (funext fun entry => ?_)
      exact (List.mergeSort_perm _ _).any_eq
    simp only [hposition] at horder
    refine (horder.and hdistinct).imp ?_
    rintro p q ⟨hbefore | ⟨hsame, hle⟩, hne⟩
    · exact Or.inl hbefore
    · refine Or.inr ⟨hsame, hle, Bool.eq_false_iff.mpr fun hge => ?_⟩
      rw [Path.same, Path.parts_eq_of_le hle hge, beq_self_eq_true] at hne
      cases hne

/-- A directory, a file in it that is listed on its own before, and one that is missing. -/
theorem sources_collected_overlapping :
    let place (name : Text) : Location := [['p'], "src".toList, name]
    let tree : Tree := ⟨[([['p']], .directory), ([['p'], "src".toList], .directory),
      (place "b.cu".toList, .file []), (place "n.c".toList, .file []),
      (place "a.CU".toList, .file [])], []⟩
    let layout := Layout.ofRoot ⟨"/p".toList⟩
    let entries : List Text := ["src//b.cu", "src", "c.cu"]
    let paths : List Path :=
      [⟨"/p/src//b.cu".toList⟩, ⟨"/p/src/a.CU".toList⟩, ⟨"/p/c.cu".toList⟩]
    let other : Tree := { tree with nodes := tree.nodes.reverse }
    Work.run (sources (tree.disk []) layout entries ["cu".toList]) = (.ok paths, []) ∧
      Work.run (sources (other.disk []) layout entries ["cu".toList]) = (.ok paths, []) ∧
      paths.map (firstEntry (tree.disk []) layout ["cu".toList] entries) = [0, 1, 2] := by
  intro place tree layout entries paths other
  have hrun : Work.run (sources (tree.disk []) layout entries ["cu".toList]) =
      (.ok paths, []) := by
    subst paths layout entries tree
    cbv
  have hrelisted : tree.Relisted other := ⟨List.reverse_perm _, rfl, by decide +kernel⟩
  obtain ⟨hother, -⟩ := sources_collected hrun
  obtain ⟨listed, hlisted, -, hwritten⟩ := hother _ (lists_of_relisted hrelisted [])
  have hplain : ∀ entry ∈ tree.nodes, ∀ name ∈ entry.1, Tree.IsPlain name := by
    unfold Tree.IsPlain
    decide +kernel
  rw [hwritten fun _ _ => isPlain_of_mem_filesIn hplain] at hlisted
  have hfirst : paths.map (firstEntry (tree.disk []) layout ["cu".toList] entries) = [0, 1, 2] := by
    subst paths layout entries tree
    cbv
  exact ⟨hrun, hlisted, hfirst⟩

end KernelCensus.Project
