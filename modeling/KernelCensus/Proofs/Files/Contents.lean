import KernelCensus.Proofs.Files.Entries

/-!
# Contents do not decide

Whether a change of a tree can be made is up to the directories, the links and the names that there
are, and not up to what is in the files. A tree whose files are emptied takes the same changes, with
their contents left out, and fails at the same one for the same cause.

* `Tree.hollow`, `Change.hollow`: without contents.
* `Tree.walk_hollow`, `Tree.perform_hollow`: paths and changes.
* `Change.performAll_congr`: changes that differ in contents only.
-/

namespace KernelCensus

/-- What is at a place, with the contents of a file left out. -/
def FileNode.hollow : FileNode → FileNode
  | file _ => file []
  | directory => directory
  | link target => link target

/-- The tree with all its files emptied. -/
def Tree.hollow (tree : Tree) : Tree :=
  { tree with nodes := tree.nodes.map fun entry => (entry.1, entry.2.hollow) }

/-- The change with its contents left out. -/
def Change.hollow : Change → Change
  | directory purpose path => directory purpose path
  | file purpose path _ => file purpose path []

namespace Tree

variable (tree : Tree)

/-! ## Following paths -/

lemma current_hollow : tree.hollow.current = tree.current := rfl

lemma node?_hollow (location : Location) :
    tree.hollow.node? location = (tree.node? location).map FileNode.hollow := by
  have hlookup (nodes : List (Location × FileNode)) :
      (nodes.map fun entry => (entry.1, entry.2.hollow)).lookup location =
        (nodes.lookup location).map FileNode.hollow := by
    induction nodes with
    | nil => rfl
    | cons entry nodes ih =>
      rw [List.map_cons, List.lookup_cons, List.lookup_cons, ih]
      split <;> rfl
  unfold node?
  split
  · rfl
  · exact hlookup tree.nodes

lemma put_hollow (location : Location) (node : FileNode) :
    tree.hollow.put location node.hollow = (tree.put location node).hollow := by
  unfold put hollow
  rw [List.map_cons, List.filter_map]
  rfl

lemma enter_hollow (location : Location) : tree.hollow.enter location = tree.enter location := by
  unfold enter
  rw [node?_hollow]
  rcases tree.node? location with _ | (_ | _ | _) <;> rfl

/-- A path leads to the same place whatever is in the files. -/
theorem walk_hollow (follow : Bool) (links : Nat) (location : Location)
    (parts : List Path.Part) :
    tree.hollow.walk follow links location parts = tree.walk follow links location parts := by
  fun_induction walk tree follow links location parts
  case case1 => rw [walk]
  case case2 ih | case3 ih => rw [walk, ih]
  case case4 henter | case6 henter => simp only [walk, enter_hollow, henter]
  case case5 henter ih => simp only [walk, enter_hollow, henter, ih]
  case case7 henter hname => simp only [walk, enter_hollow, henter, hname, if_true]
  case case8 henter hname _ hnode hfollow | case9 henter hname _ hnode hfollow =>
    simp [walk, enter_hollow, henter, hname, node?_hollow, hnode, FileNode.hollow, hfollow]
  case case10 henter hname _ hnode hfollow _ ih =>
    simp [walk, enter_hollow, henter, hname, node?_hollow, hnode, FileNode.hollow, hfollow, ih]
  case case11 henter hname node hlink hnode ih =>
    -- an emptied file is a file, so nothing becomes a link
    cases node with
    | link target => exact absurd rfl (hlink target)
    | directory =>
      simp [walk, enter_hollow, henter, hname, node?_hollow, hnode, FileNode.hollow, ih]
    | file contents =>
      simp [walk, enter_hollow, henter, hname, node?_hollow, hnode, FileNode.hollow, ih]
  case case12 henter hname hnode hrest | case13 henter hname hnode hrest =>
    simp [walk, enter_hollow, henter, hname, node?_hollow, hnode, hrest]

lemma locate_hollow (follow : Bool) (path : Path) :
    tree.hollow.locate follow path = tree.locate follow path := by
  unfold locate
  rw [walk_hollow, current_hollow]

/-! ## Changes -/

lemma write_hollow (path : Path) (contents : Bytes) :
    tree.hollow.write path [] =
      ((tree.write path contents).1, (tree.write path contents).2.hollow) := by
  unfold write
  rw [locate_hollow]
  cases tree.locate true path with
  | error error => rfl
  | ok location =>
    have hput : tree.hollow.put location (.file []) =
        (tree.put location (.file contents)).hollow := tree.put_hollow location (.file contents)
    dsimp only
    rw [node?_hollow, hput]
    rcases tree.node? location with _ | (_ | _ | _) <;> dsimp only [Option.map, FileNode.hollow] <;>
      split <;> rfl

lemma makeDir_hollow (parts : List Path.Part) :
    tree.hollow.makeDir parts = ((tree.makeDir parts).1, (tree.makeDir parts).2.hollow) := by
  unfold makeDir
  rw [walk_hollow, current_hollow]
  cases tree.walk false linkLimit tree.current parts with
  | error error => rfl
  | ok location =>
    have hput : tree.hollow.put location .directory = (tree.put location .directory).hollow :=
      tree.put_hollow location .directory
    dsimp only
    rw [node?_hollow, hput]
    cases tree.node? location with
    | none => rfl
    | some node => rfl

lemma leadsToDirectory_hollow (parts : List Path.Part) :
    tree.hollow.leadsToDirectory parts = tree.leadsToDirectory parts := by
  unfold leadsToDirectory
  rw [walk_hollow, current_hollow]
  cases tree.walk true linkLimit tree.current parts with
  | error error => rfl
  | ok location =>
    dsimp only
    rw [node?_hollow]
    rcases tree.node? location with _ | (_ | _ | _) <;> rfl

lemma makeDirsTo_hollow (above : List Path.Part) :
    tree.hollow.makeDirsTo above =
      ((tree.makeDirsTo above).1, (tree.makeDirsTo above).2.hollow) := by
  induction above with
  | nil => rfl
  | cons part above ih =>
    unfold makeDirsTo
    dsimp only
    rw [makeDir_hollow, leadsToDirectory_hollow, ih]
    rcases tree.makeDir (part :: above).reverse with ⟨error | ⟨⟩, made⟩
    · cases error
      case notFound =>
        -- the second attempt is made in the tree with the directories above
        rcases tree.makeDirsTo above with ⟨error | ⟨⟩, made⟩
        · rfl
        · dsimp only
          rw [makeDir_hollow]
          rcases made.makeDir (part :: above).reverse with ⟨error | ⟨⟩, made⟩
          · dsimp only
            rw [leadsToDirectory_hollow]
          · rfl
      all_goals rfl
    · rfl

lemma makeDirs_hollow (path : Path) :
    tree.hollow.makeDirs path = ((tree.makeDirs path).1, (tree.makeDirs path).2.hollow) := by
  unfold makeDirs
  cases pathError? path with
  | some error => rfl
  | none => exact tree.makeDirsTo_hollow path.parts.reverse

/-- A change comes to the same whatever is in the files, and the tree after it has the same places. -/
theorem perform_hollow (change : Change) :
    Tree.perform change.hollow tree.hollow =
      ((Tree.perform change tree).1, (Tree.perform change tree).2.hollow) := by
  cases change with
  | directory purpose path => exact tree.makeDirs_hollow path
  | file purpose path contents => exact tree.write_hollow path contents

end Tree

namespace Change

/-- Changes come to the same, up to the first that fails, whatever is in the files. -/
theorem performAll_hollow (changes : List Change) (tree : Tree) :
    performAll Tree.perform (changes.map hollow) tree.hollow =
      ((performAll Tree.perform changes tree).1, (performAll Tree.perform changes tree).2.hollow) := by
  induction changes generalizing tree with
  | nil => rfl
  | cons change changes ih =>
    have hpurpose : change.hollow.purpose = change.purpose := by cases change <;> rfl
    have hpath : change.hollow.path = change.path := by cases change <;> rfl
    rw [List.map_cons, performAll_cons, performAll_cons, Tree.perform_hollow]
    rcases Tree.perform change tree with ⟨error | ⟨⟩, next⟩
    · dsimp only
      rw [hpurpose, hpath]
    · exact ih next

/-- Whether changes can be made does not depend on the contents that they write. -/
theorem performAll_congr {changes others : List Change}
    (h : changes.map hollow = others.map hollow) (tree : Tree) :
    (performAll Tree.perform changes tree).1 = (performAll Tree.perform others tree).1 := by
  have hchanges := congrArg Prod.fst (performAll_hollow changes tree)
  have hothers := congrArg Prod.fst (performAll_hollow others tree)
  rw [h] at hchanges
  exact hchanges.symm.trans hothers

end Change

end KernelCensus
