import KernelCensus.Files.Tree
import Mathlib.Tactic.Common

/-!
# Following paths in a tree that grows

A tree grows as long as its directories and its symbolic links stay and no link is added. A path
that leads somewhere leads there in the grown tree as well.

* `Tree.Leads`: how parts lead from place to place, as a relation.
* `Tree.Grows`: growth.
* `Tree.Grows.walk`, `Tree.Grows.locate`: paths lead to the same places.
* `Tree.exists_home`: the directory that the place of an entry is in.
-/

namespace KernelCensus.Tree

/-! ## Ways -/

/-- Whether parts lead from a place to a place, through at most so many symbolic links. -/
inductive Leads (tree : Tree) (follow : Bool) : Nat → Location → List Path.Part → Location → Prop
  | nil (links : Nat) (location : Location) : Leads tree follow links location [] location
  | root {links : Nat} {location place : Location} {rest : List Path.Part}
    (h : Leads tree follow links [] rest place) :
    Leads tree follow links location (.root :: rest) place
  | here {links : Nat} {location place : Location} {rest : List Path.Part}
    (h : Leads tree follow links location rest place) :
    Leads tree follow links location (.here :: rest) place
  | up {links : Nat} {location place : Location} {rest : List Path.Part}
    (henter : tree.enter location = .ok ())
    (h : Leads tree follow links location.dropLast rest place) :
    Leads tree follow links location (.up :: rest) place
  /-- A link at the end that is not followed. -/
  | stop {links : Nat} {location : Location} {name : Text} {target : Path}
    (henter : tree.enter location = .ok ()) (hname : (Utf8.encode name).length ≤ nameLimit)
    (hnode : tree.node? (location ++ [name]) = some (.link target)) (hfollow : follow = false) :
    Leads tree follow links location [.entry name] (location ++ [name])
  | link {links : Nat} {location place : Location} {name : Text} {target : Path}
    {rest : List Path.Part} (henter : tree.enter location = .ok ())
    (hname : (Utf8.encode name).length ≤ nameLimit)
    (hnode : tree.node? (location ++ [name]) = some (.link target))
    (hfollow : (rest.isEmpty && !follow) = false)
    (h : Leads tree follow links location (target.parts ++ rest) place) :
    Leads tree follow (links + 1) location (.entry name :: rest) place
  | entry {links : Nat} {location place : Location} {name : Text} {rest : List Path.Part}
    (henter : tree.enter location = .ok ()) (hname : (Utf8.encode name).length ≤ nameLimit)
    (hnode : ∀ target, tree.node? (location ++ [name]) ≠ some (.link target))
    (hend : tree.node? (location ++ [name]) ≠ none ∨ rest = [])
    (h : Leads tree follow links (location ++ [name]) rest place) :
    Leads tree follow links location (.entry name :: rest) place

/-- Following parts comes to a place if they lead there. -/
theorem walk_eq_ok_iff {tree : Tree} {follow : Bool} {links : Nat} {location place : Location}
    {parts : List Path.Part} :
    tree.walk follow links location parts = .ok place ↔
      Leads tree follow links location parts place := by
  constructor
  · intro h
    fun_induction walk tree follow links location parts with
    | case1 links =>
      cases h
      exact .nil links place
    | case2 links location rest ih => exact .root (ih h)
    | case3 links location rest ih => exact .here (ih h)
    | case4 => cases h
    | case5 links location rest henter ih => exact .up henter (ih h)
    | case6 => cases h
    | case7 => cases h
    | case8 links location name rest henter hname target hnode hstop =>
      cases h
      obtain ⟨hrest, hfollow⟩ := Bool.and_eq_true_iff.mp hstop
      rw [List.isEmpty_iff.mp hrest]
      exact .stop henter (Nat.not_lt.mp hname) hnode (by simpa using hfollow)
    | case9 => cases h
    | case10 location name rest henter hname target hnode hfollow links ih =>
      exact .link henter (Nat.not_lt.mp hname) hnode (Bool.eq_false_iff.mpr hfollow) (ih h)
    | case11 links location name rest henter hname node hlink hnode ih =>
      refine .entry henter (Nat.not_lt.mp hname) (fun target heq => ?_) (Or.inl ?_) (ih h)
      · exact hlink target (Option.some.inj (hnode.symm.trans heq))
      · rw [hnode]
        exact Option.some_ne_none node
    | case12 links location name rest henter hname hnode hrest =>
      cases h
      rw [List.isEmpty_iff.mp hrest]
      refine .entry henter (Nat.not_lt.mp hname) (fun target heq => ?_) (Or.inr rfl) (.nil _ _)
      cases hnode.symm.trans heq
    | case13 => cases h
  · intro h
    induction h with
    | nil => rw [walk]
    | root h ih => rw [walk, ih]
    | here h ih => rw [walk, ih]
    | up henter h ih => simp only [walk, henter, ih]
    | stop henter hname hnode hfollow =>
      simp only [walk, henter, Nat.not_lt.mpr hname, hnode, hfollow, List.isEmpty_nil,
        Bool.not_false, Bool.and_self, if_true, if_false]
    | link henter hname hnode hfollow h ih =>
      rw [walk]
      simp only [henter, Nat.not_lt.mpr hname, hnode, hfollow, if_false, Bool.false_eq_true, ih]
    | @entry links location place name rest henter hname hnode hend h ih =>
      rw [walk]
      simp only [henter, Nat.not_lt.mpr hname, if_false]
      split
      · next target heq => exact absurd heq (hnode target)
      · exact ih
      · next hnone =>
        obtain rfl := hend.resolve_left (fun hsome => hsome hnone)
        rw [walk] at ih
        rw [List.isEmpty_nil, if_pos rfl, ih]

lemma node?_of_enter {tree : Tree} {location : Location} (h : tree.enter location = .ok ()) :
    tree.node? location = some .directory := by
  unfold enter at h
  split at h
  · assumption
  · cases h
  · cases h

lemma enter_of_node? {tree : Tree} {location : Location}
    (h : tree.node? location = some .directory) : tree.enter location = .ok () := by
  rw [enter, h]

/-! ## The directory of an entry -/

/-- The way to an entry goes through a directory, and ends in there unless the entry is a link. -/
theorem exists_home {tree : Tree} {follow : Bool} {links : Nat} {location place : Location}
    {parts : List Path.Part} {name : Text}
    (h : tree.walk follow links location (parts ++ [.entry name]) = .ok place) :
    ∃ home, tree.walk true links location parts = .ok home ∧ tree.node? home = some .directory ∧
      ((∀ target, tree.node? (home ++ [name]) ≠ some (.link target)) → place = home ++ [name]) := by
  rw [walk_eq_ok_iff] at h
  simp only [walk_eq_ok_iff]
  generalize hwhole : parts ++ [.entry name] = whole at h
  -- a link on the way puts the parts of its target before the others, so the entry stays the last
  induction h generalizing parts with
  | nil => exact absurd hwhole (by simp)
  | root h ih =>
    cases parts with
    | nil => cases hwhole
    | cons part parts =>
      obtain ⟨rfl, hrest⟩ := List.cons.inj hwhole
      obtain ⟨home, hleads, hhome⟩ := ih hrest
      exact ⟨home, .root hleads, hhome⟩
  | here h ih =>
    cases parts with
    | nil => cases hwhole
    | cons part parts =>
      obtain ⟨rfl, hrest⟩ := List.cons.inj hwhole
      obtain ⟨home, hleads, hhome⟩ := ih hrest
      exact ⟨home, .here hleads, hhome⟩
  | up henter h ih =>
    cases parts with
    | nil => cases hwhole
    | cons part parts =>
      obtain ⟨rfl, hrest⟩ := List.cons.inj hwhole
      obtain ⟨home, hleads, hhome⟩ := ih hrest
      exact ⟨home, .up henter hleads, hhome⟩
  | stop henter hname hnode hfollow =>
    cases parts with
    | nil =>
      obtain ⟨hpart, -⟩ := List.cons.inj hwhole
      obtain rfl := Path.Part.entry.inj hpart
      exact ⟨_, .nil _ _, node?_of_enter henter, fun _ => rfl⟩
    | cons part parts => simp at hwhole
  | @link links location place entry target rest henter hname hnode hfollow h ih =>
    cases parts with
    | nil =>
      obtain ⟨hpart, -⟩ := List.cons.inj hwhole
      obtain rfl := Path.Part.entry.inj hpart
      exact ⟨_, .nil _ _, node?_of_enter henter, fun hlink => absurd hnode (hlink target)⟩
    | cons part parts =>
      obtain ⟨rfl, rfl⟩ := List.cons.inj hwhole
      obtain ⟨home, hleads, hhome⟩ := ih (List.append_assoc target.parts parts _)
      exact ⟨home, .link henter hname hnode (by simp) hleads, hhome⟩
  | @entry links location place entry rest henter hname hnode hend h ih =>
    cases parts with
    | nil =>
      obtain ⟨hpart, rfl⟩ := List.cons.inj hwhole
      obtain rfl := Path.Part.entry.inj hpart
      cases h
      exact ⟨_, .nil _ _, node?_of_enter henter, fun _ => rfl⟩
    | cons part parts =>
      obtain ⟨rfl, rfl⟩ := List.cons.inj hwhole
      obtain ⟨home, hleads, hhome⟩ := ih rfl
      refine ⟨home, .entry henter hname hnode (Or.inl ?_) hleads, hhome⟩
      exact hend.resolve_right (by simp)

/-- A way that ends at no link does so whether links are followed or not. -/
lemma walk_true_of_walk {tree : Tree} {follow : Bool} {links : Nat} {location place : Location}
    {parts : List Path.Part} (h : tree.walk follow links location parts = .ok place)
    (hplace : ∀ target, tree.node? place ≠ some (.link target)) :
    tree.walk true links location parts = .ok place := by
  rw [walk_eq_ok_iff] at h ⊢
  induction h with
  | nil links location => exact .nil links location
  | root h ih => exact .root (ih hplace)
  | here h ih => exact .here (ih hplace)
  | up henter h ih => exact .up henter (ih hplace)
  | stop henter hname hnode hfollow => exact absurd hnode (hplace _)
  | link henter hname hnode hfollow h ih => exact .link henter hname hnode (by simp) (ih hplace)
  | entry henter hname hnode hend h ih => exact .entry henter hname hnode hend (ih hplace)

/-! ## Growth -/

/-- Whether a tree has grown: from the same current directory, with the directories and the links
that there were, with something at each place that had something, and without new links. -/
structure Grows (before after : Tree) : Prop where
  current : after.current = before.current
  directory : ∀ {location}, before.node? location = some .directory →
    after.node? location = some .directory
  link : ∀ {location target}, after.node? location = some (.link target) ↔
    before.node? location = some (.link target)
  occupied : ∀ {location}, before.node? location ≠ none → after.node? location ≠ none

namespace Grows

variable {before made after : Tree}

lemma refl (tree : Tree) : Grows tree tree := ⟨rfl, id, Iff.rfl, id⟩

lemma trans (h : Grows before made) (h' : Grows made after) : Grows before after :=
  ⟨h'.current.trans h.current, fun hnode => h'.directory (h.directory hnode), h'.link.trans h.link,
    fun hnode => h'.occupied (h.occupied hnode)⟩

variable (hgrows : Grows before after)

include hgrows

lemma enter {location : Location} (h : before.enter location = .ok ()) :
    after.enter location = .ok () :=
  enter_of_node? (hgrows.directory (node?_of_enter h))

/-- A path leads to the same place in a tree that has grown. -/
theorem walk {follow : Bool} {links : Nat} {location place : Location} {parts : List Path.Part}
    (h : before.walk follow links location parts = .ok place) :
    after.walk follow links location parts = .ok place := by
  rw [walk_eq_ok_iff] at h ⊢
  induction h with
  | nil links location => exact .nil links location
  | root h ih => exact .root ih
  | here h ih => exact .here ih
  | up henter h ih => exact .up (hgrows.enter henter) ih
  | stop henter hname hnode hfollow =>
    exact .stop (hgrows.enter henter) hname (hgrows.link.mpr hnode) hfollow
  | link henter hname hnode hfollow h ih =>
    exact .link (hgrows.enter henter) hname (hgrows.link.mpr hnode) hfollow ih
  | entry henter hname hnode hend h ih =>
    -- no link is new, so what was none is none
    refine .entry (hgrows.enter henter) hname (fun target hlink => ?_)
      (hend.imp_left hgrows.occupied) ih
    exact hnode target (hgrows.link.mp hlink)

/-- A path is located at the same place in a tree that has grown. -/
lemma locate {follow : Bool} {path : Path} {place : Location}
    (h : before.locate follow path = .ok place) : after.locate follow path = .ok place := by
  unfold Tree.locate at h ⊢
  split at h
  · cases h
  · split at h
    · cases h
    · next htext =>
      rw [if_neg htext, hgrows.current]
      exact hgrows.walk h

end Grows

end KernelCensus.Tree
