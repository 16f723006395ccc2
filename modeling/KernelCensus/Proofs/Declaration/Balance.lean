import KernelCensus.Declaration.Parentheses
import Mathlib.Data.List.Infix
import Mathlib.Tactic.Common

/-!
# Balanced text

A text is balanced if each of its parentheses has its partner in it. Where an argument list closes
does not depend on balanced text in front of it, and no front of a balanced text closes one. What
an argument list holds is balanced by count as well: no front of it closes more parentheses than it
opens, and the whole closes all of them.

* `Balanced.closing?_append`, `Balanced.closing?_of_isPrefix`: balanced text and argument lists.
* `balanced_of_closing?`: an argument list is balanced.
* `closes_of_closing?`: the parentheses in an argument list.
-/

namespace KernelCensus

/-- What is at the front of two texts ends in the first of them or goes on into the second. -/
lemma isPrefix_append_cases {α : Type} {front first second : List α}
    (h : front <+: first ++ second) :
    front <+: first ∨ ∃ rest, front = first ++ rest ∧ rest <+: second := by
  rcases List.prefix_or_prefix_of_prefix h (List.prefix_append first second) with hle | hge
  · exact Or.inl hle
  · obtain ⟨rest, rfl⟩ := hge
    exact Or.inr ⟨rest, rfl, (List.prefix_append_right_inj first).mp h⟩

namespace Parentheses

/-- Text in which each parenthesis has its partner. -/
inductive Balanced : Text → Prop
  | nil : Balanced []
  | other {c : Char} {rest : Text} (hopen : c ≠ '(') (hclose : c ≠ ')') (hrest : Balanced rest) :
    Balanced (c :: rest)
  | group {inner rest : Text} (hinner : Balanced inner) (hrest : Balanced rest) :
    Balanced ('(' :: inner ++ ')' :: rest)

lemma Balanced.of_all {text : Text} (h : text.all (fun c => c != '(' && c != ')') = true) :
    Balanced text := by
  induction text with
  | nil => exact .nil
  | cons c text ih =>
    rw [List.all_cons, Bool.and_eq_true, Bool.and_eq_true, bne_iff_ne, bne_iff_ne] at h
    obtain ⟨⟨hopen, hclose⟩, hrest⟩ := h
    exact .other hopen hclose (ih hrest)

lemma closing?_cons_of_ne {c : Char} (hopen : c ≠ '(') (hclose : c ≠ ')') (depth : Nat)
    (rest : Text) :
    closing? depth (c :: rest) = (closing? depth rest).map fun parts => (c :: parts.1, parts.2) := by
  rw [closing?]
  · exact hopen
  · intro _ h
    exact absurd h hclose
  · intro _ _ h
    exact absurd h hclose

/-- Balanced text stands inside as a whole. -/
theorem Balanced.closing?_append {text : Text} (h : Balanced text) (depth : Nat) (rest : Text) :
    closing? depth (text ++ rest) =
      (closing? depth rest).map fun parts => (text ++ parts.1, parts.2) := by
  induction h generalizing depth rest with
  | nil => exact Option.map_id'.symm
  | other hopen hclose _ ih =>
    rw [List.cons_append, closing?_cons_of_ne hopen hclose, ih, Option.map_map]
    rfl
  | @group inner tail _ _ ihinner ihtail =>
    have hsplit : '(' :: inner ++ ')' :: tail ++ rest =
        '(' :: (inner ++ ')' :: (tail ++ rest)) := by simp
    rw [hsplit, closing?, ihinner, closing?, ihtail, Option.map_map, Option.map_map,
      Option.map_map]
    congr 1
    funext parts
    simp

/-- No front of a balanced text closes an argument list. -/
theorem Balanced.closing?_of_isPrefix {text front : Text} (h : Balanced text)
    (hfront : front <+: text) (depth : Nat) : closing? depth front = none := by
  induction h generalizing front depth with
  | nil =>
    rw [List.prefix_nil.mp hfront]
    rfl
  | other hopen hclose _ ih =>
    rcases List.prefix_cons_iff.mp hfront with rfl | ⟨rest, rfl, hrest⟩
    · rfl
    · rw [closing?_cons_of_ne hopen hclose, ih hrest]
      rfl
  | @group inner tail hinner _ ihinner ihtail =>
    rcases List.prefix_cons_iff.mp hfront with rfl | ⟨after, rfl, hafter⟩
    · rfl
    · rw [closing?]
      rcases isPrefix_append_cases hafter with hinside | ⟨rest, rfl, hrest⟩
      · rw [ihinner hinside]
        rfl
      · rcases List.prefix_cons_iff.mp hrest with rfl | ⟨last, rfl, hlast⟩
        · rw [List.append_nil, ihinner (List.prefix_refl inner)]
          rfl
        · rw [hinner.closing?_append, closing?, ihtail hlast]
          rfl

lemma Balanced.append {front back : Text} (hfront : Balanced front) (hback : Balanced back) :
    Balanced (front ++ back) := by
  induction hfront with
  | nil => exact hback
  | other hopen hclose _ ih => exact .other hopen hclose ih
  | @group inner rest hinner _ _ ih =>
    have hsplit : '(' :: inner ++ ')' :: rest ++ back =
        '(' :: inner ++ ')' :: (rest ++ back) := by simp
    rw [hsplit]
    exact .group hinner ih

/-- Text that closes `depth` parentheses more than it opens: balanced texts with a closing
parenthesis between each two. -/
inductive Settles : Nat → Text → Prop
  | balanced {text : Text} (htext : Balanced text) : Settles 0 text
  | close {depth : Nat} {front rest : Text} (hfront : Balanced front) (hrest : Settles depth rest) :
    Settles (depth + 1) (front ++ ')' :: rest)

lemma Settles.append {depth : Nat} {text : Text} (h : Settles depth text) {front : Text}
    (hfront : Balanced front) : Settles depth (front ++ text) := by
  cases h with
  | balanced htext => exact .balanced (hfront.append htext)
  | close hbalanced hrest =>
    rw [← List.append_assoc]
    exact .close (hfront.append hbalanced) hrest

/-- An opening parenthesis takes the first of the closing ones for its partner. -/
lemma Settles.cons_open {depth : Nat} {text : Text} (h : Settles (depth + 1) text) :
    Settles depth ('(' :: text) := by
  cases h with
  | @close _ front rest hfront hrest =>
    have hgroup : Balanced ('(' :: front ++ ')' :: []) := .group hfront .nil
    have hsplit : '(' :: (front ++ ')' :: rest) = '(' :: front ++ ')' :: [] ++ rest := by simp
    rw [hsplit]
    exact hrest.append hgroup

/-- What stands before the closing parenthesis of an argument list is balanced. -/
theorem balanced_of_closing? {text inner after : Text}
    (h : closing? 0 text = some (inner, after)) : Balanced inner := by
  have hsettles {depth : Nat} {text inner after : Text}
      (h : closing? depth text = some (inner, after)) : Settles depth inner := by
    fun_induction closing? depth text generalizing inner with
    | case1 => cases h
    | case2 depth rest ih =>
      obtain ⟨⟨mid, tail⟩, hrest, heq⟩ := Option.map_eq_some_iff.mp h
      cases heq
      exact (ih hrest).cons_open
    | case3 =>
      cases h
      exact .balanced .nil
    | case4 depth rest ih =>
      obtain ⟨⟨mid, tail⟩, hrest, heq⟩ := Option.map_eq_some_iff.mp h
      cases heq
      exact .close .nil (ih hrest)
    | case5 depth c rest hopen hzero hsucc ih =>
      obtain ⟨⟨mid, tail⟩, hrest, heq⟩ := Option.map_eq_some_iff.mp h
      cases heq
      have hclose : c ≠ ')' := by
        cases depth with
        | zero => exact hzero rfl
        | succ depth => exact hsucc depth rfl
      exact (ih hrest).append (.other hopen hclose .nil)
  cases hsettles h with
  | balanced hinner => exact hinner

/-! ## Counting -/

/-- Text that closes the parentheses it opens and `depth` more, none of them too early. -/
structure Closes (depth : Nat) (text : Text) : Prop where
  fronts : ∀ front, front <+: text → front.count ')' ≤ front.count '(' + depth
  total : text.count ')' = text.count '(' + depth

lemma closes_nil : Closes 0 [] where
  fronts := by
    intro front hfront
    rw [List.prefix_nil.mp hfront]
    exact Nat.le_refl 0
  total := rfl

/-- A character in front of a text opens one of the parentheses that the text closes, or closes
one itself, or does neither. -/
lemma Closes.cons {depth next : Nat} {text : Text} (h : Closes next text) {c : Char}
    (hstep : [c].count ')' + next = [c].count '(' + depth) : Closes depth (c :: text) where
  fronts := by
    intro front hfront
    rcases List.prefix_cons_iff.mp hfront with rfl | ⟨rest, rfl, hrest⟩
    · exact Nat.zero_le _
    · have hle := h.fronts rest hrest
      rw [← List.singleton_append, List.count_append, List.count_append]
      omega
  total := by
    have htotal := h.total
    rw [← List.singleton_append, List.count_append, List.count_append]
    omega

/-- What stands before the closing parenthesis closes all that is open. -/
theorem closes_of_closing? {depth : Nat} {text inner after : Text}
    (h : closing? depth text = some (inner, after)) : Closes depth inner := by
  fun_induction closing? depth text generalizing inner with
  | case1 => cases h
  | case2 depth rest ih =>
    obtain ⟨⟨mid, tail⟩, hrest, heq⟩ := Option.map_eq_some_iff.mp h
    cases heq
    refine (ih hrest).cons ?_
    show 0 + (depth + 1) = 1 + depth
    omega
  | case3 =>
    cases h
    exact closes_nil
  | case4 depth rest ih =>
    obtain ⟨⟨mid, tail⟩, hrest, heq⟩ := Option.map_eq_some_iff.mp h
    cases heq
    refine (ih hrest).cons ?_
    show 1 + depth = 0 + (depth + 1)
    omega
  | case5 depth c rest hopen hzero hsucc ih =>
    obtain ⟨⟨mid, tail⟩, hrest, heq⟩ := Option.map_eq_some_iff.mp h
    cases heq
    have hclose : c ≠ ')' := by
      cases depth with
      | zero => exact hzero rfl
      | succ depth => exact hsucc depth rfl
    refine (ih hrest).cons ?_
    rw [List.count_singleton, List.count_singleton, beq_eq_false_iff_ne.mpr hclose,
      beq_eq_false_iff_ne.mpr hopen]

/-- Text around a part that has no parentheses does not count. -/
lemma Closes.of_append {before part after : Text} (h : Closes 0 (before ++ (part ++ after)))
    (hbefore : '(' ∉ before ∧ ')' ∉ before) (hafter : '(' ∉ after ∧ ')' ∉ after) :
    Closes 0 part where
  fronts := by
    intro front hfront
    have hle := h.fronts (before ++ front)
      ((List.prefix_append_right_inj before).mpr (hfront.trans (List.prefix_append part after)))
    rw [List.count_append, List.count_append, List.count_eq_zero_of_not_mem hbefore.1,
      List.count_eq_zero_of_not_mem hbefore.2] at hle
    omega
  total := by
    have htotal := h.total
    simp only [List.count_append, List.count_eq_zero_of_not_mem hbefore.1,
      List.count_eq_zero_of_not_mem hbefore.2, List.count_eq_zero_of_not_mem hafter.1,
      List.count_eq_zero_of_not_mem hafter.2] at htotal
    omega

end Parentheses

end KernelCensus
