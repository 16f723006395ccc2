import Mathlib.Data.List.Induction
import Mathlib.Data.List.Nodup
import Mathlib.Tactic.Common

/-!
# Keeping the first of each key

`firstsBy key` keeps of all elements with one key the first. It is what "first wins" means for the
sources, the kernels and the merges of a registry, so the lemmas here are the ones that their
theory rests on: what an element at the end changes, and that a look-up by key answers the same in
a list and in its firsts. The paths of a project are kept in the same way, and there it matters in
which order the firsts stand.

* `find?_firstsBy`, `filter_firstsBy`: looking keys up.
* `firstsBy_append`, `pairwise_firstsBy_flatMap`: lists made of blocks.
-/

namespace KernelCensus

section
variable {α κ : Type} [BEq κ] {key : α → κ}

/-- The elements of a list without those whose key stands earlier in it. -/
def firstsBy (key : α → κ) (xs : List α) : List α :=
  xs.eraseDupsBy fun later earlier => key later == key earlier

lemma firstsBy_cons (x : α) (xs : List α) :
    firstsBy key (x :: xs) = x :: firstsBy key (xs.filter fun y => key y != key x) := by
  rw [firstsBy, List.eraseDupsBy_cons]
  simp only [Bool.decide_eq_false]
  rfl

variable [LawfulBEq κ]

/-- An element at the end is kept if its key is new. -/
theorem firstsBy_concat (xs : List α) (x : α) :
    firstsBy key (xs ++ [x]) =
      if key x ∈ xs.map key then firstsBy key xs else firstsBy key xs ++ [x] := by
  match xs with
  | [] => rfl
  | y :: xs =>
    rw [List.cons_append, firstsBy_cons, firstsBy_cons, List.filter_append]
    by_cases hxy : key x = key y
    · have hdrop : [x].filter (fun z => key z != key y) = [] := by simp [hxy]
      rw [hdrop, List.append_nil, if_pos (by simp [hxy])]
    · have hkeep : [x].filter (fun z => key z != key y) = [x] := by simp [hxy]
      have ih := firstsBy_concat (xs.filter fun z => key z != key y) x
      -- the key of `x` is not that of `y`, so filtering that out changes nothing for it
      have hmem : key x ∈ (xs.filter fun z => key z != key y).map key ↔
          key x ∈ (y :: xs).map key := by
        simp only [List.mem_map, List.mem_filter, List.mem_cons, bne_iff_ne]
        constructor
        · rintro ⟨z, ⟨hz, -⟩, hzx⟩
          exact ⟨z, Or.inr hz, hzx⟩
        · rintro ⟨z, rfl | hz, hzx⟩
          · exact absurd hzx.symm hxy
          · exact ⟨z, ⟨hz, fun h => hxy (hzx.symm.trans h)⟩, hzx⟩
      rw [hkeep, ih]
      by_cases hx : key x ∈ (y :: xs).map key
      · rw [if_pos hx, if_pos (hmem.mpr hx)]
      · rw [if_neg hx, if_neg (fun h => hx (hmem.mp h)), List.cons_append]
termination_by xs.length
decreasing_by exact Nat.lt_succ_of_le (List.length_filter_le _ _)

lemma mem_map_firstsBy (xs : List α) (k : κ) :
    k ∈ (firstsBy key xs).map key ↔ k ∈ xs.map key := by
  induction xs using List.reverseRecOn with
  | nil => exact Iff.rfl
  | append_singleton xs x ih =>
    rw [firstsBy_concat]
    split
    · next hx =>
      rw [ih, List.map_append, List.mem_append]
      refine ⟨Or.inl, fun h => h.elim id fun hk => ?_⟩
      rw [List.map_singleton, List.mem_singleton] at hk
      exact hk ▸ hx
    · rw [List.map_append, List.map_append, List.mem_append, List.mem_append, ih]

lemma nodup_map_firstsBy (xs : List α) : ((firstsBy key xs).map key).Nodup := by
  induction xs using List.reverseRecOn with
  | nil => exact List.nodup_nil
  | append_singleton xs x ih =>
    rw [firstsBy_concat]
    split
    · exact ih
    · next hx =>
      rw [List.map_append, List.nodup_append]
      refine ⟨ih, List.nodup_singleton _, ?_⟩
      intro k hk k' hk' heq
      rw [List.map_singleton, List.mem_singleton] at hk'
      rw [mem_map_firstsBy, heq, hk'] at hk
      exact hx hk

lemma firstsBy_sublist (xs : List α) : (firstsBy key xs).Sublist xs := by
  induction xs using List.reverseRecOn with
  | nil => exact List.Sublist.slnil
  | append_singleton xs x ih =>
    rw [firstsBy_concat]
    split
    · exact ih.trans (List.sublist_append_left xs [x])
    · exact ih.append_right [x]

/-- Looking a key up among the firsts finds what looking it up in the list finds. -/
theorem find?_firstsBy (xs : List α) (k : κ) :
    (firstsBy key xs).find? (fun x => key x == k) = xs.find? fun x => key x == k := by
  induction xs using List.reverseRecOn with
  | nil => rfl
  | append_singleton xs x ih =>
    rw [firstsBy_concat, List.find?_append]
    split
    · next hx =>
      rw [ih]
      cases hfind : xs.find? (fun x => key x == k) with
      | some y => rfl
      | none =>
        -- the key is new to `xs`, so it is not that of `x`, which is not new
        rw [List.find?_eq_none] at hfind
        obtain ⟨y, hy, hyx⟩ := List.mem_map.mp hx
        have hne : ¬ (key x == k) = true := hyx ▸ hfind y hy
        rw [Option.none_or, List.find?_singleton, if_neg hne]
    · rw [List.find?_append, ih]

lemma map_firstsBy (xs : List α) : (firstsBy key xs).map key = firstsBy id (xs.map key) := by
  induction xs using List.reverseRecOn with
  | nil => rfl
  | append_singleton xs x ih =>
    rw [List.map_append, List.map_singleton, firstsBy_concat, firstsBy_concat, List.map_id, id,
      ← ih]
    split
    · rfl
    · rw [List.map_append, List.map_singleton]

variable (key) in
/-- Just one of the firsts has a key, if any element has it. -/
lemma filter_firstsBy (xs : List α) (k : κ) :
    (firstsBy key xs).filter (fun x => key x == k) = (xs.find? fun x => key x == k).toList := by
  rw [← find?_firstsBy]
  have hnodup : ((firstsBy key xs).map key).Nodup := nodup_map_firstsBy xs
  generalize firstsBy key xs = firsts at hnodup
  induction firsts with
  | nil => rfl
  | cons x rest ih =>
    rw [List.map_cons, List.nodup_cons] at hnodup
    rw [List.filter_cons, List.find?_cons]
    by_cases hx : key x = k
    · have hrest : rest.filter (fun y => key y == k) = [] := by
        rw [List.filter_eq_nil_iff]
        exact fun y hy heq => hnodup.1 (List.mem_map.mpr ⟨y, hy, (eq_of_beq heq).trans hx.symm⟩)
      simp [hx, hrest]
    · have hne : (key x == k) = false := beq_false_of_ne hx
      rw [ih hnodup.2, hne, if_neg Bool.false_ne_true]

/-! ## Blocks -/

/-- Of two lists, one after another, the second adds the firsts whose keys are new to the first. -/
theorem firstsBy_append (xs ys : List α) :
    firstsBy key (xs ++ ys) =
      firstsBy key xs ++ (firstsBy key ys).filter fun y => !(xs.map key).contains (key y) := by
  induction ys using List.reverseRecOn with
  | nil =>
    have hnil : firstsBy key ([] : List α) = [] := rfl
    rw [List.append_nil, hnil, List.filter_nil, List.append_nil]
  | append_singleton ys y ih =>
    rw [← List.append_assoc, firstsBy_concat, firstsBy_concat, ih, List.map_append]
    by_cases hys : key y ∈ ys.map key
    · rw [if_pos (List.mem_append_right _ hys), if_pos hys]
    · rw [if_neg hys, List.filter_append, List.filter_singleton]
      by_cases hxs : key y ∈ xs.map key
      · rw [if_pos (List.mem_append_left _ hxs)]
        simp [hxs]
      · rw [if_neg (fun h => (List.mem_append.mp h).elim hxs hys)]
        simp [hxs]

/-- The number of the first block that has an element with a key. -/
def blockOf {β : Type} (key : α → κ) (block : β → List α) (blocks : List β) (k : κ) : Nat :=
  blocks.findIdx fun b => (block b).any fun x => key x == k

variable (key) in
/-- The firsts of blocks stand in the order of the first blocks that have their keys. Those of one
block stand as they do in there. -/
theorem pairwise_firstsBy_flatMap {β : Type} {block : β → List α} {blocks : List β}
    {r : α → α → Prop} (hblock : ∀ b ∈ blocks, (block b).Pairwise r) :
    (firstsBy key (blocks.flatMap block)).Pairwise fun x y =>
      blockOf key block blocks (key x) < blockOf key block blocks (key y) ∨
        blockOf key block blocks (key x) = blockOf key block blocks (key y) ∧ r x y := by
  induction blocks with
  | nil => exact List.Pairwise.nil
  | cons b blocks ih =>
    obtain ⟨hb, hrest⟩ := List.forall_mem_cons.mp hblock
    -- the firsts of the first block are there, and what the others add is not
    have hfront {x : α} (hx : x ∈ firstsBy key (block b)) :
        blockOf key block (b :: blocks) (key x) = 0 := by
      have hany : ((block b).any fun z => key z == key x) = true :=
        List.any_eq_true.mpr ⟨x, (firstsBy_sublist _).subset hx, beq_self_eq_true _⟩
      rw [blockOf, List.findIdx_cons, hany, cond_true]
    have hback {y : α} (hy : (!((block b).map key).contains (key y)) = true) :
        blockOf key block (b :: blocks) (key y) = blockOf key block blocks (key y) + 1 := by
      have hany : ((block b).any fun z => key z == key y) = false := by
        rw [Bool.not_eq_true', List.contains_eq_mem, decide_eq_false_iff_not, List.mem_map] at hy
        rw [List.any_eq_false]
        exact fun z hz heq => hy ⟨z, hz, eq_of_beq heq⟩
      rw [blockOf, List.findIdx_cons, hany, cond_false, blockOf]
    rw [List.flatMap_cons, firstsBy_append, List.pairwise_append]
    refine ⟨?_, ?_, ?_⟩
    · refine (hb.sublist (firstsBy_sublist _)).imp_of_mem fun hx hy hr => Or.inr ⟨?_, hr⟩
      rw [hfront hx, hfront hy]
    · refine ((ih hrest).sublist List.filter_sublist).imp_of_mem fun hx hy h => ?_
      rw [hback (List.mem_filter.mp hx).2, hback (List.mem_filter.mp hy).2]
      exact h.imp Nat.succ_lt_succ fun h => ⟨congrArg _ h.1, h.2⟩
    · intro x hx y hy
      rw [hfront hx, hback (List.mem_filter.mp hy).2]
      exact Or.inl (Nat.succ_pos _)

end

end KernelCensus
