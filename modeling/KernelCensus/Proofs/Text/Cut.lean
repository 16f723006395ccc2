import KernelCensus.Text.Basic
import Mathlib.Data.List.Infix
import Mathlib.Tactic.Common

/-!
# Searching

A search cuts a text at the first occurrence of what is searched for. What follows an occurrence
does not change where it is found. A run of the characters of a class cuts a text at the first
character that is not in the class.

* `eq_append_of_cut?`, `cut?_append`: searches.
* `span_append`: runs.
-/

namespace KernelCensus.Text

/-- The parts around what was found make up the text. -/
theorem eq_append_of_cut? {needle text before after : Text}
    (h : cut? needle text = some (before, after)) : text = before ++ needle ++ after := by
  induction text generalizing before with
  | nil =>
    rw [cut?] at h
    split at h
    · next hempty =>
      rw [List.isEmpty_iff] at hempty
      cases h
      rw [hempty]
      rfl
    · cases h
  | cons c text ih =>
    rw [cut?] at h
    split at h
    · next hfront =>
      cases h
      obtain ⟨rest, hrest⟩ := List.isPrefixOf_iff_prefix.mp hfront
      rw [List.nil_append, ← hrest, List.drop_left]
    · obtain ⟨⟨front, back⟩, hcut, heq⟩ := Option.map_eq_some_iff.mp h
      cases heq
      rw [ih hcut]
      rfl

/-- Nothing is found if and only if what is searched for is not there. -/
theorem cut?_eq_none_iff (needle text : Text) :
    cut? needle text = none ↔ ¬ needle <:+: text := by
  induction text with
  | nil =>
    rw [cut?, List.infix_nil]
    cases needle with
    | nil => simp
    | cons c needle => simp
  | cons c text ih =>
    -- an occurrence is at the front or in the rest, and the search tries them in this order
    rw [cut?, List.infix_cons_iff, not_or]
    by_cases hfront : needle.isPrefixOf (c :: text) = true
    · rw [if_pos hfront]
      simp [List.isPrefixOf_iff_prefix.mp hfront]
    · rw [if_neg hfront, Option.map_eq_none_iff, ih]
      have hnot : ¬ needle <+: c :: text := fun h => hfront (List.isPrefixOf_iff_prefix.mpr h)
      simp [hnot]

lemma exists_cut?_of_isInfix {needle text : Text} (h : needle <:+: text) :
    ∃ before after, cut? needle text = some (before, after) := by
  have hsome : cut? needle text ≠ none := by
    rw [ne_eq, cut?_eq_none_iff, not_not]
    exact h
  obtain ⟨⟨before, after⟩, hcut⟩ := Option.ne_none_iff_exists'.mp hsome
  exact ⟨before, after, hcut⟩

/-- What follows does not change what is found. -/
theorem cut?_append {needle text before after : Text}
    (h : cut? needle text = some (before, after)) (more : Text) :
    cut? needle (text ++ more) = some (before, after ++ more) := by
  have hfits {text before after : Text} (h : cut? needle text = some (before, after)) :
      needle.length ≤ text.length := by
    rw [eq_append_of_cut? h, List.length_append, List.length_append]
    omega
  induction text generalizing before with
  | nil =>
    rw [cut?] at h
    split at h
    · next hempty =>
      rw [List.isEmpty_iff] at hempty
      cases h
      rw [hempty]
      cases more <;> rfl
    · cases h
  | cons c text ih =>
    rw [List.cons_append, cut?]
    have hlength := hfits h
    -- the needle is no longer than the text, so it is at the front of both or of neither
    have hsame : needle.isPrefixOf (c :: (text ++ more)) = needle.isPrefixOf (c :: text) := by
      rw [Bool.eq_iff_iff, List.isPrefixOf_iff_prefix, List.isPrefixOf_iff_prefix,
        ← List.cons_append]
      constructor
      · intro hfront
        exact List.prefix_of_prefix_length_le hfront (List.prefix_append _ _) hlength
      · intro hfront
        exact hfront.trans (List.prefix_append _ _)
    rw [hsame]
    rw [cut?] at h
    split at h
    · next hfront =>
      cases h
      rw [if_pos hfront, ← List.cons_append, List.drop_append_of_le_length hlength]
    · next hfront =>
      obtain ⟨⟨front, back⟩, hcut, heq⟩ := Option.map_eq_some_iff.mp h
      cases heq
      rw [if_neg hfront, ih hcut]
      rfl

lemma cut?_singleton_append {c : Char} {before : Text} (h : c ∉ before) (after : Text) :
    cut? [c] (before ++ c :: after) = some (before, after) := by
  induction before with
  | nil => simp [cut?]
  | cons d before ih =>
    rw [List.mem_cons, not_or] at h
    rw [List.cons_append, cut?, ih h.2]
    simp [h.1]

lemma cut?_singleton_of_not_mem {c : Char} {text : Text} (h : c ∉ text) :
    cut? [c] text = none := by
  rw [cut?_eq_none_iff, List.singleton_infix_iff]
  exact h

/-! ## Runs -/

/-- Behind a run of the characters of a class, there is none of them. -/
lemma not_of_mem_head?_dropWhile {p : Char → Bool} {text : Text} {c : Char}
    (h : c ∈ (text.dropWhile p).head?) : p c = false := by
  have hhead := List.head?_dropWhile_not p text
  rw [Option.mem_def.mp h] at hhead
  exact hhead

/-- Where a run of the characters of a class ends, all of it is taken. -/
lemma span_append {p : Char → Bool} {front back : Text} (hfront : ∀ c ∈ front, p c = true)
    (hback : ∀ c ∈ back.head?, p c = false) :
    (front ++ back).takeWhile p = front ∧ (front ++ back).dropWhile p = back := by
  have hstop : back.takeWhile p = [] ∧ back.dropWhile p = back := by
    cases back with
    | nil => exact ⟨rfl, rfl⟩
    | cons c back =>
      have hc : ¬ p c = true := Bool.eq_false_iff.mp (hback c rfl)
      exact ⟨List.takeWhile_cons_of_neg hc, List.dropWhile_cons_of_neg hc⟩
  rw [List.takeWhile_append_of_pos hfront, List.dropWhile_append_of_pos hfront, hstop.1, hstop.2,
    List.append_nil]
  exact ⟨rfl, rfl⟩

end KernelCensus.Text
