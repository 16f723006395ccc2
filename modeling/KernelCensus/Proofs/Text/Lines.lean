import KernelCensus.Text.Basic
import Mathlib.Tactic.Common

/-!
# Lines

A newline ends a line whatever follows it, so texts that end with a newline put their lines one
after another.
-/

namespace KernelCensus.Text

/-- A character that ends no line belongs to the first line. -/
lemma lines_cons {c : Char} {rest : Text} (hnewline : c ≠ '\n')
    (hreturn : c = '\r' → rest.head? ≠ some '\n') :
    lines (c :: rest) = (c :: (lines rest).head?.getD []) :: (lines rest).tail := by
  rw [lines]
  · cases lines rest <;> rfl
  · exact hnewline
  · rintro tail hc rfl
    exact hreturn hc rfl

lemma lines_ne_nil {text : Text} (h : text ≠ []) : lines text ≠ [] := by
  unfold lines
  split
  · exact absurd rfl h
  · exact List.cons_ne_nil _ _
  · exact List.cons_ne_nil _ _
  · split <;> exact List.cons_ne_nil _ _

/-- A newline ends a line, whatever follows. -/
theorem lines_append_newline (front back : Text) :
    lines (front ++ '\n' :: back) = lines (front ++ ['\n']) ++ lines back := by
  have hopen {c : Char} {rest : Text} (hnewline : c ≠ '\n')
      (hpair : ∀ tail, c = '\r' → rest = '\n' :: tail → False)
      (ih : lines (rest ++ '\n' :: back) = lines (rest ++ ['\n']) ++ lines back) :
      lines (c :: rest ++ '\n' :: back) = lines (c :: rest ++ ['\n']) ++ lines back := by
    cases rest with
    | nil =>
      -- a carriage return goes together with the newline
      by_cases hc : c = '\r'
      · rw [hc]
        rfl
      · have hreturn (tail : Text) : c = '\r' → tail.head? ≠ some '\n' := fun h => absurd h hc
        rw [List.cons_append, List.cons_append, lines_cons hnewline (hreturn _),
          lines_cons hnewline (hreturn _)]
        rfl
    | cons d rest =>
      have hreturn (tail : Text) : c = '\r' → (d :: rest ++ tail).head? ≠ some '\n' := by
        intro hc hd
        rw [List.cons_append, List.head?_cons, Option.some.injEq] at hd
        exact hpair rest hc (by rw [hd])
      obtain ⟨line, others, hlines⟩ := List.exists_cons_of_ne_nil
        (lines_ne_nil (List.append_ne_nil_of_left_ne_nil (List.cons_ne_nil d rest) ['\n']))
      show lines (c :: (d :: rest ++ '\n' :: back)) =
        lines (c :: (d :: rest ++ ['\n'])) ++ lines back
      rw [lines_cons hnewline (hreturn _), lines_cons hnewline (hreturn _), ih, hlines]
      rfl
  induction front using lines.induct with
  | case1 => rfl
  | case2 rest ih =>
    show [] :: lines (rest ++ '\n' :: back) = [] :: lines (rest ++ ['\n']) ++ lines back
    rw [ih]
    rfl
  | case3 rest ih =>
    show [] :: lines (rest ++ '\n' :: back) = [] :: lines (rest ++ ['\n']) ++ lines back
    rw [ih]
    rfl
  | case4 c rest hnewline hpair _ ih => exact hopen hnewline hpair ih
  | case5 c rest hnewline hpair _ _ _ ih => exact hopen hnewline hpair ih

/-- The lines of a text go on behind a text that ends with a newline. -/
theorem lines_append {front : Text} (h : front = [] ∨ front.getLast? = some '\n') (back : Text) :
    lines (front ++ back) = lines front ++ lines back := by
  rcases h with rfl | hlast
  · rfl
  · obtain ⟨init, rfl⟩ := List.getLast?_eq_some_iff.mp hlast
    rw [List.append_assoc]
    exact lines_append_newline init back

end KernelCensus.Text
