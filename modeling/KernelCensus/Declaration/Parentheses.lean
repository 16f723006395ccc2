import KernelCensus.Text.Basic

/-!
# Matching parentheses
-/

namespace KernelCensus.Parentheses

/-- Splits the text after an opening parenthesis at the parenthesis that closes it. The answer is
what stands before and what stands after the closing one; `depth` counts the parentheses opened in
between. -/
def closing? : Nat → Text → Option (Text × Text)
  | _, [] => none
  | depth, '(' :: rest => (closing? (depth + 1) rest).map fun parts => ('(' :: parts.1, parts.2)
  | 0, ')' :: rest => some ([], rest)
  | depth + 1, ')' :: rest => (closing? depth rest).map fun parts => (')' :: parts.1, parts.2)
  | depth, c :: rest => (closing? depth rest).map fun parts => (c :: parts.1, parts.2)

/-- The text splits into the part inside, the closing parenthesis, and the part after it. -/
theorem eq_append_of_closing? {depth : Nat} {text inner after : Text}
    (h : closing? depth text = some (inner, after)) : text = inner ++ ')' :: after := by
  fun_induction closing? depth text generalizing inner with
  | case1 => simp at h
  | case2 depth rest ih =>
    obtain ⟨⟨mid, tail⟩, hp, heq⟩ := Option.map_eq_some_iff.1 h
    cases heq
    simp [ih hp]
  | case3 => cases h; rfl
  | case4 depth rest ih =>
    obtain ⟨⟨mid, tail⟩, hp, heq⟩ := Option.map_eq_some_iff.1 h
    cases heq
    simp [ih hp]
  | case5 depth c rest _ _ _ ih =>
    obtain ⟨⟨mid, tail⟩, hp, heq⟩ := Option.map_eq_some_iff.1 h
    cases heq
    simp [ih hp]

/-- What follows the closing parenthesis is shorter than the whole. -/
theorem length_after_lt {depth : Nat} {text inner after : Text}
    (h : closing? depth text = some (inner, after)) : after.length < text.length := by
  rw [eq_append_of_closing? h]
  simp only [List.length_append, List.length_cons]
  omega

end KernelCensus.Parentheses
