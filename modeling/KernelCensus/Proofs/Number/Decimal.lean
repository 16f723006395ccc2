import KernelCensus.Number.Natural
import Mathlib.Tactic.Common

/-!
# Decimal numbers

The decimal digits of a number read as the number, and the first of them is zero only for zero.
-/

namespace KernelCensus.Text

lemma isDigit_of_mem_ofNat {n : Nat} {c : Char} (h : c ∈ ofNat n) : c.isDigit = true :=
  Nat.isDigit_of_mem_toDigits (by decide) (by decide) h

lemma ofNat_ne_nil (n : Nat) : ofNat n ≠ [] := Nat.toDigits_ne_nil

/-- The digits of a number read as the number. -/
theorem ofDigits_ofNat (n : Nat) : Natural.ofDigits (ofNat n) = n :=
  Nat.ofDigitChars_toDigits (by decide) (by decide)

lemma head?_ofNat_ne {n : Nat} (h : 0 < n) : (ofNat n).head? ≠ some '0' := by
  induction n using Nat.strongRecOn with
  | _ n ih =>
    rw [ofNat, Nat.toDigits_eq_if (by decide)]
    split
    · next hlt =>
      have hall : ∀ n < 10, 0 < n → [n.digitChar].head? ≠ some '0' := by decide
      exact hall n hlt h
    · -- the first digit is that of the quotient
      have hrest := ih (n / 10) (by omega) (by omega)
      obtain ⟨c, digits, heq⟩ := List.exists_cons_of_ne_nil (ofNat_ne_nil (n / 10))
      rw [heq] at hrest
      rw [ofNat] at heq
      rwa [heq]

lemma ofNat_ne_zero_cons (n : Nat) (c : Char) (rest : Text) : ofNat n ≠ '0' :: c :: rest := by
  intro heq
  rcases Nat.eq_zero_or_pos n with rfl | hpos
  · cases heq
  · exact head?_ofNat_ne hpos (by rw [heq]; rfl)

end KernelCensus.Text
