import KernelCensus.Codec.Measurement
import KernelCensus.Proofs.Number.Decimal
import KernelCensus.Proofs.Text.Cut
import Mathlib

/-!
# Counts as floating-point numbers

A count rounds to a finite number: its binade is far below the last one, and the digits of its
significand fill 53 bits at most, even after rounding up.
-/

namespace KernelCensus

namespace Binary64

lemma roundDiv_le (num den : Nat) : roundDiv num den ≤ num / den + 1 := by
  unfold roundDiv
  dsimp only
  split <;> omega

lemma floorLog2_one {n : Nat} (hn : n ≠ 0) : floorLog2 n 1 = n.log2 := by
  have hlog : Nat.log2 1 = 0 := by decide
  have hle : ¬ n < 2 ^ n.log2 := Nat.not_lt.mpr (Nat.log2_self_le hn)
  simp only [floorLog2, hlog]
  have hneg : (-((n.log2 : Int) - (0 : Nat))).toNat = 0 := by omega
  have hpos : ((n.log2 : Int) - (0 : Nat)).toNat = n.log2 := by omega
  rw [hneg, hpos, Nat.shiftLeft_zero, Nat.one_shiftLeft, if_neg hle]
  omega

/-- The significand of a natural number in its binade has 53 bits. -/
lemma significand_lt (n : Nat) :
    (n <<< (-((n.log2 : Int) - 52)).toNat) / (1 <<< ((n.log2 : Int) - 52).toNat) < 2 ^ 53 := by
  have hlt : n < 2 ^ (n.log2 + 1) := Nat.lt_log2_self
  rw [Nat.one_shiftLeft, Nat.shiftLeft_eq]
  refine Nat.div_lt_of_lt_mul ?_
  rcases Nat.le_total n.log2 52 with hsmall | hlarge
  · have hdown : ((n.log2 : Int) - 52).toNat = 0 := by omega
    have hup : (-((n.log2 : Int) - 52)).toNat = 52 - n.log2 := by omega
    have hpow : 2 ^ 53 = 2 ^ (n.log2 + 1) * 2 ^ (52 - n.log2) := by
      rw [← Nat.pow_add]
      congr 1
      omega
    rw [hdown, hup, Nat.pow_zero, Nat.one_mul, hpow]
    exact Nat.mul_lt_mul_of_pos_right hlt (Nat.two_pow_pos _)
  · have hdown : ((n.log2 : Int) - 52).toNat = n.log2 - 52 := by omega
    have hup : (-((n.log2 : Int) - 52)).toNat = 0 := by omega
    have hpow : 2 ^ (n.log2 - 52) * 2 ^ 53 = 2 ^ (n.log2 + 1) := by
      rw [← Nat.pow_add]
      congr 1
      omega
    rw [hdown, hup, hpow, Nat.pow_zero, Nat.mul_one]
    exact hlt

/-- A natural number below the last binade rounds to a finite number. -/
theorem ofRatio_one_lt {n : Nat} (hn : n ≠ 0) (hlog : n.log2 ≤ 1022) : ofRatio n 1 < infinity := by
  have hunit : max (floorLog2 n 1 - 52) leastExponent = (n.log2 : Int) - 52 := by
    rw [floorLog2_one hn, leastExponent]
    omega
  have hexponent : ((n.log2 : Int) - 52 - leastExponent).toNat ≤ 2044 := by
    rw [leastExponent]
    omega
  have hdigits := roundDiv_le (n <<< (-((n.log2 : Int) - 52)).toNat)
    (1 <<< ((n.log2 : Int) - 52).toNat)
  have hsignificand := significand_lt n
  have hinfinity : infinity = 2047 * 2 ^ 52 := by decide
  rw [ofRatio, hunit]
  refine Nat.lt_of_le_of_lt (Nat.min_le_right _ _) ?_
  rw [Nat.shiftLeft_eq _ 52, hinfinity]
  have hscaled := Nat.mul_le_mul_right (2 ^ 52) hexponent
  omega

/-- A count rounds to a finite number. -/
theorem ofDecimal_lt {n : Nat} (hn : n < Json.countLimit) : ofDecimal n 0 < infinity := by
  have hlimit : n < 2 ^ 64 := hn
  unfold ofDecimal
  dsimp only
  split
  · decide
  · next hzero =>
    have hlength : (Text.ofNat n).length ≤ 20 :=
      (Nat.length_toDigits_le_iff (by decide) (by decide)).mpr (by omega)
    have hlog : n.log2 < 64 := (Nat.log2_lt hzero).mpr hlimit
    have hone : Nat.pow 10 (0 : Int).toNat = 1 := rfl
    rw [if_neg (by omega), if_neg (by omega), Int.neg_zero, hone, Nat.mul_one]
    exact ofRatio_one_lt hzero (by omega)

end Binary64

/-- The digits of a number stay when letters are put in lower case. -/
lemma Text.lowerAscii_ofNat (n : Nat) : lowerAscii (ofNat n) = ofNat n := by
  refine (List.map_congr_left fun c hc => ?_).trans (List.map_id _)
  have hdigit : c.isDigit = true := isDigit_of_mem_ofNat hc
  have hupper : ¬ (c.val ≥ 'A'.val ∧ c.val ≤ 'Z'.val) := by
    simp only [Char.isDigit, Bool.and_eq_true, decide_eq_true_eq, ge_iff_le,
      UInt32.le_iff_toNat_le] at hdigit ⊢
    have hnine : '9'.val.toNat = 57 := rfl
    have hletter : 'A'.val.toNat = 65 := rfl
    omega
  rw [Char.toLower, dif_neg hupper, id]

/-- The digits of a number are no word that has a letter. -/
lemma Text.ofNat_ne (n : Nat) {word : Text} (letter : Char) (hmem : letter ∈ word)
    (hletter : letter.isDigit = false) : ofNat n ≠ word := by
  intro heq
  have hdigit : letter.isDigit = true := isDigit_of_mem_ofNat (heq ▸ hmem)
  exact absurd (hdigit.symm.trans hletter) (by decide)

namespace Json

/-- A count is a finite number. -/
theorem isFinite_ofNat {n : Nat} (hn : n < countLimit) : isFinite (Text.ofNat n) = true := by
  obtain ⟨c, digits, heq⟩ := List.exists_cons_of_ne_nil (Text.ofNat_ne_nil n)
  have hdigit : c.isDigit = true := Text.isDigit_of_mem_ofNat (heq ▸ List.mem_cons_self)
  have hsign : Binary64.splitSign (Text.ofNat n) = (false, Text.ofNat n) := by
    rw [heq]
    unfold Binary64.splitSign
    split
    · next h => exact absurd ((List.cons.inj h).1 ▸ hdigit) (by decide)
    · next h => exact absurd ((List.cons.inj h).1 ▸ hdigit) (by decide)
    · rfl
  have hall : ∀ c ∈ Text.ofNat n, c.isDigit = true := fun c hc => Text.isDigit_of_mem_ofNat hc
  have hend : ∀ c ∈ ([] : Text).head?, c.isDigit = false := fun _ h => nomatch h
  have hsplit := Text.span_append hall hend
  rw [List.append_nil] at hsplit
  have hpoint : Binary64.splitPoint (Text.ofNat n) = (Text.ofNat n, [], []) := by
    simp only [Binary64.splitPoint, hsplit]
  have hdecimal : Binary64.decimal? (Text.ofNat n) = some (Binary64.ofDecimal n 0) := by
    simp [Binary64.decimal?, hpoint, Text.ofNat_ne_nil, Binary64.exponent?, Text.ofDigits_ofNat]
  have hinf : Text.ofNat n ≠ "inf" := Text.ofNat_ne n 'i' (by decide) rfl
  have hinfinity : Text.ofNat n ≠ "infinity" := Text.ofNat_ne n 'i' (by decide) rfl
  have hnan : Text.ofNat n ≠ "nan" := Text.ofNat_ne n 'n' (by decide) rfl
  have hparse : Binary64.parse? (Text.ofNat n) =
      some (.signed false (Binary64.ofDecimal n 0)) := by
    rw [Binary64.parse?, hsign]
    dsimp only
    rw [Text.lowerAscii_ofNat, if_neg (not_or.mpr ⟨hinf, hinfinity⟩), if_neg hnan, hdecimal]
    rfl
  rw [isFinite, hparse]
  exact decide_eq_true (Binary64.ofDecimal_lt hn)

end Json

end KernelCensus
