import KernelCensus.Text.Utf8
import Mathlib.Tactic.Common

/-!
# UTF-8 read back

A text is decoded from its UTF-8 form. The lead byte of a character tells how many bytes follow and
carries the high bits of the code, and each byte that follows carries six bits more.

* `front_utf8EncodeChar`: one character.
* `decode?_encode`: texts.
-/

namespace KernelCensus.Utf8

/-- The tail that a lead byte asks for, by the number of the byte. -/
lemma ofLead?_ofNat {n : Nat} (hn : n < 256) :
    Tail.ofLead? (UInt8.ofNat n) =
      if n < 0x80 then some ⟨0, 0x80, 0xBF⟩
      else if n < 0xC2 then none
      else if n < 0xE0 then some ⟨1, 0x80, 0xBF⟩
      else if n = 0xE0 then some ⟨2, 0xA0, 0xBF⟩
      else if n = 0xED then some ⟨2, 0x80, 0x9F⟩
      else if n < 0xF0 then some ⟨2, 0x80, 0xBF⟩
      else if n = 0xF0 then some ⟨3, 0x90, 0xBF⟩
      else if n < 0xF4 then some ⟨3, 0x80, 0xBF⟩
      else if n = 0xF4 then some ⟨3, 0x80, 0x8F⟩
      else none := by
  have htoNat : (UInt8.ofNat n).toNat = n := UInt8.toNat_ofNat_of_lt' hn
  simp only [Tail.ofLead?, UInt8.lt_iff_toNat_lt, ← UInt8.toNat_inj, htoNat]
  rfl

/-- A byte in the range of a continuation adds its six low bits to the code. -/
lemma readTail_cons {low high : UInt8} {n : Nat} (hn : n < 256) (hlow : low.toNat ≤ n)
    (hhigh : n ≤ high.toNat) (count code : Nat) (bytes : Bytes) :
    readTail low high (count + 1) code (UInt8.ofNat n :: bytes) =
      readTail 0x80 0xBF count (code * 0x40 + n % 0x40) bytes := by
  have htoNat : (UInt8.ofNat n).toNat = n := UInt8.toNat_ofNat_of_lt' hn
  have hrange : (low ≤ UInt8.ofNat n && UInt8.ofNat n ≤ high) = true := by
    simp only [UInt8.le_iff_toNat_le, htoNat, hlow, hhigh, decide_true, Bool.and_self]
  rw [readTail, if_pos hrange, htoNat]

/-- A byte for six bits that is not the first after the lead byte adds them to the code. -/
lemma readTail_continuation (count code bits : Nat) (bytes : Bytes) :
    readTail 0x80 0xBF (count + 1) code (UInt8.ofNat (bits % 0x40 + 0x80) :: bytes) =
      readTail 0x80 0xBF count (code * 0x40 + bits % 0x40) bytes := by
  have hlow : (0x80 : UInt8).toNat ≤ bits % 0x40 + 0x80 := Nat.le_add_left _ _
  have hhigh : bits % 0x40 + 0x80 ≤ (0xBF : UInt8).toNat := by
    show bits % 0x40 + 0x80 ≤ 0xBF
    omega
  rw [readTail_cons (by omega) hlow hhigh]
  congr 2
  omega

/-- A character is at the front of a byte string if the tail that its lead byte asks for is read as
its code. -/
lemma front_eq {lead : UInt8} {tail : Tail} {bytes rest : Bytes} {code : Nat}
    (htail : Tail.ofLead? lead = some tail)
    (hread : readTail tail.low tail.high tail.count (leadBits lead tail.count) bytes =
      (some code, rest)) : front lead bytes = (some (Char.ofNat code), rest) := by
  rw [front, htail]
  show ((readTail tail.low tail.high tail.count (leadBits lead tail.count) bytes).1.map Char.ofNat,
    (readTail tail.low tail.high tail.count (leadBits lead tail.count) bytes).2) = _
  rw [hread, Option.map_some]

section
variable {v : Nat} (rest : Bytes)

/-- A code of one byte. -/
lemma front_one (h : v ≤ 0x7f) : front (UInt8.ofNat v) rest = (some (Char.ofNat v), rest) := by
  have hn : v < 256 := by omega
  have hlead : Tail.ofLead? (UInt8.ofNat v) = some ⟨0, 0x80, 0xBF⟩ := by
    rw [ofLead?_ofNat hn, if_pos (by omega)]
  refine front_eq hlead ?_
  rw [leadBits, UInt8.toNat_ofNat_of_lt' hn, readTail]

/-- A code of two bytes. -/
lemma front_two (hlow : ¬ v ≤ 0x7f) (hhigh : v ≤ 0x7ff) :
    front (UInt8.ofNat (v / 64 % 0x20 + 0xc0)) (UInt8.ofNat (v % 0x40 + 0x80) :: rest) =
      (some (Char.ofNat v), rest) := by
  have hn : v / 64 % 0x20 + 0xc0 < 256 := by omega
  have hlead : Tail.ofLead? (UInt8.ofNat (v / 64 % 0x20 + 0xc0)) = some ⟨1, 0x80, 0xBF⟩ := by
    rw [ofLead?_ofNat hn, if_neg (by omega), if_neg (by omega), if_pos (by omega)]
  have hcode : (v / 64 % 0x20 + 0xc0) % 0x20 * 0x40 + v % 0x40 = v := by omega
  refine front_eq hlead ?_
  rw [leadBits, UInt8.toNat_ofNat_of_lt' hn, readTail_continuation, readTail, hcode]

/-- The range of the second of three bytes keeps out the overlong forms and the surrogates. -/
lemma exists_ofLead?_three (hlow : ¬ v ≤ 0x7ff) (hhigh : v ≤ 0xffff)
    (hvalid : v < 0xD800 ∨ 0xDFFF < v) :
    ∃ low high, Tail.ofLead? (UInt8.ofNat (v / 4096 % 0x10 + 0xe0)) = some ⟨2, low, high⟩ ∧
      low.toNat ≤ v / 64 % 0x40 + 0x80 ∧ v / 64 % 0x40 + 0x80 ≤ high.toNat := by
  rw [ofLead?_ofNat (by omega), if_neg (by omega), if_neg (by omega), if_neg (by omega)]
  split
  · refine ⟨0xA0, 0xBF, rfl, ?_, ?_⟩
    · show 0xA0 ≤ _
      omega
    · show _ ≤ 0xBF
      omega
  · split
    · refine ⟨0x80, 0x9F, rfl, ?_, ?_⟩
      · show 0x80 ≤ _
        omega
      · show _ ≤ 0x9F
        omega
    · refine ⟨0x80, 0xBF, ?_, ?_, ?_⟩
      · rw [if_pos (by omega)]
      · show 0x80 ≤ _
        omega
      · show _ ≤ 0xBF
        omega

/-- A code of three bytes. -/
lemma front_three (hlow : ¬ v ≤ 0x7ff) (hhigh : v ≤ 0xffff) (hvalid : v < 0xD800 ∨ 0xDFFF < v) :
    front (UInt8.ofNat (v / 4096 % 0x10 + 0xe0))
        (UInt8.ofNat (v / 64 % 0x40 + 0x80) :: UInt8.ofNat (v % 0x40 + 0x80) :: rest) =
      (some (Char.ofNat v), rest) := by
  obtain ⟨low, high, hlead, hlow', hhigh'⟩ := exists_ofLead?_three hlow hhigh hvalid
  have hn : v / 4096 % 0x10 + 0xe0 < 256 := by omega
  have hn' : v / 64 % 0x40 + 0x80 < 256 := by omega
  have hcode : ((v / 4096 % 0x10 + 0xe0) % 0x10 * 0x40 + (v / 64 % 0x40 + 0x80) % 0x40) * 0x40 +
      v % 0x40 = v := by omega
  refine front_eq hlead ?_
  rw [leadBits, UInt8.toNat_ofNat_of_lt' hn, readTail_cons hn' hlow' hhigh',
    readTail_continuation, readTail, hcode]

/-- The range of the second of four bytes keeps out the overlong forms and the codes that are too
great. -/
lemma exists_ofLead?_four (hlow : ¬ v ≤ 0xffff) (hvalid : v < 0x110000) :
    ∃ low high, Tail.ofLead? (UInt8.ofNat (v / 262144 % 0x08 + 0xf0)) = some ⟨3, low, high⟩ ∧
      low.toNat ≤ v / 4096 % 0x40 + 0x80 ∧ v / 4096 % 0x40 + 0x80 ≤ high.toNat := by
  rw [ofLead?_ofNat (by omega), if_neg (by omega), if_neg (by omega), if_neg (by omega),
    if_neg (by omega), if_neg (by omega), if_neg (by omega)]
  split
  · refine ⟨0x90, 0xBF, rfl, ?_, ?_⟩
    · show 0x90 ≤ _
      omega
    · show _ ≤ 0xBF
      omega
  · split
    · refine ⟨0x80, 0xBF, rfl, ?_, ?_⟩
      · show 0x80 ≤ _
        omega
      · show _ ≤ 0xBF
        omega
    · refine ⟨0x80, 0x8F, ?_, ?_, ?_⟩
      · rw [if_pos (by omega)]
      · show 0x80 ≤ _
        omega
      · show _ ≤ 0x8F
        omega

/-- A code of four bytes. -/
lemma front_four (hlow : ¬ v ≤ 0xffff) (hvalid : v < 0x110000) :
    front (UInt8.ofNat (v / 262144 % 0x08 + 0xf0))
        (UInt8.ofNat (v / 4096 % 0x40 + 0x80) :: UInt8.ofNat (v / 64 % 0x40 + 0x80) ::
          UInt8.ofNat (v % 0x40 + 0x80) :: rest) =
      (some (Char.ofNat v), rest) := by
  obtain ⟨low, high, hlead, hlow', hhigh'⟩ := exists_ofLead?_four hlow hvalid
  have hn : v / 262144 % 0x08 + 0xf0 < 256 := by omega
  have hn' : v / 4096 % 0x40 + 0x80 < 256 := by omega
  have hcode :
      (((v / 262144 % 0x08 + 0xf0) % 0x08 * 0x40 + (v / 4096 % 0x40 + 0x80) % 0x40) * 0x40 +
        v / 64 % 0x40) * 0x40 + v % 0x40 = v := by
    omega
  refine front_eq hlead ?_
  have hbits : leadBits (UInt8.ofNat (v / 262144 % 0x08 + 0xf0)) 3 =
      (UInt8.ofNat (v / 262144 % 0x08 + 0xf0)).toNat % 0x08 := rfl
  rw [hbits, UInt8.toNat_ofNat_of_lt' hn, readTail_cons hn' hlow' hhigh', readTail_continuation,
    readTail_continuation, readTail, hcode]

end

/-- A character is at the front of its UTF-8 form. -/
theorem front_utf8EncodeChar (c : Char) (rest : Bytes) :
    ∃ lead bytes, String.utf8EncodeChar c ++ rest = lead :: bytes ∧
      front lead bytes = (some c, rest) := by
  have hvalid : c.val.toNat < 0xD800 ∨ 0xDFFF < c.val.toNat ∧ c.val.toNat < 0x110000 := c.valid
  have hcode : Char.ofNat c.val.toNat = c := Char.ofNat_toNat c
  have hchar : (some (Char.ofNat c.val.toNat), rest) = (some c, rest) := by rw [hcode]
  unfold String.utf8EncodeChar
  dsimp only
  split
  · next hone => exact ⟨_, _, rfl, (front_one rest hone).trans hchar⟩
  · next hone =>
    split
    · next htwo => exact ⟨_, _, rfl, (front_two rest hone htwo).trans hchar⟩
    · next htwo =>
      split
      · next hthree =>
        have hpair := hvalid.imp_right And.left
        exact ⟨_, _, rfl, (front_three rest htwo hthree hpair).trans hchar⟩
      · next hthree => exact ⟨_, _, rfl, (front_four rest hthree (by omega)).trans hchar⟩

/-- A character is the first part of a byte string that starts with its UTF-8 form. -/
lemma parts_utf8EncodeChar_append (c : Char) (rest : Bytes) :
    parts (String.utf8EncodeChar c ++ rest) = some c :: parts rest := by
  obtain ⟨lead, bytes, heq, hfront⟩ := front_utf8EncodeChar c rest
  rw [heq, parts, hfront]

/-- A text is decoded from its UTF-8 form. -/
theorem decode?_encode (text : Text) : decode? (encode text) = some text := by
  rw [decode?]
  induction text with
  | nil => rw [encode, List.flatMap_nil, parts, List.mapM_nil, Option.pure_def]
  | cons c text ih =>
    rw [encode] at ih
    rw [encode, List.flatMap_cons, parts_utf8EncodeChar_append, List.mapM_cons, ih]
    rfl

/-- Texts with the same UTF-8 form are the same. -/
theorem encode_injective : Function.Injective encode := by
  intro text other heq
  have hdecode := congrArg decode? heq
  rw [decode?_encode, decode?_encode] at hdecode
  exact Option.some.inj hdecode

end KernelCensus.Utf8
