import KernelCensus.Text.Basic

/-!
# UTF-8

Text is written to files as UTF-8 and read from them in two ways. Configurations have to be
well-formed. Sources and logs are read whatever they hold: each maximal ill-formed part, that is
each longest start of a character that the next byte does not continue, reads as one U+FFFD.
-/

namespace KernelCensus

abbrev Bytes := List UInt8

namespace Utf8

/-- The UTF-8 form of a text. -/
def encode (text : Text) : Bytes := text.flatMap String.utf8EncodeChar

/-- Which bytes may follow a lead byte: how many there are, and the range of the first of them.
The range keeps out overlong forms, surrogates and codes above U+10FFFF. -/
structure Tail where
  count : Nat
  /-- The least first following byte. -/
  low : UInt8
  /-- The greatest first following byte. -/
  high : UInt8

/-- The tail that a lead byte asks for, or `none` for a byte that starts no character. -/
def Tail.ofLead? (lead : UInt8) : Option Tail :=
  if lead < 0x80 then some ⟨0, 0x80, 0xBF⟩
  else if lead < 0xC2 then none
  else if lead < 0xE0 then some ⟨1, 0x80, 0xBF⟩
  else if lead = 0xE0 then some ⟨2, 0xA0, 0xBF⟩
  else if lead = 0xED then some ⟨2, 0x80, 0x9F⟩
  else if lead < 0xF0 then some ⟨2, 0x80, 0xBF⟩
  else if lead = 0xF0 then some ⟨3, 0x90, 0xBF⟩
  else if lead < 0xF4 then some ⟨3, 0x80, 0xBF⟩
  else if lead = 0xF4 then some ⟨3, 0x80, 0x8F⟩
  else none

/-- The payload of a lead byte that is followed by `count` others. -/
def leadBits (lead : UInt8) : Nat → Nat
  | 0 => lead.toNat
  | 1 => lead.toNat % 0x20
  | 2 => lead.toNat % 0x10
  | _ => lead.toNat % 0x08

/-- Reads `count` continuation bytes, the first between `low` and `high`, onto the code read so
far. Answers the whole code, or `none` at the first byte that does not continue it, and the bytes
that are left. -/
def readTail (low high : UInt8) : Nat → Nat → Bytes → Option Nat × Bytes
  | 0, code, bytes => (some code, bytes)
  | _ + 1, _, [] => (none, [])
  | count + 1, code, byte :: bytes =>
    if low ≤ byte && byte ≤ high then
      readTail 0x80 0xBF count (code * 0x40 + byte.toNat % 0x40) bytes
    else (none, byte :: bytes)

/-- Reading a tail leaves no more bytes than it was given. -/
theorem readTail_length_le (low high : UInt8) (count code : Nat) (bytes : Bytes) :
    (readTail low high count code bytes).2.length ≤ bytes.length := by
  fun_induction readTail low high count code bytes with
  | case1 => exact Nat.le_refl _
  | case2 => exact Nat.le_refl _
  | case3 low high count code byte bytes h ih => exact Nat.le_succ_of_le ih
  | case4 => exact Nat.le_refl _

/-- The front of a byte string that starts with `lead`: a character, or `none` for an ill-formed
part, and the bytes after it. -/
def front (lead : UInt8) (bytes : Bytes) : Option Char × Bytes :=
  match Tail.ofLead? lead with
  | none => (none, bytes)
  | some tail =>
    let read := readTail tail.low tail.high tail.count (leadBits lead tail.count) bytes
    (read.1.map Char.ofNat, read.2)

/-- The front takes at least the lead byte. -/
theorem front_length_le (lead : UInt8) (bytes : Bytes) :
    (front lead bytes).2.length ≤ bytes.length := by
  unfold front
  split
  · exact Nat.le_refl _
  · exact readTail_length_le ..

/-- The characters and, as `none`, the ill-formed parts of a byte string, in order. -/
def parts : Bytes → List (Option Char)
  | [] => []
  | lead :: bytes => (front lead bytes).1 :: parts (front lead bytes).2
termination_by bytes => bytes.length
decreasing_by exact Nat.lt_succ_of_le (front_length_le lead bytes)

/-- The text of a byte string, with U+FFFD for each ill-formed part. -/
def decodeLossy (bytes : Bytes) : Text :=
  (parts bytes).map fun part => part.getD '\uFFFD'

/-- The text of a byte string that is well-formed UTF-8. -/
def decode? (bytes : Bytes) : Option Text :=
  (parts bytes).mapM id

end Utf8

end KernelCensus
