import KernelCensus.Proofs.Text.Cut
import KernelCensus.Text.Utf8

/-!
# Byte offsets

A place in a text can be given by the number of bytes before it in the UTF-8 form of the text. Not
every number is such an offset: a text can be cut only between two of its characters. A cut at a
byte offset is a partial function, so that an offset which is out of place shows.

* `IsBoundary`: the offsets between characters.
* `splitAtByte?_eq_some_iff`, `isBoundary_iff`: where a text can be cut, and into what.
-/

namespace KernelCensus.Text

/-- How many bytes the UTF-8 form of a text has. -/
def byteLength (text : Text) : Nat := (Utf8.encode text).length

/-- Whether so many bytes are the UTF-8 form of a front of the text. -/
def IsBoundary (text : Text) (offset : Nat) : Prop :=
  ∃ front back, text = front ++ back ∧ byteLength front = offset

/-- The text before a byte offset and the text behind it. There is no answer if the offset is behind
the end of the text or within a character. -/
def splitAtByte? : Nat → Text → Option (Text × Text)
  | 0, text => some ([], text)
  | _ + 1, [] => none
  | offset + 1, c :: rest =>
    if c.utf8Size ≤ offset + 1 then
      (splitAtByte? (offset + 1 - c.utf8Size) rest).map fun parts => (c :: parts.1, parts.2)
    else none

/-- The text before a byte offset. -/
def sliceTo? (text : Text) (offset : Nat) : Option Text := (splitAtByte? offset text).map (·.1)

/-- The text behind a byte offset. -/
def sliceFrom? (text : Text) (offset : Nat) : Option Text := (splitAtByte? offset text).map (·.2)

/-- The byte offset of the first occurrence of `needle`. -/
def offsetOf? (needle text : Text) : Option Nat :=
  (cut? needle text).map fun parts => byteLength parts.1

/-! ## Lengths -/

@[simp] lemma byteLength_nil : byteLength [] = 0 := rfl

@[simp] lemma byteLength_cons (c : Char) (text : Text) :
    byteLength (c :: text) = c.utf8Size + byteLength text := by
  rw [byteLength, Utf8.encode, List.flatMap_cons, List.length_append, String.length_utf8EncodeChar]
  rfl

@[simp] lemma byteLength_append (front back : Text) :
    byteLength (front ++ back) = byteLength front + byteLength back := by
  rw [byteLength, Utf8.encode, List.flatMap_append, List.length_append]
  rfl

lemma byteLength_pos {text : Text} (h : text ≠ []) : 0 < byteLength text := by
  obtain ⟨c, rest, rfl⟩ := List.exists_cons_of_ne_nil h
  have hc := c.utf8Size_pos
  rw [byteLength_cons]
  omega

/-- Of two fronts of a text, the one with no more bytes is a front of the other. -/
lemma isPrefix_of_byteLength_le {text first second : Text} (hfirst : first <+: text)
    (hsecond : second <+: text) (hle : byteLength first ≤ byteLength second) :
    first <+: second := by
  rcases List.prefix_or_prefix_of_prefix hfirst hsecond with h | ⟨rest, rfl⟩
  · exact h
  · cases rest with
    | nil =>
      rw [List.append_nil]
    | cons c rest =>
      have hc := c.utf8Size_pos
      rw [byteLength_append, byteLength_cons] at hle
      omega

/-! ## Cuts -/

/-- A text is cut behind the front that has so many bytes. -/
lemma splitAtByte?_append (front back : Text) :
    splitAtByte? (byteLength front) (front ++ back) = some (front, back) := by
  induction front with
  | nil =>
    rw [byteLength_nil, List.nil_append, splitAtByte?]
  | cons c front ih =>
    have hc := c.utf8Size_pos
    obtain ⟨offset, hoffset⟩ : ∃ offset, c.utf8Size + byteLength front = offset + 1 :=
      ⟨c.utf8Size + byteLength front - 1, by omega⟩
    have hrest : offset + 1 - c.utf8Size = byteLength front := by omega
    rw [byteLength_cons, hoffset, List.cons_append, splitAtByte?, if_pos (by omega), hrest, ih]
    rfl

/-- A text is cut at an offset if and only if the offset is the number of bytes before the cut. -/
theorem splitAtByte?_eq_some_iff {offset : Nat} {text front back : Text} :
    splitAtByte? offset text = some (front, back) ↔
      text = front ++ back ∧ byteLength front = offset := by
  constructor
  · intro h
    induction offset, text using splitAtByte?.induct generalizing front with
    | case1 text =>
      rw [splitAtByte?] at h
      cases h
      exact ⟨rfl, rfl⟩
    | case2 offset =>
      rw [splitAtByte?] at h
      cases h
    | case3 offset c rest hle ih =>
      rw [splitAtByte?, if_pos hle] at h
      obtain ⟨⟨before, after⟩, hrest, heq⟩ := Option.map_eq_some_iff.mp h
      cases heq
      obtain ⟨hsplit, hlength⟩ := ih hrest
      refine ⟨congrArg (c :: ·) hsplit, ?_⟩
      rw [byteLength_cons, hlength]
      omega
    | case4 offset c rest hlt =>
      rw [splitAtByte?, if_neg hlt] at h
      cases h
  · rintro ⟨rfl, rfl⟩
    exact splitAtByte?_append front back

@[simp] lemma sliceTo?_append (front back : Text) :
    sliceTo? (front ++ back) (byteLength front) = some front := by
  rw [sliceTo?, splitAtByte?_append]
  rfl

@[simp] lemma sliceFrom?_append (front back : Text) :
    sliceFrom? (front ++ back) (byteLength front) = some back := by
  rw [sliceFrom?, splitAtByte?_append]
  rfl

/-- The length of a front of a text is an offset between characters. -/
lemma isBoundary_of_isPrefix {front text : Text} (h : front <+: text) :
    IsBoundary text (byteLength front) := by
  obtain ⟨back, rfl⟩ := h
  exact ⟨front, back, rfl, rfl⟩

/-- A text can be cut at the offsets between its characters, and nowhere else. -/
theorem isBoundary_iff (text : Text) (offset : Nat) :
    IsBoundary text offset ↔ (splitAtByte? offset text).isSome = true := by
  constructor
  · rintro ⟨front, back, rfl, rfl⟩
    rw [splitAtByte?_append]
    rfl
  · intro h
    obtain ⟨⟨front, back⟩, hparts⟩ := Option.isSome_iff_exists.mp h
    obtain ⟨hsplit, hlength⟩ := splitAtByte?_eq_some_iff.mp hparts
    exact ⟨front, back, hsplit, hlength⟩

end KernelCensus.Text
