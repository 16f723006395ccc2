import KernelCensus.Proofs.Extraction.Captures
import KernelCensus.Proofs.Extraction.Normal

/-!
# The longest name

A name is searched for from the start of the text on, so the first end of the text that is a
qualified name is the longest one. In the head of a declaration, whose white space is single spaces
between letters, there is no white space behind it. So a declaration is named by the longest
qualified name that its head ends with, whatever stands before it, as long as something does.

* `Name.trailing?_eq_some_iff`: the search, by length.
* `Declaration.isSqueezed_head`: the heads of declarations.
* `signature?_eq_some_iff`: the signature of a captured declaration.
-/

namespace KernelCensus

open Unicode Text

namespace Name

/-- The longest qualified name that a text ends with, and what stands before it. -/
structure IsLongest (text before name : Text) : Prop where
  eq_append : text = before ++ name
  qualified : Qualified name
  longest : ∀ other, other <:+ text → Qualified other → other.length ≤ name.length

/-- No end of the text that is recognised is longer than the one that is found. -/
lemma length_le_of_trailing? {text before name other : Text}
    (h : trailing? text = some (before, name)) (hother : other <:+ text)
    (hspaced : isSpaced other = true) : other.length ≤ name.length := by
  induction text generalizing before with
  | nil => cases h
  | cons c text ih =>
    rw [trailing?] at h
    split at h
    · cases h
      exact hother.length_le
    · next hwhole =>
      obtain ⟨⟨front, back⟩, hrest, heq⟩ := Option.map_eq_some_iff.mp h
      cases heq
      rcases List.suffix_cons_iff.mp hother with rfl | hinside
      · exact absurd hspaced hwhole
      · exact ih hrest hinside

/-- If an end of the text is recognised, one is found. -/
lemma exists_trailing? {text other : Text} (hother : other <:+ text)
    (hspaced : isSpaced other = true) : ∃ before name, trailing? text = some (before, name) := by
  induction text with
  | nil =>
    rw [List.suffix_nil.mp hother] at hspaced
    cases hspaced
  | cons c text ih =>
    rw [trailing?]
    split
    · exact ⟨[], c :: text, rfl⟩
    · next hwhole =>
      rcases List.suffix_cons_iff.mp hother with rfl | hinside
      · exact absurd hspaced hwhole
      · obtain ⟨before, name, hrest⟩ := ih hinside
        exact ⟨c :: before, name, by rw [hrest]; rfl⟩

/-- What is found at the end of a text is the longest qualified name there, if the text does not end
with white space. -/
theorem trailing?_eq_some_iff {text : Text} (hlast : ∀ c ∈ text.getLast?, ¬ isWhiteSpace c = true)
    (before name : Text) : trailing? text = some (before, name) ↔ IsLongest text before name := by
  have hqualified {before name : Text} (h : trailing? text = some (before, name)) :
      Qualified name := by
    obtain ⟨plain, gap, rfl, hplain, hgap⟩ := exists_qualified_of_isSpaced (isSpaced_of_trailing? h)
    -- white space behind the name would be at the end of the text
    cases hcase : gap.getLast? with
    | none =>
      rw [List.getLast?_eq_none_iff.mp hcase, List.append_nil]
      exact hplain
    | some c =>
      refine absurd (hgap c (List.mem_of_getLast? hcase)) (hlast c ?_)
      rw [eq_append_of_trailing? h, List.getLast?_append, List.getLast?_append, hcase]
      rfl
  constructor
  · intro h
    exact ⟨eq_append_of_trailing? h, hqualified h,
      fun other hother hname => length_le_of_trailing? h hother hname.isSpaced⟩
  · intro h
    have hsuffix : name <:+ text := ⟨before, h.eq_append.symm⟩
    obtain ⟨before', name', hfound⟩ := exists_trailing? hsuffix h.qualified.isSpaced
    have heq := eq_append_of_trailing? hfound
    have hlonger := length_le_of_trailing? hfound hsuffix h.qualified.isSpaced
    have hshorter := h.longest name' ⟨before', heq.symm⟩ (hqualified hfound)
    obtain ⟨rfl, rfl⟩ := List.append_inj' (heq.symm.trans h.eq_append)
      (Nat.le_antisymm hshorter hlonger)
    exact hfound

end Name

namespace Declaration

/-- The head of a declaration is cut off the front of a squeezed text, without the space at its
end. -/
theorem isSqueezed_head {attributes : List Text} {text : Text} {declaration : Declaration}
    (h : ofText? attributes text = some declaration) : IsSqueezed declaration.head := by
  unfold ofText? at h
  simp only [Option.bind_eq_bind, Option.bind_eq_some_iff, Option.some.injEq] at h
  obtain ⟨bare, -, ⟨front, rest⟩, hcut, -, -, rfl⟩ := h
  have hfront : trimEnd front <+: squeeze bare := by
    rw [eq_append_of_cut? hcut, List.append_assoc]
    exact (trimEnd_isPrefix front).trans (List.prefix_append _ _)
  refine ⟨(singleSpaced_squeeze bare).of_isInfix hfront.isInfix, ?_, getLast?_trimEnd⟩
  intro c hc
  obtain ⟨after, heq⟩ := hfront
  refine (isSqueezed_squeeze bare).head c ?_
  rw [← heq, List.head?_append, Option.mem_def.mp hc]
  rfl

end Declaration

namespace Extraction

/-- The head of every declaration that is captured is squeezed. And a capture with a squeezed head
leads to a signature if and only if its head ends with a qualified name and something other than
white space stands before the longest one. The signature has that longest name without its white
space; its source, its parameters and whether it is a template are passed on as they are. -/
theorem signature?_eq_some_iff (source : SourceFile) :
    (∀ (markers : Markers) (phase : Phase) (code : Text) (capture : Capture),
      (phase.onCode markers code).2 = some capture →
        squeeze capture.declaration.head = capture.declaration.head) ∧
    ∀ capture : Capture, squeeze capture.declaration.head = capture.declaration.head →
      ∀ signature, capture.signature? source = some signature ↔
        ∃ before name, Name.IsLongest capture.declaration.head before name ∧
          isBlank before = false ∧
          signature = ⟨source, name.filter (fun c => !isWhiteSpace c),
            capture.declaration.parameters, capture.isTemplate⟩ := by
  constructor
  · intro markers phase code capture hcapture
    obtain ⟨buffer, hread⟩ := exists_buffer_of_onCode markers hcapture
    exact (Declaration.isSqueezed_head hread).squeeze_eq
  · intro capture hhead signature
    have hlast : ∀ c ∈ capture.declaration.head.getLast?, ¬ isWhiteSpace c = true := by
      rw [← hhead]
      exact (isSqueezed_squeeze _).last
    have hlongest := Name.trailing?_eq_some_iff hlast
    unfold Capture.signature? Capture.finding Declaration.name?
    constructor
    · intro h
      split at h
      · next plain hplain =>
        split at hplain
        · cases hplain
        · next before name htrailing =>
          split at hplain
          · cases hplain
          · next hbefore =>
            cases hplain
            cases h
            exact ⟨before, name, (hlongest before name).mp htrailing,
              Bool.eq_false_iff.mpr hbefore, rfl⟩
      · cases h
    · rintro ⟨before, name, hname, hbefore, rfl⟩
      rw [(hlongest before name).mpr hname]
      dsimp only
      rw [if_neg (Bool.eq_false_iff.mp hbefore)]
      rfl

/-- A return type that ends with an identifier belongs to the name if `::` follows it, and what
stands before its template arguments does not. -/
theorem signature?_eq_some_iff_scoped :
    let source := SourceFile.ofPath ⟨"a.cu".toList⟩
    let code := "  __global__ std :: vec<2>\tns1:: type ::f (int n);".toList
    let head := "__global__ std :: vec<2> ns1:: type ::f".toList
    let capture : Capture := ⟨3, true, ⟨head, "int n".toList⟩⟩
    (Phase.onCode Markers.default code (.armed 3 true)).2 = some capture ∧
      squeeze head = head ∧
      capture.signature? source = some ⟨source, "ns1::type::f".toList, "int n".toList, true⟩ ∧
      ∃ before name, Name.IsLongest head before name ∧ isBlank before = false ∧
        name.filter (fun c => !isWhiteSpace c) = "ns1::type::f".toList := by
  intro source code head capture
  obtain ⟨hheads, hsignatures⟩ := signature?_eq_some_iff source
  have hcapture : (Phase.onCode Markers.default code (.armed 3 true)).2 = some capture := by
    decide +kernel
  have hhead : squeeze head = head := hheads Markers.default (.armed 3 true) code capture hcapture
  have hsignature : capture.signature? source =
      some ⟨source, "ns1::type::f".toList, "int n".toList, true⟩ := by decide +kernel
  obtain ⟨before, name, hname, hbefore, heq⟩ := (hsignatures capture hhead _).mp hsignature
  exact ⟨hcapture, hhead, hsignature, before, name, hname, hbefore,
    (congrArg Signature.name heq).symm⟩

end Extraction

end KernelCensus
