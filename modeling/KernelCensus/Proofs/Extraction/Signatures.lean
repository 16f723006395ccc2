import KernelCensus.Proofs.Extraction.Lines
import KernelCensus.Proofs.Name

/-!
# Extracted signatures

A signature comes from a capture of code, whose text was read as a declaration. So it has the
parameters of that declaration, and its name is a qualified name without white space.

* `exists_declaration_of_mem_signatures`: where a signature comes from.
* `isPlain_of_mem_signatures`: what its name is.
-/

namespace KernelCensus

/-- A declaration is named by a qualified name without white space. -/
lemma Declaration.isPlain_of_name? {declaration : Declaration} {name : Text}
    (h : declaration.name? = some name) : Name.IsPlain name := by
  unfold Declaration.name? at h
  split at h
  · cases h
  · next before spaced htrailing =>
    split at h
    · cases h
    · obtain ⟨plain, gap, rfl, hplain, hgap⟩ :=
        Name.exists_qualified_of_isSpaced (Name.isSpaced_of_trailing? htrailing)
      have hname := hplain.isPlain_filter
      rw [← Option.some.inj h, List.filter_append, Text.filter_of_blank hgap, List.append_nil]
      exact hname

namespace Extraction

variable (markers : Markers) (source : SourceFile)

lemma exists_buffer_of_onCode {code : Text} {phase : Phase} {capture : Capture}
    (h : (phase.onCode markers code).2 = some capture) :
    ∃ buffer, Declaration.ofText? markers.attributes buffer = some capture.declaration := by
  have hclose (tagLine : Nat) (isTemplate : Bool) (buffer : Text)
      (h : (close markers tagLine isTemplate buffer).2 = some capture) :
      Declaration.ofText? markers.attributes buffer = some capture.declaration := by
    unfold close at h
    split at h
    · next declaration hread =>
      cases h
      exact hread
    · cases h
  unfold Phase.onCode at h
  split at h
  · cases h
  · split at h
    · exact ⟨_, hclose _ _ _ h⟩
    · cases h
  · exact ⟨_, hclose _ _ _ h⟩

/-- Whether a finding is what a capture of code comes to. -/
def IsCaptured (finding : Finding) : Prop :=
  ∃ (phase : Phase) (code : Text) (capture : Capture),
    (phase.onCode markers code).2 = some capture ∧ capture.finding source = finding

/-- A line leads to a signature only through a capture. -/
lemma isCaptured_of_mem_onLine {phase : Phase} {number : Nat} {line : Text}
    {signature : Signature} {tagLine : Nat}
    (h : .declared tagLine signature ∈ (phase.onLine markers source number line).2) :
    IsCaptured markers source (.declared tagLine signature) := by
  have hcapture (start : Phase) (code : Text) (hmem : .declared tagLine signature ∈
      ((start.onCode markers code).2.map (Capture.finding source)).toList) :
      IsCaptured markers source (.declared tagLine signature) := by
    rw [Option.mem_toList, Option.map_eq_some_iff] at hmem
    obtain ⟨capture, hsome, hfinding⟩ := hmem
    exact ⟨start, code, capture, hsome, hfinding⟩
  by_cases htag : markers.tag <:+: line
  · obtain ⟨code, hidle⟩ := onLine_idle_of_tagged markers source htag number
    rw [onLine_of_tagged markers source htag, hidle] at h
    rcases List.mem_append.mp h with hpending | hmem
    · -- a tag that is interrupted is dropped
      cases phase <;> simp [Phase.interrupted?] at hpending
    · exact hcapture _ _ hmem
  · rw [onLine_of_untagged markers source htag] at h
    exact hcapture _ _ h

lemma isCaptured_of_mem_findingsFrom {phase : Phase} {number : Nat} {lines : List Text}
    {signature : Signature} {tagLine : Nat}
    (h : .declared tagLine signature ∈ findingsFrom markers source phase number lines) :
    IsCaptured markers source (.declared tagLine signature) := by
  induction lines generalizing phase number with
  | nil =>
    rw [findingsFrom, Option.mem_toList] at h
    cases phase <;> simp [Phase.unfinished?] at h
  | cons line lines ih =>
    rw [findingsFrom] at h
    rcases List.mem_append.mp h with hline | hlines
    · exact isCaptured_of_mem_onLine markers source hline
    · exact ih hlines

/-- A signature is a declaration that was read off a text, under the name of that declaration and
in the source that was searched. -/
theorem exists_declaration_of_mem_signatures {text : Text} {signature : Signature}
    (h : signature ∈ signatures markers source text) :
    ∃ buffer declaration, Declaration.ofText? markers.attributes buffer = some declaration ∧
      declaration.name? = some signature.name ∧
      signature.parameters = declaration.parameters ∧ signature.source = source := by
  obtain ⟨finding, hfinding, hsome⟩ := List.mem_filterMap.mp h
  cases finding with
  | dropped tagLine cause => cases hsome
  | declared tagLine found =>
    cases hsome
    obtain ⟨start, code, capture, hcapture, heq⟩ :=
      isCaptured_of_mem_findingsFrom markers source hfinding
    obtain ⟨buffer, hbuffer⟩ := exists_buffer_of_onCode markers hcapture
    unfold Capture.finding at heq
    split at heq
    · next name hname =>
      cases heq
      exact ⟨buffer, capture.declaration, hbuffer, hname, rfl, rfl⟩
    · cases heq

/-- The signatures in a source name it as theirs. -/
theorem source_of_mem_signatures {text : Text} {signature : Signature}
    (h : signature ∈ signatures markers source text) : signature.source = source := by
  obtain ⟨_, _, -, -, -, hsource⟩ := exists_declaration_of_mem_signatures markers source h
  exact hsource

/-- The name of a signature is a qualified name without white space. -/
theorem isPlain_of_mem_signatures {text : Text} {signature : Signature}
    (h : signature ∈ signatures markers source text) : Name.IsPlain signature.name := by
  obtain ⟨_, _, -, hname, -, -⟩ := exists_declaration_of_mem_signatures markers source h
  exact Declaration.isPlain_of_name? hname

end Extraction

end KernelCensus
