import KernelCensus.Proofs.Declaration.Balance
import KernelCensus.Proofs.Extraction.Signatures
import KernelCensus.Proofs.Text.Cut
import KernelCensus.Proofs.Text.Squeezed

/-!
# The form of signatures

A signature is in one form, however its declaration is laid out and whatever else the source holds.
Its parameters are a part of a squeezed text, so they have single spaces, and they stand before the
parenthesis that closes the parameter list, so their own parentheses come in pairs.

* `Declaration.isSqueezed_of_ofText?`, `Declaration.closes_of_ofText?`: the parameters.
* `normal_of_mem_signatures`: the whole signature.
-/

namespace KernelCensus

open Unicode

/-- A signature in normal form. -/
structure Signature.Normal (signature : Signature) : Prop where
  name : ∃ identifiers, identifiers ≠ [] ∧
    (∀ identifier ∈ identifiers, Name.IsIdentifier identifier) ∧
    signature.name = Text.joinWith "::" identifiers
  letters : ∀ c ∈ signature.name, ¬ isWhiteSpace c = true
  /-- The white space in its parameters is single spaces, none of them at an end. -/
  isSqueezed : Text.IsSqueezed signature.parameters
  squeeze_eq : Text.squeeze signature.parameters = signature.parameters
  fronts : ∀ front, front <+: signature.parameters → front.count ')' ≤ front.count '('
  total : signature.parameters.count ')' = signature.parameters.count '('

namespace Declaration

/-- The parameters of a declaration are cut out of a squeezed text, up to the parenthesis that
closes them. -/
lemma exists_inner_of_ofText? {attributes : List Text} {text : Text} {declaration : Declaration}
    (h : ofText? attributes text = some declaration) :
    ∃ bare inner rest after, declaration.parameters = Text.trim inner ∧
      rest <:+ Text.squeeze bare ∧ Parentheses.closing? 0 rest = some (inner, after) := by
  unfold ofText? at h
  simp only [Option.bind_eq_bind, Option.bind_eq_some_iff, Option.some.injEq] at h
  obtain ⟨bare, -, ⟨head, rest⟩, hcut, ⟨inner, after⟩, hclosing, rfl⟩ := h
  refine ⟨bare, inner, rest, after, rfl, ?_, hclosing⟩
  rw [Text.eq_append_of_cut? hcut]
  exact List.suffix_append _ _

/-- The parameters of a declaration are squeezed. -/
theorem isSqueezed_of_ofText? {attributes : List Text} {text : Text} {declaration : Declaration}
    (h : ofText? attributes text = some declaration) : Text.IsSqueezed declaration.parameters := by
  obtain ⟨bare, inner, rest, after, hparameters, hrest, hclosing⟩ := exists_inner_of_ofText? h
  have hinner : inner <:+: Text.squeeze bare := by
    rw [Parentheses.eq_append_of_closing? hclosing] at hrest
    exact (List.prefix_append inner _).isInfix.trans hrest.isInfix
  rw [hparameters]
  exact ((Text.singleSpaced_squeeze bare).of_isInfix hinner).isSqueezed_trim

/-- The parameters of a declaration close all parentheses that they open. -/
theorem closes_of_ofText? {attributes : List Text} {text : Text} {declaration : Declaration}
    (h : ofText? attributes text = some declaration) :
    Parentheses.Closes 0 declaration.parameters := by
  obtain ⟨bare, inner, rest, after, hparameters, -, hclosing⟩ := exists_inner_of_ofText? h
  have hblank {gap : Text} (hgap : ∀ c ∈ gap, isWhiteSpace c = true) : '(' ∉ gap ∧ ')' ∉ gap :=
    ⟨fun hmem => absurd (hgap _ hmem) (by decide), fun hmem => absurd (hgap _ hmem) (by decide)⟩
  obtain ⟨before, behind, htrim, hbefore, hbehind⟩ := Text.exists_eq_append_trim inner
  have hcloses := Parentheses.closes_of_closing? hclosing
  rw [htrim] at hcloses
  rw [hparameters]
  exact hcloses.of_append (hblank hbefore) (hblank hbehind)

end Declaration

namespace Extraction

/-- Every signature that is extracted is in normal form, whatever the markers and the text. -/
theorem normal_of_mem_signatures (markers : Markers) (source : SourceFile) (text : Text)
    {signature : Signature} (h : signature ∈ signatures markers source text) :
    signature.Normal := by
  have hplain := isPlain_of_mem_signatures markers source h
  obtain ⟨buffer, declaration, hread, -, hparameters, -⟩ :=
    exists_declaration_of_mem_signatures markers source h
  have hsqueezed := Declaration.isSqueezed_of_ofText? hread
  have hcloses := Declaration.closes_of_ofText? hread
  rw [← hparameters] at hsqueezed hcloses
  exact ⟨hplain.exists_identifiers, hplain.letters, hsqueezed, hsqueezed.squeeze_eq,
    hcloses.fronts, hcloses.total⟩

/-- A declaration over several lines, with an attribute and with parentheses of its own in the
parameter list. -/
theorem normal_of_mem_signatures_callback :
    let source := SourceFile.ofPath ⟨"a.cu".toList⟩
    let text := Text.unlines ["// @kernel".toList,
      "__global__ void __launch_bounds__((256)) ns ::\tf(".toList, "  int (*g)( int ), // g".toList,
      "\u00a0float  *x )".toList]
    let signature : Signature :=
      ⟨source, "ns::f".toList, "int (*g)( int ), float *x".toList, false⟩
    signature ∈ signatures Markers.default source text ∧ signature.Normal := by
  intro source text signature
  have hmem : signature ∈ signatures Markers.default source text := by decide +kernel
  exact ⟨hmem, normal_of_mem_signatures Markers.default source text hmem⟩

end Extraction

end KernelCensus
