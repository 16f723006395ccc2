import KernelCensus.Proofs.Declaration.Cursor
import KernelCensus.Proofs.Extraction.Captures

/-!
# Slices

The scan of a source cuts texts at byte offsets in two places: where attributes are erased and the
parameter list is taken out of a declaration, and where the code behind a tag is taken out of a
line. The tag is looked for in the whole line but the code is cut out of the line without its
comment, so its offset counts only if it is not behind the end of that code.

* `sliceIn?_eq`: the code behind a tag.
* `slices_in_place`: no cut is out of place, and every search ends.
-/

namespace KernelCensus.Extraction

open Text
open Attribute (Cursor EndsAll searched)

/-- A line without its comment is a front of the line. -/
lemma stripComment_isPrefix (marker line : Text) : stripComment marker line <+: line := by
  rw [stripComment]
  split
  · exact List.prefix_rfl
  · split
    · next before after hcut =>
      rw [eq_append_of_cut? hcut, List.append_assoc]
      exact List.prefix_append _ _
    · exact List.prefix_rfl

/-- The code in a line that goes on, cut out of the line without its comment by byte offsets. There
is no answer if it is cut out of place. -/
def sliceIn? (markers : Markers) (line : Text) : Option Text :=
  let code := stripComment markers.lineComment line
  match offsetOf? markers.tag line with
  | none => some code
  | some position =>
    let finish := position + byteLength markers.tag
    if finish ≤ byteLength code then sliceFrom? code finish else some []

/-- The code behind a tag is the same by byte offsets as by characters. -/
theorem sliceIn?_eq (markers : Markers) (line : Text) :
    sliceIn? markers line = some (codeIn markers line) := by
  rw [sliceIn?, codeIn, offsetOf?]
  cases htag : cut? markers.tag line with
  | none => rfl
  | some parts =>
    obtain ⟨before, after⟩ := parts
    have htagged : before ++ markers.tag <+: line := ⟨after, (eq_append_of_cut? htag).symm⟩
    have hcode := stripComment_isPrefix markers.lineComment line
    dsimp only [Option.map_some]
    rw [← byteLength_append, ← List.length_append]
    split
    · next hle =>
      -- the tag is in the code, and the code goes on behind it
      obtain ⟨rest, hrest⟩ := isPrefix_of_byteLength_le htagged hcode hle
      rw [← hrest, sliceFrom?_append, List.drop_left]
    · next hlt =>
      have hends := isPrefix_of_byteLength_le hcode htagged (Nat.le_of_not_le hlt)
      rw [List.drop_of_length_le hends.length_le]

/-- The end of a tag that is not behind the code is a place in the code. -/
lemma isBoundary_tag {markers : Markers} {line : Text} {position : Nat}
    (htag : offsetOf? markers.tag line = some position)
    (hle : position + byteLength markers.tag ≤
      byteLength (stripComment markers.lineComment line)) :
    IsBoundary (stripComment markers.lineComment line) (position + byteLength markers.tag) := by
  have hslice := sliceIn?_eq markers line
  rw [sliceIn?, htag] at hslice
  dsimp only at hslice
  rw [if_pos hle, sliceFrom?, Option.map_eq_some_iff] at hslice
  obtain ⟨parts, hparts, -⟩ := hslice
  rw [isBoundary_iff, hparts]
  rfl

/-- No cut is out of place, and every search ends. A turn of the search for a keyword uses offsets
between characters only, and leaves fewer bytes to the next one. So the attributes of every text are
erased and its declaration is read. The code behind a tag is cut out of the line where the tag ends,
if that is not behind the code. -/
theorem slices_in_place (markers : Markers) :
    (∀ keyword ∈ searched markers.attributes, ∀ cursor : Cursor, cursor.InPlace →
      ∃ turn, cursor.turn? keyword = some turn ∧
        (∀ offset ∈ turn.offsets, IsBoundary cursor.text offset) ∧
        ∀ next, turn.outcome = .again next → next.InPlace ∧ next.left < cursor.left) ∧
    (∀ text, Cursor.InPlace ⟨text, 0⟩ ∧
      (∀ result, EndsAll (searched markers.attributes) text result ↔
        result = Attribute.eraseAll? markers.attributes text) ∧
      ∀ result, Declaration.Splits markers.attributes text result ↔
        result = Declaration.ofText? markers.attributes text) ∧
    ∀ line, sliceIn? markers line = some (codeIn markers line) ∧
      ∀ position, offsetOf? markers.tag line = some position →
        position + byteLength markers.tag ≤ byteLength (stripComment markers.lineComment line) →
          IsBoundary (stripComment markers.lineComment line)
            (position + byteLength markers.tag) := by
  refine ⟨?_, ?_, ?_⟩
  · intro keyword hkeyword cursor hcursor
    obtain ⟨hne, hhead⟩ := Attribute.of_mem_searched hkeyword
    obtain ⟨turn, hturn, hfits⟩ := hcursor.exists_turn? hne hhead
    refine ⟨turn, hturn, hfits.offsets, ?_⟩
    intro next hnext
    have houtcome := hfits.outcome
    rw [hnext] at houtcome
    exact ⟨houtcome.1, houtcome.2.1⟩
  · intro text
    exact ⟨Cursor.inPlace_start text, Attribute.endsAll_iff markers.attributes text,
      Declaration.splits_iff markers.attributes text⟩
  · intro line
    exact ⟨sliceIn?_eq markers line, fun _ => isBoundary_tag⟩

/-- A keyword with letters outside ASCII and wide white space before its arguments, and a tag behind
such a letter. -/
theorem slices_in_place_wide :
    let keyword := "gr\u00f6\u00dfe".toList
    let markers := { Markers.default with attributes := [keyword] }
    let cursor : Cursor := ⟨"gr\u00f6\u00dfe\u3000(\u00e4) gr\u00f6\u00dfe(b) f(x)".toList, 0⟩
    let next : Cursor := ⟨"  gr\u00f6\u00dfe(b) f(x)".toList, 0⟩
    let line := "\u00e4 @kernel void // x".toList
    keyword ∈ searched markers.attributes ∧ cursor.InPlace ∧
      cursor.turn? keyword = some ⟨[0, 0, 7, 10, 14], .again next⟩ ∧
      (∀ offset ∈ [0, 0, 7, 10, 14], IsBoundary cursor.text offset) ∧
      next.InPlace ∧ next.left < cursor.left ∧
      EndsAll (searched markers.attributes) cursor.text (some "    f(x)".toList) ∧
      Declaration.Splits markers.attributes cursor.text (some ⟨"f".toList, "x".toList⟩) ∧
      offsetOf? markers.tag line = some 3 ∧ sliceIn? markers line = some " void ".toList ∧
      IsBoundary (stripComment markers.lineComment line) 10 := by
  intro keyword markers cursor next line
  obtain ⟨hturns, htexts, hlines⟩ := slices_in_place markers
  obtain ⟨hcursor, hends, hsplits⟩ := htexts cursor.text
  have hkeyword : keyword ∈ searched markers.attributes := by decide +kernel
  have hcut : cursor.turn? keyword = some ⟨[0, 0, 7, 10, 14], .again next⟩ := by decide +kernel
  obtain ⟨turn, hturn, hoffsets, hagain⟩ := hturns keyword hkeyword cursor hcursor
  obtain rfl : (⟨[0, 0, 7, 10, 14], .again next⟩ : Attribute.Turn) = turn :=
    Option.some.inj (hcut.symm.trans hturn)
  obtain ⟨hnext, hless⟩ := hagain next rfl
  have htag : offsetOf? markers.tag line = some 3 := by decide +kernel
  obtain ⟨hslice, hboundary⟩ := hlines line
  exact ⟨hkeyword, hcursor, hcut, hoffsets, hnext, hless, (hends _).mpr (by decide +kernel),
    (hsplits _).mpr (by decide +kernel), htag, hslice.trans (by decide +kernel),
    hboundary 3 htag (by decide +kernel)⟩

end KernelCensus.Extraction
