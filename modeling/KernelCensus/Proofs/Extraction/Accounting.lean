import KernelCensus.Proofs.Extraction.Lines
import Mathlib.Data.List.Perm.Basic
import Mathlib.Data.List.Sort
import Mathlib.Tactic.Common

/-!
# Accounting for tags

Each tag comes to one finding: a signature, or a drop that a notice reports. What carries this
through the lines is the tag that is pending between two of them. A line settles the pending tag,
passes it on, or puts its own in its place, and it never settles a tag without having one.

* `tagLines_onLine`: the pending tag and the tag of a line, before and after the line.
* `map_tagLine_findings`: the findings are those of the lines with a tag, in order.
* `tags_accounted`: what becomes of the tags of a text, by its signatures and notices.
-/

namespace KernelCensus

/-- The line of the tag that a notice reports as dropped. -/
def Notice.tagLine? : Notice → Option Nat
  | dropped _ tagLine _ => some tagLine
  | _ => none

namespace Extraction

/-! ## The lines of tags -/

/-- The numbers of the lines that have a tag, if the first line has the given number. -/
def tagLinesFrom (tag : Text) (number : Nat) (lines : List Text) : List Nat :=
  ((lines.zipIdx number).filter fun line => tag <:+: line.1).map Prod.snd

/-- The numbers of the lines of a text that have a tag. -/
def tagLines (markers : Markers) (text : Text) : List Nat :=
  tagLinesFrom markers.tag 1 (Text.lines text)

/-- The tag that is pending. -/
def Phase.tagLine? : Phase → Option Nat
  | idle => none
  | armed tagLine _ => some tagLine
  | capturing tagLine _ _ => some tagLine

/-- The signature that a tag led to, with the line of the tag. -/
def Finding.declaration? : Finding → Option (Nat × Signature)
  | declared tagLine signature => some (tagLine, signature)
  | dropped .. => none

/-- The signatures in a source, each with the line of the tag that led to it. -/
def declarations (markers : Markers) (source : SourceFile) (text : Text) :
    List (Nat × Signature) :=
  (findings markers source text).filterMap Finding.declaration?

/-- The lines of the tags that led to signatures. -/
def declaredTagLines (markers : Markers) (source : SourceFile) (text : Text) : List Nat :=
  (declarations markers source text).map Prod.fst

/-- The lines of the tags that notices report as dropped. -/
def droppedTagLines (markers : Markers) (source : SourceFile) (text : Text) : List Nat :=
  (notices markers source text).filterMap Notice.tagLine?

lemma tagLinesFrom_cons (tag : Text) (number : Nat) (line : Text) (lines : List Text) :
    tagLinesFrom tag number (line :: lines) =
      (if tag <:+: line then [number] else []) ++ tagLinesFrom tag (number + 1) lines := by
  unfold tagLinesFrom
  rw [List.zipIdx_cons]
  by_cases h : tag <:+: line
  · rw [List.filter_cons_of_pos (by simpa using h), if_pos h]
    rfl
  · rw [List.filter_cons_of_neg (by simpa using h), if_neg h]
    rfl

lemma pairwise_tagLinesFrom (tag : Text) (number : Nat) (lines : List Text) :
    (tagLinesFrom tag number lines).Pairwise (· < ·) := by
  have hnumbers : ((lines.zipIdx number).map Prod.snd).Pairwise (· < ·) := by
    rw [List.zipIdx_map_snd]
    exact List.pairwise_lt_range'
  have hsublist : (tagLinesFrom tag number lines).Sublist ((lines.zipIdx number).map Prod.snd) :=
    List.filter_sublist.map Prod.snd
  exact hnumbers.sublist hsublist

/-! ## The pending tag -/

lemma map_tagLine_interrupted? (phase : Phase) :
    phase.interrupted?.toList.map Finding.tagLine = phase.tagLine?.toList := by
  cases phase <;> rfl

/-- A tag that the end finds pending is accounted for. -/
lemma map_tagLine_unfinished? (phase : Phase) :
    phase.unfinished?.toList.map Finding.tagLine = phase.tagLine?.toList := by
  cases phase <;> rfl

/-- A capture comes to the finding of its tag, whether it has a name or not. -/
lemma tagLine_finding (source : SourceFile) (capture : Capture) :
    (capture.finding source).tagLine = capture.tagLine := by
  unfold Capture.finding
  split <;> rfl

section
variable (markers : Markers)

/-- A capture that goes on keeps its tag pending, and one that ends does not. -/
lemma tagLine_close (tagLine : Nat) (isTemplate : Bool) (buffer : Text) :
    ((close markers tagLine isTemplate buffer).2.map Capture.tagLine).toList ++
        (close markers tagLine isTemplate buffer).1.tagLine?.toList = [tagLine] := by
  unfold close
  split <;> rfl

/-- Code ends at most one capture, that of the pending tag, and the tag is pending otherwise. -/
lemma tagLine_onCode (code : Text) (phase : Phase) :
    ((phase.onCode markers code).2.map Capture.tagLine).toList ++
        (phase.onCode markers code).1.tagLine?.toList = phase.tagLine?.toList := by
  cases phase with
  | idle => rfl
  | armed tagLine isTemplate =>
    unfold Phase.onCode
    cases Text.cut? markers.declaration code with
    | none => rfl
    | some parts => exact tagLine_close markers tagLine _ _
  | capturing tagLine isTemplate buffer => exact tagLine_close markers tagLine isTemplate _

variable (source : SourceFile)

/-- The findings of a captured declaration are those of its tag. -/
lemma map_tagLine_finding (capture? : Option Capture) :
    ((capture?.map (Capture.finding source)).toList).map Finding.tagLine =
      (capture?.map Capture.tagLine).toList := by
  cases capture? with
  | none => rfl
  | some capture =>
    show [(capture.finding source).tagLine] = [capture.tagLine]
    rw [tagLine_finding]

/-- The tags that a line settles or leaves pending are the one that was pending and its own. -/
theorem tagLines_onLine (phase : Phase) (number : Nat) (line : Text) :
    (phase.onLine markers source number line).2.map Finding.tagLine ++
        (phase.onLine markers source number line).1.tagLine?.toList =
      phase.tagLine?.toList ++ if markers.tag <:+: line then [number] else [] := by
  by_cases h : markers.tag <:+: line
  · obtain ⟨code, hidle⟩ := onLine_idle_of_tagged markers source h number
    have hcode := tagLine_onCode markers code (Phase.ofTag number)
    rw [onLine_of_tagged markers source h, hidle, if_pos h, List.map_append, List.append_assoc,
      map_tagLine_interrupted?, map_tagLine_finding, hcode]
    rfl
  · have hcode := tagLine_onCode markers (stripComment markers.lineComment line) phase
    rw [onLine_of_untagged markers source h, if_neg h, map_tagLine_finding, hcode, List.append_nil]

/-- The findings in lines are those of the pending tag and of the tags in the lines, in order. -/
theorem map_tagLine_findingsFrom (phase : Phase) (number : Nat) (lines : List Text) :
    (findingsFrom markers source phase number lines).map Finding.tagLine =
      phase.tagLine?.toList ++ tagLinesFrom markers.tag number lines := by
  induction lines generalizing phase number with
  | nil =>
    rw [findingsFrom, map_tagLine_unfinished?]
    exact (List.append_nil _).symm
  | cons line lines ih =>
    have hline := tagLines_onLine markers source phase number line
    rw [findingsFrom, List.map_append, ih, ← List.append_assoc, hline, tagLinesFrom_cons,
      List.append_assoc]

/-- The findings in a source are those of the lines with a tag, in order. -/
theorem map_tagLine_findings (text : Text) :
    (findings markers source text).map Finding.tagLine = tagLines markers text :=
  map_tagLine_findingsFrom markers source .idle 1 (Text.lines text)

end

/-! ## Signatures and notices -/

section
variable (markers : Markers) (source : SourceFile) (text : Text)

lemma map_snd_declarations :
    (declarations markers source text).map Prod.snd = signatures markers source text := by
  unfold declarations signatures
  rw [List.map_filterMap]
  congr 1
  funext finding
  cases finding <;> rfl

/-- The notices report the tags of the findings that are no declarations. -/
lemma droppedTagLines_eq :
    droppedTagLines markers source text =
      ((findings markers source text).filter fun f => f.declaration?.isNone).map
        Finding.tagLine := by
  unfold droppedTagLines notices
  rw [List.filterMap_append, List.filterMap_filterMap, ← List.filterMap_eq_map,
    List.filterMap_filter]
  show _ ++ [] = _
  rw [List.append_nil]
  congr 1
  funext finding
  cases finding <;> rfl

/-- The signatures come from the tags of the findings that are declarations. -/
lemma declaredTagLines_eq :
    declaredTagLines markers source text =
      ((findings markers source text).filter fun f => f.declaration?.isSome).map
        Finding.tagLine := by
  unfold declaredTagLines declarations
  rw [List.map_filterMap, ← List.filterMap_eq_map, List.filterMap_filter]
  congr 1
  funext finding
  cases finding <;> rfl

/-- A finding is a declaration or not, so the two kinds share out the tags. -/
lemma declared_append_dropped_perm :
    (declaredTagLines markers source text ++ droppedTagLines markers source text).Perm
      (tagLines markers text) := by
  rw [declaredTagLines_eq, droppedTagLines_eq, ← List.map_append,
    ← map_tagLine_findings markers source]
  refine List.Perm.map Finding.tagLine ?_
  have hparts := List.filter_append_perm
    (fun f : Finding => f.declaration?.isSome) (findings markers source text)
  simp only [Option.not_isSome] at hparts
  exact hparts

/-- Each line with a tag leads to exactly one signature or to exactly one notice of a drop, and
there are no others. The signatures stand in the order of their tags. -/
theorem tags_accounted :
    (declarations markers source text).map Prod.snd = signatures markers source text ∧
    (declaredTagLines markers source text ++ droppedTagLines markers source text).Perm
      (tagLines markers text) ∧
    (declaredTagLines markers source text ++ droppedTagLines markers source text).Nodup ∧
    (signatures markers source text).length + (droppedTagLines markers source text).length =
      (tagLines markers text).length ∧
    (declaredTagLines markers source text).Pairwise (· < ·) := by
  have hsorted : (tagLines markers text).Pairwise (· < ·) := pairwise_tagLinesFrom _ 1 _
  have hsignatures := map_snd_declarations markers source text
  have hperm := declared_append_dropped_perm markers source text
  refine ⟨hsignatures, hperm, ?_, ?_, ?_⟩
  · exact hperm.nodup_iff.mpr (hsorted.imp fun hlt => Nat.ne_of_lt hlt)
  · have hlength := hperm.length_eq
    unfold declaredTagLines at hlength
    rw [List.length_append, List.length_map] at hlength
    rw [← hsignatures, List.length_map]
    exact hlength
  · have hsublist : (declaredTagLines markers source text).Sublist (tagLines markers text) := by
      rw [declaredTagLines_eq, ← map_tagLine_findings markers source]
      exact List.filter_sublist.map Finding.tagLine
    exact hsorted.sublist hsublist

end

end Extraction

end KernelCensus
