import KernelCensus.Extraction
import KernelCensus.Proofs.Text.Cut

/-!
# Extraction line by line

What a line does to an extraction depends on whether it has a tag. A line without tag counts by its
code. A line with a tag drops what is pending, and all else that it does is what it would do with
nothing pending.

* `onLine_of_untagged`, `onLine_of_tagged`: one line.
* `findingsFrom_append`: lines after lines.
-/

namespace KernelCensus.Extraction

open Text

variable (markers : Markers) (source : SourceFile)

/-! ## One line -/

lemma onLine_of_untagged {line : Text} (h : ¬ markers.tag <:+: line) (phase : Phase)
    (number : Nat) :
    phase.onLine markers source number line =
      ((phase.onCode markers (stripComment markers.lineComment line)).1,
        ((phase.onCode markers (stripComment markers.lineComment line)).2.map
          (Capture.finding source)).toList) := by
  rw [Phase.onLine, (cut?_eq_none_iff markers.tag line).mpr h]

/-- With nothing pending, a line with a tag is read from the tag on. -/
lemma onLine_idle_of_tagged {line : Text} (h : markers.tag <:+: line) (number : Nat) :
    ∃ code, Phase.idle.onLine markers source number line =
      (((Phase.ofTag number).onCode markers code).1,
        (((Phase.ofTag number).onCode markers code).2.map (Capture.finding source)).toList) := by
  obtain ⟨before, after, hparts⟩ := exists_cut?_of_isInfix h
  refine ⟨(stripComment markers.lineComment line).drop (before.length + markers.tag.length), ?_⟩
  rw [Phase.onLine, hparts]
  rfl

/-- A tag drops what is pending, and nothing else of it is left. -/
lemma onLine_of_tagged {line : Text} (h : markers.tag <:+: line) (phase : Phase) (number : Nat) :
    phase.onLine markers source number line =
      ((Phase.idle.onLine markers source number line).1,
        phase.interrupted?.toList ++ (Phase.idle.onLine markers source number line).2) := by
  obtain ⟨before, after, hparts⟩ := exists_cut?_of_isInfix h
  rw [Phase.onLine, Phase.onLine, hparts]
  rfl

/-! ## Lines one after another -/

/-- The phase after lines, and the findings in them. -/
def scan : Phase → Nat → List Text → Phase × List Finding
  | phase, _, [] => (phase, [])
  | phase, number, line :: lines =>
    let step := phase.onLine markers source number line
    let later := scan step.1 (number + 1) lines
    (later.1, step.2 ++ later.2)

/-- More lines go on from the phase after the lines before them. -/
theorem findingsFrom_append (phase : Phase) (number : Nat) (lines more : List Text) :
    findingsFrom markers source phase number (lines ++ more) =
      (scan markers source phase number lines).2 ++
        findingsFrom markers source (scan markers source phase number lines).1
          (number + lines.length) more := by
  induction lines generalizing phase number with
  | nil => rfl
  | cons line lines ih =>
    have hnumber : number + 1 + lines.length = number + (line :: lines).length := by
      rw [List.length_cons]
      omega
    rw [List.cons_append, findingsFrom, ih, scan, hnumber, List.append_assoc]

/-- The findings in lines are those found on the way and what the end finds pending. -/
lemma findingsFrom_eq_scan (phase : Phase) (number : Nat) (lines : List Text) :
    findingsFrom markers source phase number lines =
      (scan markers source phase number lines).2 ++
        (scan markers source phase number lines).1.unfinished?.toList := by
  have happend := findingsFrom_append markers source phase number lines []
  rw [List.append_nil] at happend
  exact happend

/-- Lines without tag are passed over if no tag is pending. -/
lemma findingsFrom_idle {lines : List Text} (h : ∀ line ∈ lines, ¬ markers.tag <:+: line)
    (number : Nat) (rest : List Text) :
    findingsFrom markers source .idle number (lines ++ rest) =
      findingsFrom markers source .idle (number + lines.length) rest := by
  induction lines generalizing number with
  | nil => rfl
  | cons line lines ih =>
    have hline := onLine_of_untagged markers source (h line List.mem_cons_self) .idle number
    rw [List.cons_append, findingsFrom, hline, List.length_cons]
    show findingsFrom markers source .idle (number + 1) (lines ++ rest) = _
    rw [ih fun l hl => h l (List.mem_cons_of_mem line hl)]
    congr 1
    omega

end KernelCensus.Extraction
