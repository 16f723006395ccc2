import KernelCensus.Proofs.Extraction.Lines
import KernelCensus.Proofs.Text.Lines

/-!
# Containment

Whatever is wrong with a declaration, the next tag ends it. A text that starts with a tag is read
the same behind any other text as it is alone, only under other line numbers. What the text before
it leaves pending is dropped by the tag, as the end of that text would have dropped it.

* `findingsFrom_shift`: line numbers do not matter.
* `findings_append`: a text behind another.
* `signatures_contained`: the signatures of both.
-/

namespace KernelCensus.Extraction

/-! ## Line numbers -/

/-- The phase, with its tag so many lines further on. -/
def Phase.shift (lines : Nat) : Phase → Phase
  | idle => idle
  | armed tagLine isTemplate => armed (tagLine + lines) isTemplate
  | capturing tagLine isTemplate buffer => capturing (tagLine + lines) isTemplate buffer

/-- The capture, with its tag so many lines further on. -/
def Capture.shift (lines : Nat) (capture : Capture) : Capture :=
  { capture with tagLine := capture.tagLine + lines }

/-- The finding, with its tag so many lines further on. -/
def Finding.shift (lines : Nat) : Finding → Finding
  | declared tagLine signature => declared (tagLine + lines) signature
  | dropped tagLine cause => dropped (tagLine + lines) cause

lemma Finding.signature?_shift (lines : Nat) (finding : Finding) :
    (finding.shift lines).signature? = finding.signature? := by
  cases finding <;> rfl

lemma Phase.interrupted?_shift (lines : Nat) (phase : Phase) :
    (phase.shift lines).interrupted? = phase.interrupted?.map (Finding.shift lines) := by
  cases phase <;> rfl

lemma Phase.unfinished?_shift (lines : Nat) (phase : Phase) :
    (phase.shift lines).unfinished? = phase.unfinished?.map (Finding.shift lines) := by
  cases phase <;> rfl

lemma Capture.finding_shift (source : SourceFile) (lines : Nat) (capture : Capture) :
    (capture.shift lines).finding source = (capture.finding source).shift lines := by
  have hdeclaration : (capture.shift lines).declaration = capture.declaration := rfl
  unfold Capture.finding
  rw [hdeclaration]
  cases capture.declaration.name? <;> rfl

section
variable (markers : Markers)

lemma close_shift (lines tagLine : Nat) (isTemplate : Bool) (buffer : Text) :
    close markers (tagLine + lines) isTemplate buffer =
      ((close markers tagLine isTemplate buffer).1.shift lines,
        (close markers tagLine isTemplate buffer).2.map (Capture.shift lines)) := by
  unfold close
  cases Declaration.ofText? markers.attributes buffer <;> rfl

/-- What code does to a phase does not depend on the line of the tag. -/
lemma onCode_shift (lines : Nat) (code : Text) (phase : Phase) :
    (phase.shift lines).onCode markers code =
      ((phase.onCode markers code).1.shift lines,
        (phase.onCode markers code).2.map (Capture.shift lines)) := by
  cases phase with
  | idle => rfl
  | armed tagLine isTemplate =>
    unfold Phase.onCode Phase.shift
    cases Text.cut? markers.declaration code with
    | none => rfl
    | some parts => exact close_shift markers lines tagLine _ _
  | capturing tagLine isTemplate buffer => exact close_shift markers lines tagLine _ _

variable (source : SourceFile)

/-- The findings of captures do not depend on the lines of their tags. -/
lemma toList_finding_shift (lines : Nat) (capture? : Option Capture) :
    ((capture?.map (Capture.shift lines)).map (Capture.finding source)).toList =
      ((capture?.map (Capture.finding source)).toList).map (Finding.shift lines) := by
  cases capture? with
  | none => rfl
  | some capture =>
    show [(capture.shift lines).finding source] = [(capture.finding source).shift lines]
    rw [Capture.finding_shift]

lemma onLine_shift (lines : Nat) (phase : Phase) (number : Nat) (line : Text) :
    (phase.shift lines).onLine markers source (number + lines) line =
      ((phase.onLine markers source number line).1.shift lines,
        (phase.onLine markers source number line).2.map (Finding.shift lines)) := by
  unfold Phase.onLine
  cases Text.cut? markers.tag line with
  | none =>
    dsimp only
    rw [onCode_shift, toList_finding_shift]
  | some parts =>
    have htag : Phase.ofTag (number + lines) = (Phase.ofTag number).shift lines := rfl
    have hpending : (phase.interrupted?.map (Finding.shift lines)).toList =
        phase.interrupted?.toList.map (Finding.shift lines) := Option.toList_map ..
    dsimp only
    rw [htag, onCode_shift, toList_finding_shift, Phase.interrupted?_shift, hpending,
      List.map_append]

/-- Lines lead to the same findings under other numbers. -/
theorem findingsFrom_shift (shift : Nat) (phase : Phase) (number : Nat) (lines : List Text) :
    findingsFrom markers source (phase.shift shift) (number + shift) lines =
      (findingsFrom markers source phase number lines).map (Finding.shift shift) := by
  induction lines generalizing phase number with
  | nil =>
    rw [findingsFrom, Phase.unfinished?_shift]
    exact Option.toList_map ..
  | cons line lines ih =>
    rw [findingsFrom, findingsFrom, onLine_shift, List.map_append, ← ih]
    dsimp only
    rw [Nat.add_right_comm]

/-! ## A text behind another -/

/-- Behind a text that ends with a newline, a text that starts with a tag is read as it is alone. Of
what is pending before it, no more is left than a drop. -/
theorem findings_append {first second line : Text}
    (hfirst : first = [] ∨ first.getLast? = some '\n')
    (hline : (Text.lines second).head? = some line) (htag : markers.tag <:+: line) :
    findings markers source (first ++ second) =
      (scan markers source .idle 1 (Text.lines first)).2 ++
        (scan markers source .idle 1 (Text.lines first)).1.interrupted?.toList ++
          (findings markers source second).map (Finding.shift (Text.lines first).length) := by
  obtain ⟨lines, hsecond⟩ := List.head?_eq_some_iff.mp hline
  have hidle (number : Nat) (phase : Phase) :
      findingsFrom markers source phase number (line :: lines) =
        phase.interrupted?.toList ++ findingsFrom markers source .idle number (line :: lines) := by
    rw [findingsFrom, findingsFrom, onLine_of_tagged markers source htag phase, List.append_assoc]
  unfold findings
  rw [Text.lines_append hfirst, findingsFrom_append, hsecond, hidle, ← findingsFrom_shift,
    List.append_assoc]
  rfl

lemma signatures_eq_filterMap_scan (text : Text) :
    signatures markers source text =
      (scan markers source .idle 1 (Text.lines text)).2.filterMap Finding.signature? := by
  have hdropped (phase : Phase) : phase.unfinished?.toList.filterMap Finding.signature? = [] := by
    cases phase <;> rfl
  unfold signatures findings
  rw [findingsFrom_eq_scan, List.filterMap_append, hdropped, List.append_nil]

/-- A text has the signatures that it has behind another text, if it starts with a tag and that text
ends with a newline, whatever that text leaves pending. A text without tag has none. -/
theorem signatures_contained :
    (∀ first second line : Text, (first = [] ∨ first.getLast? = some '\n') →
      (Text.lines second).head? = some line → markers.tag <:+: line →
        signatures markers source (first ++ second) =
          signatures markers source first ++ signatures markers source second) ∧
    ∀ text : Text, (∀ line ∈ Text.lines text, ¬ markers.tag <:+: line) →
      signatures markers source text = [] := by
  constructor
  · intro first second line hfirst hline htag
    have hdropped (phase : Phase) :
        phase.interrupted?.toList.filterMap Finding.signature? = [] := by
      cases phase <;> rfl
    have hshift (findings : List Finding) (lines : Nat) :
        (findings.map (Finding.shift lines)).filterMap Finding.signature? =
          findings.filterMap Finding.signature? := by
      rw [List.filterMap_map]
      congr 1
      funext finding
      exact finding.signature?_shift lines
    rw [signatures, findings_append markers source hfirst hline htag, List.filterMap_append,
      List.filterMap_append, hdropped, List.append_nil, hshift, ← signatures_eq_filterMap_scan]
    rfl
  · intro text hlines
    have hidle := findingsFrom_idle markers source hlines 1 []
    rw [List.append_nil] at hidle
    rw [signatures, findings, hidle]
    rfl

end

/-- A declaration with open parentheses does not reach into the next one. -/
theorem signatures_contained_unclosed :
    let source := SourceFile.ofPath ⟨"a.cu".toList⟩
    let first := "// @kernel\n__global__ void f(int n, __launch_bounds__(\n".toList
    let second := "// @kernel\n__global__ void g(int n)\n".toList
    signatures Markers.default source first = [] ∧
      signatures Markers.default source (first ++ second) =
        [⟨source, ['g'], "int n".toList, false⟩] := by
  intro source first second
  have hfirst : signatures Markers.default source first = [] := by decide +kernel
  have hsecond : signatures Markers.default source second =
      [⟨source, ['g'], "int n".toList, false⟩] := by decide +kernel
  have hboth := (signatures_contained Markers.default source).1 first second "// @kernel".toList
    (Or.inr (by decide)) (by decide +kernel) (by decide +kernel)
  rw [hfirst, hsecond, List.nil_append] at hboth
  exact ⟨hfirst, hboth⟩

end KernelCensus.Extraction
