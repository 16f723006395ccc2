import KernelCensus.Extraction
import KernelCensus.Proofs.Name

/-!
# Captured declarations and their names

The signatures of a text are the declarations that are captured in it and have a name, in order. The
name is taken from the end of what stands before the parameter list: the longest qualified name
there. Nothing is asked of the character before it but that it would not make the name longer. So
the name starts a word unless that character is a digit, or a letter or number outside ASCII, and
then it is the end of a word only.

* `signatures_eq_captures`: the signatures by what is captured.
* `startsWord_eq`: the characters before a name.
* `name_starts_word_iff`: the names of the signatures of a text.
-/

namespace KernelCensus

open Unicode

namespace Extraction

/-! ## What is captured -/

/-- The code in a line that goes on: behind a tag, what follows it. -/
def codeIn (markers : Markers) (line : Text) : Text :=
  let code := stripComment markers.lineComment line
  match Text.cut? markers.tag line with
  | some (before, _) => code.drop (before.length + markers.tag.length)
  | none => code

/-- The phase in which the code in a line is met. -/
def Phase.atLine (markers : Markers) (phase : Phase) (number : Nat) (line : Text) : Phase :=
  match Text.cut? markers.tag line with
  | some _ => .ofTag number
  | none => phase

/-- What is captured in lines, from a phase and the number of the first line on. -/
def capturesFrom (markers : Markers) : Phase → Nat → List Text → List Capture
  | _, _, [] => []
  | phase, number, line :: lines =>
    let step := (phase.atLine markers number line).onCode markers (codeIn markers line)
    step.2.toList ++ capturesFrom markers step.1 (number + 1) lines

/-- The declarations that are captured in a text, named or not. -/
def captures (markers : Markers) (text : Text) : List Capture :=
  capturesFrom markers .idle 1 (Text.lines text)

/-- The signature that a captured declaration comes to, if it has a name. -/
def Capture.signature? (source : SourceFile) (capture : Capture) : Option Signature :=
  (capture.finding source).signature?

section
variable (markers : Markers) (source : SourceFile)

/-- A line leads to the signature of what is captured in it. -/
lemma signatures_onLine (phase : Phase) (number : Nat) (line : Text) :
    let step := (phase.atLine markers number line).onCode markers (codeIn markers line)
    (phase.onLine markers source number line).1 = step.1 ∧
      (phase.onLine markers source number line).2.filterMap Finding.signature? =
        step.2.toList.filterMap (Capture.signature? source) := by
  have hstep (step : Phase × Option Capture) :
      ((step.2.map (Capture.finding source)).toList).filterMap Finding.signature? =
        step.2.toList.filterMap (Capture.signature? source) := by
    cases step.2 <;> rfl
  unfold Phase.onLine Phase.atLine codeIn
  cases Text.cut? markers.tag line with
  | none => exact ⟨rfl, hstep _⟩
  | some parts =>
    refine ⟨rfl, ?_⟩
    -- a declaration that the tag interrupts is dropped
    have hpending : phase.interrupted?.toList.filterMap Finding.signature? = [] := by
      cases phase <;> rfl
    dsimp only
    rw [List.filterMap_append, hpending, hstep]
    rfl

/-- Lines lead to the signatures of what is captured in them. -/
lemma signatures_findingsFrom (phase : Phase) (number : Nat) (lines : List Text) :
    (findingsFrom markers source phase number lines).filterMap Finding.signature? =
      (capturesFrom markers phase number lines).filterMap (Capture.signature? source) := by
  induction lines generalizing phase number with
  | nil => cases phase <;> rfl
  | cons line lines ih =>
    obtain ⟨hphase, hline⟩ := signatures_onLine markers source phase number line
    rw [findingsFrom, capturesFrom, List.filterMap_append, List.filterMap_append, ih, hline,
      hphase]

/-- The signatures of a text are those of what is captured in it, in order. -/
theorem signatures_eq_captures (text : Text) :
    signatures markers source text =
      (captures markers text).filterMap (Capture.signature? source) :=
  signatures_findingsFrom markers source .idle 1 (Text.lines text)

end

end Extraction

/-! ## The character before a name -/

/-- A character that goes on with a word but starts no name: a digit, or a letter or number outside
ASCII. -/
def Name.onlyContinues (c : Char) : Bool := c.isDigit || (128 ≤ c.toNat && isAlphanumeric c)

/-- Behind a character that starts no identifier, a word starts unless the character goes on with
one. -/
lemma Name.startsWord_eq {c : Char} (hc : Name.isStart c = false) :
    Attribute.startsWord (some c) = !Name.onlyContinues c := by
  obtain ⟨halpha, hlow⟩ := Bool.or_eq_false_iff.mp hc
  unfold Attribute.startsWord Name.onlyContinues isAlphanumeric isAlphabetic isNumeric
  by_cases hascii : c.toNat < 128
  · simp [hascii, halpha, hlow]
  · have hdigit : c.isDigit = false := by
      refine Bool.eq_false_iff.mpr fun hdigit => hascii (Name.toNat_lt_of_isPart ?_)
      simp [Name.isPart, Char.isAlphanum, hdigit]
    simp [hascii, hlow, hdigit]

/-- The same for what stands before a name, which may be nothing. -/
lemma Name.startsWord_getLast?_iff {before : Text}
    (h : ∀ c ∈ before.getLast?, Name.isStart c = false) :
    Attribute.startsWord before.getLast? = true ↔
      ∀ c ∈ before.getLast?, Name.onlyContinues c = false := by
  cases hlast : before.getLast? with
  | none => exact ⟨fun _ => nofun, fun _ => rfl⟩
  | some c =>
    rw [Name.startsWord_eq (h c hlast), Bool.not_eq_true']
    constructor
    · rintro hc d ⟨⟩
      exact hc
    · exact fun hall => hall c rfl

namespace Extraction

/-- A signature has the name at the end of the head of a declaration, without its white space. No
start of an identifier stands right before that name, so the name starts a word if and only if no
digit and no letter or number outside ASCII does. -/
theorem name_starts_word_iff (markers : Markers) (source : SourceFile) (text : Text) :
    signatures markers source text =
      (captures markers text).filterMap (Capture.signature? source) ∧
    ∀ capture ∈ captures markers text, ∀ signature, capture.signature? source = some signature →
      ∃ before name, Name.trailing? capture.declaration.head = some (before, name) ∧
        capture.declaration.head = before ++ name ∧ Name.isSpaced name = true ∧
        signature.name = name.filter (fun c => !isWhiteSpace c) ∧
        (∀ c ∈ before.getLast?, Name.isStart c = false) ∧
        (Attribute.startsWord before.getLast? = true ↔
          ∀ c ∈ before.getLast?, Name.onlyContinues c = false) := by
  refine ⟨signatures_eq_captures markers source text, ?_⟩
  intro capture _ signature hsignature
  unfold Capture.signature? Capture.finding at hsignature
  split at hsignature
  · next plain hplain =>
    cases hsignature
    unfold Declaration.name? at hplain
    split at hplain
    · cases hplain
    · next before name htrailing =>
      split at hplain
      · cases hplain
      · cases hplain
        have hbefore := Name.not_isStart_of_trailing? htrailing
        exact ⟨before, name, htrailing, Name.eq_append_of_trailing? htrailing,
          Name.isSpaced_of_trailing? htrailing, rfl, hbefore, Name.startsWord_getLast?_iff hbefore⟩
  · cases hsignature

/-- A name with white space in it, behind words with digits and with a number outside ASCII. -/
theorem name_starts_word_iff_scoped :
    let source := SourceFile.ofPath ⟨"a.cu".toList⟩
    let text := "// @kernel\n__global__ vec<4>2d\u00b2 *ns :: f(int n)\n".toList
    let head := "__global__ vec<4>2d\u00b2 *ns :: f".toList
    let capture : Capture := ⟨1, false, ⟨head, "int n".toList⟩⟩
    let signature : Signature := ⟨source, "ns::f".toList, "int n".toList, false⟩
    capture ∈ captures Markers.default text ∧ capture.signature? source = some signature ∧
      ∃ before name, Name.trailing? head = some (before, name) ∧ head = before ++ name ∧
        signature.name = name.filter (fun c => !isWhiteSpace c) ∧
        (Attribute.startsWord before.getLast? = true ↔
          ∀ c ∈ before.getLast?, Name.onlyContinues c = false) := by
  intro source text head capture signature
  have hcapture : capture ∈ captures Markers.default text := by decide +kernel
  have hsignature : capture.signature? source = some signature := by decide +kernel
  obtain ⟨-, hnames⟩ := name_starts_word_iff Markers.default source text
  obtain ⟨before, name, htrailing, hhead, -, hname, -, hiff⟩ :=
    hnames capture hcapture signature hsignature
  exact ⟨hcapture, hsignature, before, name, htrailing, hhead, hname, hiff⟩

/-- A kernel is named by the last letter of its identifier, since the letter before is no ASCII
letter, and another one by what follows the digit that its last word starts with. -/
theorem fragments_name_kernels :
    let source := SourceFile.ofPath ⟨"a.cu".toList⟩
    let text := Text.unlines ["// @kernel".toList,
      "__global__ void gr\u00f6\u00dfe(float *x)".toList, "// @kernel".toList,
      "__global__ void 2nd(int n)".toList]
    captures Markers.default text =
        [⟨1, false, ⟨"__global__ void gr\u00f6\u00dfe".toList, "float *x".toList⟩⟩,
          ⟨3, false, ⟨"__global__ void 2nd".toList, "int n".toList⟩⟩] ∧
      signatures Markers.default source text =
        [⟨source, "e".toList, "float *x".toList, false⟩,
          ⟨source, "nd".toList, "int n".toList, false⟩] ∧
      Attribute.startsWord "__global__ void gr\u00f6\u00df".toList.getLast? = false ∧
      Attribute.startsWord "__global__ void 2".toList.getLast? = false := by
  decide +kernel

end Extraction

end KernelCensus
