import KernelCensus.Proofs.Extraction.Accounting
import KernelCensus.Proofs.Extraction.Captures
import KernelCensus.Proofs.Text.Squeezed

/-!
# The phase between two lines

The phase after some lines is determined by the last tag in them and by the code since that tag.
The template keyword counts in the code before the declaration keyword, and the text that is
captured starts with the declaration keyword and goes on to the last line. What carries this through
the lines is one step: a tag forgets all code before it, and code is added behind the code since the
tag.

* `beforeKeyword`, `captured?`: the two parts of the code since a tag.
* `Phase.Follows.onCode`: one more piece of code.
* `phase_follows`: the phases that are reached in a text.
-/

namespace KernelCensus.Extraction

open Unicode Text

/-! ## The code since a tag -/

/-- The number of the last line that has a tag, if the first line has the number 1. -/
def lastTagLine? (markers : Markers) (lines : List Text) : Option Nat :=
  (tagLinesFrom markers.tag 1 lines).getLast?

/-- The code in the line of the last tag and in the lines after it. -/
def codeSinceTag (markers : Markers) (lines : List Text) : List Text :=
  match lastTagLine? markers lines with
  | some number => (lines.drop (number - 1)).map (codeIn markers)
  | none => []

/-- The code before the declaration keyword: the pieces before the one that has it, and what stands
before it in that piece. -/
def beforeKeyword (markers : Markers) : List Text → List Text
  | [] => []
  | piece :: pieces =>
    match cut? markers.declaration piece with
    | some (before, _) => [before]
    | none => piece :: beforeKeyword markers pieces

/-- The text from the declaration keyword on, if there is one. -/
def captured? (markers : Markers) : List Text → Option Text
  | [] => none
  | piece :: pieces =>
    match cut? markers.declaration piece with
    | some (_, after) => some (pieces.foldl extend (trim (markers.declaration ++ after)))
    | none => captured? markers pieces

/-- Whether the template keyword is given and stands as a whole word in the code before the
declaration keyword. -/
def IsIntroduced (markers : Markers) (pieces : List Text) : Prop :=
  isBlank markers.template = false ∧
    ∃ piece ∈ beforeKeyword markers pieces, Keyword.occurs (trim markers.template) piece = true

/-- The text that a capture has reached with the last piece of code. -/
structure IsCapture (markers : Markers) (pieces : List Text) (buffer : Text) : Prop where
  captured : captured? markers pieces = some buffer
  /-- It starts with the declaration keyword, white space around that aside. -/
  keyword : trim markers.declaration <+: buffer
  head : ∀ c ∈ buffer.head?, ¬ isWhiteSpace c = true
  last : ∀ c ∈ buffer.getLast?, ¬ isWhiteSpace c = true
  unread : Declaration.ofText? markers.attributes buffer = none

/-- What a phase says about the line of the last tag and the code since that tag. With nothing
pending, there is no tag, or a declaration was read off the code up to some piece. -/
def Phase.Follows (markers : Markers) (tagLine? : Option Nat) (pieces : List Text) : Phase → Prop
  | idle => tagLine? = none ∨ ∃ front buffer, front <+: pieces ∧
      captured? markers front = some buffer ∧
      (Declaration.ofText? markers.attributes buffer).isSome = true
  | armed tagLine isTemplate => tagLine? = some tagLine ∧ captured? markers pieces = none ∧
      (isTemplate = true ↔ IsIntroduced markers pieces)
  | capturing tagLine isTemplate buffer => tagLine? = some tagLine ∧
      IsCapture markers pieces buffer ∧ (isTemplate = true ↔ IsIntroduced markers pieces)

/-! ## One more line -/

section
variable (markers : Markers)

lemma tagLinesFrom_append (tag : Text) (number : Nat) (lines more : List Text) :
    tagLinesFrom tag number (lines ++ more) =
      tagLinesFrom tag number lines ++ tagLinesFrom tag (number + lines.length) more := by
  unfold tagLinesFrom
  rw [List.zipIdx_append, List.filter_append, List.map_append, Nat.add_comm number]

/-- A line with a tag is the last one, and one without does not count. -/
lemma lastTagLine?_concat (lines : List Text) (line : Text) :
    lastTagLine? markers (lines ++ [line]) =
      if markers.tag <:+: line then some (lines.length + 1) else lastTagLine? markers lines := by
  unfold lastTagLine?
  rw [tagLinesFrom_append, tagLinesFrom_cons, Nat.add_comm 1]
  by_cases h : markers.tag <:+: line
  · rw [if_pos h, if_pos h]
    exact List.getLast?_concat
  · rw [if_neg h, if_neg h]
    show (_ ++ []).getLast? = _
    rw [List.append_nil]

lemma le_length_of_lastTagLine? {lines : List Text} {number : Nat}
    (h : lastTagLine? markers lines = some number) : number ≤ lines.length := by
  induction lines using List.reverseRecOn with
  | nil => cases h
  | append_singleton lines line ih =>
    rw [lastTagLine?_concat] at h
    rw [List.length_append, List.length_singleton]
    split at h
    · exact Nat.le_of_eq (Option.some.inj h).symm
    · exact Nat.le_succ_of_le (ih h)

lemma codeSinceTag_concat_of_tagged (lines : List Text) {line : Text}
    (h : markers.tag <:+: line) :
    codeSinceTag markers (lines ++ [line]) = [codeIn markers line] := by
  unfold codeSinceTag
  rw [lastTagLine?_concat, if_pos h]
  dsimp only
  rw [Nat.add_sub_cancel, List.drop_left]
  rfl

/-- Without a tag, the code in a line comes behind the code since the last one. -/
lemma codeSinceTag_concat_of_untagged {lines : List Text} {line : Text}
    (h : ¬ markers.tag <:+: line) {number : Nat}
    (hlast : lastTagLine? markers lines = some number) :
    codeSinceTag markers (lines ++ [line]) =
      codeSinceTag markers lines ++ [codeIn markers line] := by
  have hnumber := le_length_of_lastTagLine? markers hlast
  unfold codeSinceTag
  rw [lastTagLine?_concat, if_neg h, hlast]
  dsimp only
  rw [List.drop_append_of_le_length (by omega), List.map_append]
  rfl

/-- A capture goes on with more code, and what starts one is the declaration keyword. -/
lemma captured?_concat (pieces : List Text) (piece : Text) :
    captured? markers (pieces ++ [piece]) =
      match captured? markers pieces with
      | some buffer => some (extend buffer piece)
      | none => captured? markers [piece] := by
  induction pieces with
  | nil => rfl
  | cons first pieces ih =>
    rw [List.cons_append, captured?, captured?]
    cases cut? markers.declaration first with
    | none => exact ih
    | some parts =>
      dsimp only
      rw [List.foldl_append]
      rfl

/-- Code behind the declaration keyword does not stand before it. -/
lemma beforeKeyword_concat (pieces : List Text) (piece : Text) :
    beforeKeyword markers (pieces ++ [piece]) =
      beforeKeyword markers pieces ++
        match captured? markers pieces with
        | some _ => []
        | none => beforeKeyword markers [piece] := by
  induction pieces with
  | nil => rfl
  | cons first pieces ih =>
    rw [List.cons_append, beforeKeyword, beforeKeyword, captured?]
    cases cut? markers.declaration first with
    | none =>
      dsimp only
      rw [ih, List.cons_append]
    | some parts => rfl

/-- The template keyword is introduced if it was before, or stands in the new code. -/
lemma isIntroduced_concat {pieces : List Text} (h : captured? markers pieces = none)
    (piece before : Text) (hbefore : beforeKeyword markers [piece] = [before]) :
    IsIntroduced markers (pieces ++ [piece]) ↔
      IsIntroduced markers pieces ∨ mentionsTemplate markers before = true := by
  unfold IsIntroduced mentionsTemplate
  rw [beforeKeyword_concat, h]
  dsimp only
  rw [hbefore, Bool.and_eq_true, Bool.not_eq_true', ← and_or_left]
  simp only [List.mem_append, List.mem_singleton, or_and_right, exists_or, exists_eq_left]

end

/-! ## The captured text -/

lemma isPrefix_extend (buffer code : Text) : buffer <+: extend buffer code := by
  unfold extend
  dsimp only
  split
  · exact List.prefix_refl _
  · split
    · next hempty =>
      rw [List.isEmpty_iff.mp hempty]
      exact List.nil_prefix
    · exact List.prefix_append _ _

/-- Going on with a capture puts no white space around it. -/
lemma edges_extend {buffer : Text} (hhead : ∀ c ∈ buffer.head?, ¬ isWhiteSpace c = true)
    (hlast : ∀ c ∈ buffer.getLast?, ¬ isWhiteSpace c = true) (code : Text) :
    (∀ c ∈ (extend buffer code).head?, ¬ isWhiteSpace c = true) ∧
      ∀ c ∈ (extend buffer code).getLast?, ¬ isWhiteSpace c = true := by
  unfold extend
  dsimp only
  split
  · exact ⟨hhead, hlast⟩
  · next hpiece =>
    split
    · exact ⟨head?_trim, getLast?_trimEnd⟩
    · next hbuffer =>
      rw [List.isEmpty_iff] at hpiece hbuffer
      constructor
      · rw [List.head?_append_of_ne_nil _ hbuffer]
        exact hhead
      · obtain ⟨d, piece, hd⟩ := List.exists_cons_of_ne_nil hpiece
        rw [List.getLast?_append_of_ne_nil _ (List.cons_ne_nil _ _), hd, List.getLast?_cons_cons,
          ← hd]
        exact getLast?_trimEnd

/-! ## One more piece of code -/

section
variable {markers : Markers} {tagLine : Nat} {pieces : List Text}

/-- A capture that ends leaves nothing pending, and one that goes on has the captured text. -/
lemma follows_close {isTemplate : Bool} {buffer : Text}
    (hcaptured : captured? markers pieces = some buffer)
    (hkeyword : trim markers.declaration <+: buffer)
    (hhead : ∀ c ∈ buffer.head?, ¬ isWhiteSpace c = true)
    (hlast : ∀ c ∈ buffer.getLast?, ¬ isWhiteSpace c = true)
    (htemplate : isTemplate = true ↔ IsIntroduced markers pieces) :
    (close markers tagLine isTemplate buffer).1.Follows markers (some tagLine) pieces := by
  unfold close
  cases hread : Declaration.ofText? markers.attributes buffer with
  | some declaration =>
    exact Or.inr ⟨pieces, buffer, List.prefix_refl _, hcaptured, by rw [hread]; rfl⟩
  | none => exact ⟨rfl, ⟨hcaptured, hkeyword, hhead, hlast, hread⟩, htemplate⟩

/-- A phase that follows the code since a tag follows it with one more piece as well. -/
theorem Phase.Follows.onCode {phase : Phase} (h : phase.Follows markers (some tagLine) pieces)
    (code : Text) :
    (phase.onCode markers code).1.Follows markers (some tagLine) (pieces ++ [code]) := by
  cases phase with
  | idle =>
    obtain hnone | ⟨front, buffer, hfront, hcaptured, hread⟩ := h
    · cases hnone
    · exact Or.inr ⟨front, buffer, hfront.trans (List.prefix_append _ _), hcaptured, hread⟩
  | armed number isTemplate =>
    obtain ⟨hnumber, hnone, htemplate⟩ := h
    obtain rfl := Option.some.inj hnumber
    have hcaptured := captured?_concat markers pieces code
    rw [hnone] at hcaptured
    dsimp only at hcaptured
    unfold Phase.onCode
    cases hcut : cut? markers.declaration code with
    | none =>
      have hbefore : beforeKeyword markers [code] = [code] := by rw [beforeKeyword, hcut]; rfl
      refine ⟨rfl, ?_, ?_⟩
      · rw [hcaptured, captured?, hcut]
        rfl
      · rw [Bool.or_eq_true, isIntroduced_concat markers hnone code code hbefore, htemplate]
    | some parts =>
      have hbefore : beforeKeyword markers [code] = [parts.1] := by rw [beforeKeyword, hcut]
      refine follows_close ?_ (trim_isPrefix_trim_append _ _) head?_trim getLast?_trimEnd ?_
      · rw [hcaptured, captured?, hcut]
        rfl
      · rw [Bool.or_eq_true, isIntroduced_concat markers hnone code parts.1 hbefore, htemplate]
  | capturing number isTemplate buffer =>
    obtain ⟨hnumber, hcapture, htemplate⟩ := h
    obtain rfl := Option.some.inj hnumber
    obtain ⟨hhead, hlast⟩ := edges_extend hcapture.head hcapture.last code
    refine follows_close ?_ (hcapture.keyword.trans (isPrefix_extend buffer code)) hhead hlast ?_
    · rw [captured?_concat, hcapture.captured]
    · -- the declaration keyword is met already, so nothing is added before it
      have hbefore := beforeKeyword_concat markers pieces code
      rw [hcapture.captured, List.append_nil] at hbefore
      rw [htemplate, IsIntroduced, IsIntroduced, hbefore]

end

/-! ## The phases of a text -/

section
variable (markers : Markers) (source : SourceFile)

/-- One more line goes on from the phase before it. -/
lemma scan_concat (phase : Phase) (number : Nat) (lines : List Text) (line : Text) :
    (scan markers source phase number (lines ++ [line])).1 =
      ((scan markers source phase number lines).1.onLine markers source (number + lines.length)
        line).1 := by
  induction lines generalizing phase number with
  | nil => rfl
  | cons first lines ih =>
    rw [List.cons_append, scan, scan, List.length_cons]
    dsimp only
    rw [ih, Nat.add_right_comm, Nat.add_assoc]

/-- The phase after lines follows the last tag in them and the code since. -/
theorem follows_scan (lines : List Text) :
    (scan markers source .idle 1 lines).1.Follows markers (lastTagLine? markers lines)
      (codeSinceTag markers lines) := by
  induction lines using List.reverseRecOn with
  | nil => exact Or.inl rfl
  | append_singleton lines line ih =>
    rw [scan_concat, (signatures_onLine markers source _ _ line).1, lastTagLine?_concat]
    by_cases htag : markers.tag <:+: line
    · obtain ⟨before, after, hcut⟩ := exists_cut?_of_isInfix htag
      have hstart : (Phase.ofTag (1 + lines.length)).Follows markers (some (1 + lines.length)) [] :=
        ⟨rfl, rfl, by simp [IsIntroduced, beforeKeyword]⟩
      rw [if_pos htag, codeSinceTag_concat_of_tagged markers lines htag, Phase.atLine, hcut,
        Nat.add_comm lines.length]
      exact hstart.onCode (codeIn markers line)
    · rw [if_neg htag, Phase.atLine, (cut?_eq_none_iff _ _).mpr htag]
      cases hlast : lastTagLine? markers lines with
      | some number =>
        rw [hlast] at ih
        rw [codeSinceTag_concat_of_untagged markers htag hlast]
        exact ih.onCode (codeIn markers line)
      | none =>
        -- without any tag nothing is pending
        rw [hlast] at ih
        cases hphase : (scan markers source .idle 1 lines).1 with
        | idle => exact Or.inl rfl
        | armed tagLine isTemplate =>
          rw [hphase] at ih
          cases ih.1
        | capturing tagLine isTemplate buffer =>
          rw [hphase] at ih
          cases ih.1

/-- After any lines of a text, what is pending is the last tag in them. The template keyword was
introduced if and only if it stands as a whole word in the code between that tag and the
declaration keyword, and a capture has the text from the declaration keyword on, without white space
around it, as long as no declaration is read off it. The findings in the text go on from there. -/
theorem phase_follows (text : Text) (count : Nat) :
    let lines := (Text.lines text).take count
    let reached := scan markers source .idle 1 lines
    reached.1.Follows markers (lastTagLine? markers lines) (codeSinceTag markers lines) ∧
      findings markers source text =
        reached.2 ++ findingsFrom markers source reached.1 (1 + lines.length)
          ((Text.lines text).drop count) := by
  intro lines reached
  refine ⟨follows_scan markers source lines, ?_⟩
  have happend := findingsFrom_append markers source .idle 1 lines ((Text.lines text).drop count)
  rw [List.take_append_drop] at happend
  exact happend

end

/-- The template keyword behind the declaration keyword does not count. -/
example :
    let source := SourceFile.ofPath ⟨"a.cu".toList⟩
    let lines := ["// @kernel".toList, "__global__ void f( // open".toList,
      "  template<int> class T,".toList]
    (scan Markers.default source .idle 1 lines).1 =
      .capturing 1 false "__global__ void f( template<int> class T,".toList := by
  decide +kernel

end KernelCensus.Extraction
