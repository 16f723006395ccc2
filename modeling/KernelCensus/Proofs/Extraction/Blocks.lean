import KernelCensus.Proofs.Declaration.Reading
import KernelCensus.Proofs.Extraction.Lines

/-!
# Extraction of well-formed declarations

Under the default markers each well-formed tagged declaration is extracted, with its name, its
parameters and whether it is a template, and nothing else is. The declaration may be broken into
lines at any of its white space, with comments at the ends of lines. What carries the induction over
its lines is that the captured text has the words of a front of the declaration: no proper front is
read as a declaration, so the capture goes on, and the whole is, so it ends there.

* `findingsFrom_close`: the lines that a capture goes on with.
* `findingsFrom_body`, `findingsFrom_block`: a declaration, and a tag with its declaration.
* `signatures_of_blocks`: a whole text.
-/

namespace KernelCensus.Extraction

open Unicode Text

/-! ## Well-formed blocks -/

/-- A line without the comment at its end, by the default markers. -/
def codeOf (line : Text) : Text := stripComment Markers.default.lineComment line

/-- Whether a line has no tag. -/
def Untagged (line : Text) : Prop := ¬ Markers.default.tag <:+: line

instance (line : Text) : Decidable (Untagged line) :=
  inferInstanceAs (Decidable (¬ Markers.default.tag <:+: line))

/-- A tagged declaration and the lines after it. -/
structure Block where
  /-- The lines between the tag and the declaration. -/
  headers : List Text
  body : List Text
  /-- The code before the declaration keyword on its line. -/
  before : Text
  spelling : Declaration.Spelling
  /-- The code after the declaration on its last line. -/
  trailer : Text
  /-- The lines after the declaration, up to the next tag. -/
  after : List Text
deriving Repr, DecidableEq

namespace Block

variable (block : Block)

/-- The lines of a block. -/
def lines : List Text :=
  "// @kernel".toList :: (block.headers ++ (block.body ++ block.after))

/-- The code of the declaration, with the line breaks in it. -/
def declarationText : Text :=
  block.before ++ (Markers.default.declaration ++ (block.spelling.text ++ block.trailer))

/-- A well-formed block. The lines of the declaration may hold comments and break it anywhere
between its words. -/
structure WellFormed : Prop where
  headers_untagged : ∀ line ∈ block.headers, Untagged line
  headers_code : ∀ line ∈ block.headers, ¬ Markers.default.declaration <:+: codeOf line
  body_untagged : ∀ line ∈ block.body, Untagged line
  /-- The code of these lines is that of the declaration. -/
  body_code : joinWith ['\n'] (block.body.map codeOf) = block.declarationText
  before_line : '\n' ∉ block.before
  before_code : ¬ Markers.default.declaration <:+: block.before
  spelling : block.spelling.WellFormed Markers.default.attributes
  trailer_line : '\n' ∉ block.trailer
  trailer_free : ∀ keyword ∈ Markers.default.attributes, ¬ keyword <:+: block.trailer
  after_untagged : ∀ line ∈ block.after, Untagged line

/-- The code before the first occurrence of the keyword. It is shorter than what is written before
the keyword only where the end of that runs into the keyword to make another one. -/
def prologue : Text :=
  ((cut? Markers.default.declaration (block.before ++ Markers.default.declaration)).map
    Prod.fst).getD block.before

/-- Whether the template keyword stands in the headers. -/
def inHeaders : Bool :=
  block.headers.any fun line => mentionsTemplate Markers.default (codeOf line)

/-- Whether the template keyword stands between the tag and the declaration. -/
def isTemplate : Bool :=
  block.inHeaders || mentionsTemplate Markers.default block.prologue

/-- The signature of a block. -/
def signature (source : SourceFile) : Signature where
  source := source
  name := block.spelling.name.filter fun c => !isWhiteSpace c
  parameters := squeeze block.spelling.parameters
  isTemplate := block.isTemplate

end Block

/-! ## Default markers -/

/-- The default keywords of attributes are words of which none holds another one. -/
lemma separate_default : Attribute.Separate Markers.default.attributes where
  word := by decide +kernel
  apart := by decide +kernel

/-- A text that does not hold the declaration keyword runs into it to make another one only if it is
the keyword up to the low lines at its end, or up to the last of them. -/
lemma eq_of_append_eq {front after : Text} (hfront : ¬ Markers.default.declaration <:+: front)
    (heq : front ++ Markers.default.declaration = Markers.default.declaration ++ after) :
    front = [] ∨ front = "__global".toList ∨ front = "__global_".toList := by
  have hall : ∀ front ∈ Markers.default.declaration.inits,
      Markers.default.declaration <+: front ++ Markers.default.declaration →
        front = Markers.default.declaration ∨ front = [] ∨ front = "__global".toList ∨
          front = "__global_".toList := by
    decide +kernel
  have hmem : front ∈ Markers.default.declaration.inits := by
    rw [List.mem_inits]
    have hpre : front <+: Markers.default.declaration ++ after := ⟨_, heq⟩
    rcases List.prefix_or_prefix_of_prefix hpre (List.prefix_append _ after) with hle | hge
    · exact hle
    · exact absurd hge.isInfix hfront
  -- the whole keyword is excluded, for the text does not hold it
  rcases hall front hmem ⟨after, heq.symm⟩ with rfl | hstart
  · exact absurd (List.infix_refl _) hfront
  · exact hstart

/-- The word that such a text makes with the keyword is none of an attribute. -/
lemma wellFormed_stem {front after : Text} (hfront : ¬ Markers.default.declaration <:+: front)
    (heq : front ++ Markers.default.declaration = Markers.default.declaration ++ after) :
    (Declaration.Specifier.word (Markers.default.declaration ++ after)).WellFormed
      Markers.default.attributes := by
  rw [← heq]
  rcases eq_of_append_eq hfront heq with rfl | rfl | rfl
  · exact .word (by decide) (by decide) (by decide +kernel)
  · exact .word (by decide) (by decide) (by decide +kernel)
  · exact .word (by decide) (by decide) (by decide +kernel)

/-! ## Headers -/

section
variable (markers : Markers) (source : SourceFile)

/-- Headers of a declaration count by the template keyword only. -/
lemma findingsFrom_armed {lines : List Text} (h : ∀ line ∈ lines, ¬ markers.tag <:+: line)
    (hcode : ∀ line ∈ lines, ¬ markers.declaration <:+: stripComment markers.lineComment line)
    (tagLine number : Nat) (isTemplate : Bool) (rest : List Text) :
    findingsFrom markers source (.armed tagLine isTemplate) number (lines ++ rest) =
      findingsFrom markers source
        (.armed tagLine (isTemplate || lines.any fun line =>
          mentionsTemplate markers (stripComment markers.lineComment line)))
        (number + lines.length) rest := by
  induction lines generalizing number isTemplate with
  | nil =>
    rw [List.any_nil, Bool.or_false]
    rfl
  | cons line lines ih =>
    have hline := onLine_of_untagged markers source (h line List.mem_cons_self)
      (.armed tagLine isTemplate) number
    rw [Phase.onCode, (cut?_eq_none_iff _ _).mpr (hcode line List.mem_cons_self)] at hline
    rw [List.cons_append, findingsFrom, hline, List.any_cons, ← Bool.or_assoc, List.length_cons]
    show findingsFrom markers source (.armed tagLine _) (number + 1) (lines ++ rest) = _
    rw [ih (fun l hl => h l (List.mem_cons_of_mem line hl))
      fun l hl => hcode l (List.mem_cons_of_mem line hl)]
    congr 1
    omega

end

/-! ## Captured text -/

lemma words_extend (buffer code : Text) :
    words (extend buffer code) = words buffer ++ words code := by
  unfold extend
  dsimp only
  split
  · next hempty =>
    have hwords := words_trim code
    rw [List.isEmpty_iff.mp hempty] at hwords
    rw [← hwords]
    exact (List.append_nil _).symm
  · split
    · next hempty =>
      rw [words_trim, List.isEmpty_iff.mp hempty]
      rfl
    · rw [words_append_blank isWhiteSpace_space, words_trim]

lemma extend_cons (c : Char) (buffer code : Text) :
    ∃ rest, extend (c :: buffer) code = c :: rest := by
  unfold extend
  dsimp only
  split
  · exact ⟨buffer, rfl⟩
  · rw [if_neg (by simp)]
    exact ⟨_, rfl⟩

lemma trim_cons {c : Char} (hc : ¬ isWhiteSpace c = true) (text : Text) :
    ∃ rest, trim (c :: text) = c :: rest := by
  have hne : words (c :: text) ≠ [] := by
    cases text with
    | nil =>
      rw [words_of_letters (List.cons_ne_nil c []) (by simpa using hc)]
      exact List.cons_ne_nil _ _
    | cons d text =>
      intro h
      have hsqueeze := squeeze_cons_letter hc (d :: text)
      rw [squeeze, h] at hsqueeze
      cases hsqueeze
  have hfront : trim (c :: text) <+: c :: text := by
    rw [trim, trimStart_cons_letter hc, trimEnd]
    have hsuffix := List.dropWhile_suffix isWhiteSpace (l := (c :: text).reverse)
    rw [← List.reverse_prefix, List.reverse_reverse] at hsuffix
    exact hsuffix
  rcases List.prefix_cons_iff.mp hfront with hnil | ⟨rest, heq, -⟩
  · have hwords := words_trim (c :: text)
    rw [hnil] at hwords
    exact absurd hwords.symm hne
  · exact ⟨rest, heq⟩

section
variable {stem : Text} (hstem : (Declaration.Specifier.word stem).WellFormed
    Markers.default.attributes) {spelling : Declaration.Spelling}
  (h : spelling.WellFormed Markers.default.attributes) {trailer : Text}
  (htrailer : ∀ keyword ∈ Markers.default.attributes, ¬ keyword <:+: trailer)
  (hline : '\n' ∉ trailer)

include hstem h

/-- What is captured before a line break is not read as a declaration. -/
lemma ofText?_before_break (hline : '\n' ∉ trailer) {front rest : Text}
    (heq : front ++ '\n' :: rest = stem ++ (spelling.text ++ trailer)) :
    Declaration.ofText? Markers.default.attributes front = none := by
  have hfront : front <+: stem ++ spelling.text ++ trailer := ⟨'\n' :: rest, by rw [heq]; simp⟩
  rcases isPrefix_append_cases hfront with hinside | ⟨last, rfl, -⟩
  · refine Declaration.ofText?_of_isPrefix separate_default hstem h hinside fun hsame => ?_
    rw [hsame, ← List.append_assoc, List.append_cancel_left_eq] at heq
    exact hline (heq ▸ List.mem_cons_self)
  -- a break behind the declaration would stand in the trailer
  · rw [← List.append_assoc, List.append_assoc, List.append_cancel_left_eq] at heq
    exact absurd (heq ▸ List.mem_append_right last List.mem_cons_self) hline

include htrailer hline

/-- The lines of a declaration end the capture with its signature, if what is captured before them
has the words of the front of the declaration that they go on with. -/
theorem findingsFrom_close (source : SourceFile) {lines : List Text}
    (huntagged : ∀ line ∈ lines, Untagged line) {c d : Char} {buffer front : Text}
    (hc : ¬ isWhiteSpace c = true) (hd : ¬ isWhiteSpace d = true)
    (hwords : words (c :: buffer) = words (d :: front))
    (heq : d :: front ++ lines.flatMap (fun line => '\n' :: codeOf line) =
      stem ++ (spelling.text ++ trailer))
    (tagLine number : Nat) (isTemplate : Bool) (rest : List Text) :
    ((close Markers.default tagLine isTemplate (c :: buffer)).2.map
        (Capture.finding source)).toList ++
      findingsFrom Markers.default source
        (close Markers.default tagLine isTemplate (c :: buffer)).1 number (lines ++ rest) =
      .declared tagLine ⟨source, spelling.name.filter fun c => !isWhiteSpace c,
        squeeze spelling.parameters, isTemplate⟩ ::
        findingsFrom Markers.default source .idle (number + lines.length) rest := by
  have hread {buffer front : Text} (hwords : words (c :: buffer) = words (d :: front)) :
      Declaration.ofText? Markers.default.attributes (c :: buffer) =
        Declaration.ofText? Markers.default.attributes (d :: front) :=
    Declaration.ofText?_eq_of_words_eq separate_default.plain
      (by rintro e ⟨⟩; exact hc) (by rintro e ⟨⟩; exact hd) hwords
  induction lines generalizing buffer front number with
  | nil =>
    rw [List.flatMap_nil, List.append_nil] at heq
    -- no line is left, so the capture has the words of the whole declaration
    rw [close, hread hwords, heq, Declaration.ofText?_spelling separate_default hstem h htrailer]
    dsimp only
    rw [Option.map_some, Capture.finding, Declaration.name?_spelling hstem h]
    rfl
  | cons line lines ih =>
    have hbreak : isWhiteSpace '\n' = true := by decide
    obtain ⟨buffer', hbuffer'⟩ := extend_cons c buffer (codeOf line)
    have hstep : words (c :: buffer') = words (d :: (front ++ '\n' :: codeOf line)) := by
      rw [← hbuffer', words_extend, hwords, ← List.cons_append, words_append_blank hbreak]
    have hmore : d :: (front ++ '\n' :: codeOf line) ++
        lines.flatMap (fun line => '\n' :: codeOf line) =
          stem ++ (spelling.text ++ trailer) := by
      rw [← heq, List.flatMap_cons]
      simp
    -- the capture goes on: what is captured so far is a front that is not read yet
    have hopen : Declaration.ofText? Markers.default.attributes (c :: buffer) = none := by
      rw [hread hwords]
      exact ofText?_before_break hstem h hline heq
    have hnext := onLine_of_untagged Markers.default source
      (huntagged line List.mem_cons_self) (.capturing tagLine isTemplate (c :: buffer)) number
    rw [Phase.onCode, ← codeOf, hbuffer'] at hnext
    have hrest := ih (fun l hl => huntagged l (List.mem_cons_of_mem line hl)) hstep hmore
      (number + 1)
    rw [close, hopen]
    dsimp only
    rw [Option.map_none, Option.toList_none, List.nil_append, List.cons_append, findingsFrom,
      hnext, hrest, List.length_cons (a := line)]
    congr 2
    omega

end

/-! ## Blocks -/

section
variable {block : Block} (h : block.WellFormed)

include h

/-- The first line of a declaration holds the keyword, and the others go on behind it. -/
lemma exists_first_line :
    ∃ line lines code, block.body = line :: lines ∧
      codeOf line = block.before ++ Markers.default.declaration ++ code ∧
      code ++ lines.flatMap (fun line => '\n' :: codeOf line) =
        block.spelling.text ++ block.trailer := by
  cases hbody : block.body with
  | nil =>
    have hcode := h.body_code
    rw [hbody, List.map_nil, Block.declarationText] at hcode
    have hkeyword : Markers.default.declaration ≠ [] := by decide
    have hempty := List.append_eq_nil_iff.mp hcode.symm
    exact absurd (List.append_eq_nil_iff.mp hempty.2).1 hkeyword
  | cons line lines =>
    have hcode := h.body_code
    have hmap : (lines.map codeOf).flatMap (['\n'] ++ ·) =
        lines.flatMap fun line => '\n' :: codeOf line := List.flatMap_map ..
    rw [hbody, List.map_cons, joinWith_cons, hmap, Block.declarationText,
      ← List.append_assoc block.before] at hcode
    rcases List.append_eq_append_iff.mp hcode with ⟨rest, hfront, hback⟩ | ⟨code, hfront, hback⟩
    · -- a line break would stand before the keyword or in it
      cases rest with
      | nil =>
        rw [List.append_nil] at hfront
        exact ⟨line, lines, [], rfl, by rw [hfront, List.append_nil], hback⟩
      | cons c rest =>
        have hc : c = '\n' := by
          cases lines with
          | nil => cases hback
          | cons next lines =>
            rw [List.flatMap_cons, List.cons_append, List.cons_append, List.cons.injEq] at hback
            exact hback.1.symm
        have hmem : '\n' ∈ block.before ++ Markers.default.declaration := by
          rw [hfront, hc]
          exact List.mem_append_right _ List.mem_cons_self
        rcases List.mem_append.mp hmem with hbefore | hkeyword
        · exact absurd hbefore h.before_line
        · exact absurd hkeyword (by decide)
    · exact ⟨line, lines, code, rfl, hfront, hback.symm⟩

/-- The keyword is found where it is written, or where the code before it runs into it. -/
lemma exists_stem :
    ∃ rest after, block.before = block.prologue ++ rest ∧
      ¬ Markers.default.declaration <:+: rest ∧
      rest ++ Markers.default.declaration = Markers.default.declaration ++ after ∧
      ∀ code, cut? Markers.default.declaration
        (block.before ++ Markers.default.declaration ++ code) =
          some (block.prologue, after ++ code) := by
  obtain ⟨prologue, after, hcut⟩ := exists_cut?_of_isInfix
    (List.suffix_append block.before Markers.default.declaration).isInfix
  have hprologue : block.prologue = prologue := by
    rw [Block.prologue, hcut]
    rfl
  have hfound (code : Text) := cut?_append hcut code
  have heq := eq_append_of_cut? hcut
  rw [List.append_assoc prologue] at heq
  rw [hprologue]
  -- the first occurrence is not behind the keyword that is written
  rcases List.append_eq_append_iff.mp heq with ⟨rest, hfront, hkeyword⟩ | ⟨rest, hfront, hkeyword⟩
  · have hlength := congrArg List.length hkeyword
    rw [List.length_append, List.length_append] at hlength
    have hrest : rest = [] := List.length_eq_zero_iff.mp (by omega)
    rw [hrest, List.nil_append] at hkeyword
    rw [hrest, List.append_nil] at hfront
    exact ⟨[], after, by rw [hfront, List.append_nil], by decide, hkeyword, hfound⟩
  · refine ⟨rest, after, hfront, fun hmem => h.before_code ?_, hkeyword.symm, hfound⟩
    rw [hfront]
    exact hmem.trans (List.suffix_append _ _).isInfix

/-- The lines of a well-formed declaration lead to its signature. -/
theorem findingsFrom_body (source : SourceFile) (tagLine number : Nat) (isTemplate : Bool)
    (rest : List Text) :
    findingsFrom Markers.default source (.armed tagLine isTemplate) number (block.body ++ rest) =
      .declared tagLine ⟨source, block.spelling.name.filter fun c => !isWhiteSpace c,
        squeeze block.spelling.parameters,
        isTemplate || mentionsTemplate Markers.default block.prologue⟩ ::
        findingsFrom Markers.default source .idle (number + block.body.length) rest := by
  obtain ⟨line, lines, code, hbody, hline, hcode⟩ := exists_first_line h
  obtain ⟨overlap, after, -, hfree, hkeyword, hcut⟩ := exists_stem h
  have hletter : ¬ isWhiteSpace '_' = true := by decide
  obtain ⟨front, hfront⟩ : ∃ front, Markers.default.declaration = '_' :: front := ⟨_, rfl⟩
  obtain ⟨buffer, hbuffer⟩ := trim_cons hletter (front ++ (after ++ code))
  -- the capture starts with the words from the keyword on
  have hwords : words ('_' :: buffer) = words ('_' :: (front ++ after ++ code)) := by
    rw [← hbuffer, words_trim, List.append_assoc]
  have hwhole : '_' :: (front ++ after ++ code) ++
      lines.flatMap (fun line => '\n' :: codeOf line) =
        Markers.default.declaration ++ after ++ (block.spelling.text ++ block.trailer) := by
    rw [← hcode, hfront]
    simp
  have huntagged : ∀ l ∈ line :: lines, Untagged l := hbody ▸ h.body_untagged
  have hfirst := onLine_of_untagged Markers.default source (huntagged line List.mem_cons_self)
    (.armed tagLine isTemplate) number
  rw [Phase.onCode, ← codeOf, hline, hcut] at hfirst
  dsimp only at hfirst
  rw [hfront, List.cons_append, hbuffer] at hfirst
  rw [hbody, List.cons_append, findingsFrom, hfirst]
  refine (findingsFrom_close (wellFormed_stem hfree hkeyword) h.spelling h.trailer_free
    h.trailer_line source (fun l hl => huntagged l (List.mem_cons_of_mem line hl)) hletter hletter
    hwords hwhole tagLine (number + 1) _ rest).trans ?_
  rw [List.length_cons]
  congr 2
  omega

/-- A tag that is followed by a well-formed declaration leads to its signature, and the lines after
it to nothing. -/
theorem findingsFrom_block (source : SourceFile) (number : Nat) (rest : List Text) :
    findingsFrom Markers.default source .idle number (block.lines ++ rest) =
      .declared number (block.signature source) ::
        findingsFrom Markers.default source .idle (number + block.lines.length) rest := by
  have htag : Phase.idle.onLine Markers.default source number "// @kernel".toList =
      (.armed number false, []) := by rfl
  have hheaders : findingsFrom Markers.default source (.armed number false) (number + 1)
      (block.headers ++ (block.body ++ (block.after ++ rest))) =
        findingsFrom Markers.default source (.armed number block.inHeaders)
          (number + 1 + block.headers.length) (block.body ++ (block.after ++ rest)) :=
    findingsFrom_armed Markers.default source h.headers_untagged h.headers_code number (number + 1)
      false _
  have hlength : block.lines.length =
      1 + block.headers.length + block.body.length + block.after.length := by
    simp only [Block.lines, List.length_cons, List.length_append]
    omega
  have hsplit : block.lines ++ rest =
      "// @kernel".toList :: (block.headers ++ (block.body ++ (block.after ++ rest))) := by
    simp [Block.lines]
  rw [hsplit, findingsFrom, htag, List.nil_append, hheaders, findingsFrom_body h,
    findingsFrom_idle Markers.default source h.after_untagged, hlength]
  show _ :: findingsFrom _ _ _ _ rest = _
  congr 2
  omega

end

/-! ## Whole texts -/

/-- Blocks one after another lead to their signatures, and no tag is dropped. -/
lemma findingsFrom_blocks {blocks : List Block} (h : ∀ block ∈ blocks, block.WellFormed)
    (source : SourceFile) (number : Nat) :
    let found := findingsFrom Markers.default source .idle number (blocks.flatMap Block.lines)
    found.filterMap Finding.signature? = blocks.map (·.signature source) ∧
      found.filterMap (Finding.notice? source) = [] := by
  intro found
  induction blocks generalizing number with
  | nil => exact ⟨rfl, rfl⟩
  | cons block blocks ih =>
    obtain ⟨hsignatures, hnotices⟩ := ih (fun b hb => h b (List.mem_cons_of_mem block hb))
      (number + block.lines.length)
    have hfound : found = .declared number (block.signature source) ::
        findingsFrom Markers.default source .idle (number + block.lines.length)
          (blocks.flatMap Block.lines) :=
      findingsFrom_block (h block List.mem_cons_self) source number _
    constructor
    · rw [hfound, List.map_cons, ← hsignatures]
      rfl
    · rw [hfound, ← hnotices]
      rfl

/-- A text of well-formed blocks, with lines without tag before them, has one signature for each
block, in order, and nothing of it is dropped. -/
theorem signatures_of_blocks (source : SourceFile) {preamble : List Text}
    (hpreamble : ∀ line ∈ preamble, Untagged line) {blocks : List Block}
    (hblocks : ∀ block ∈ blocks, block.WellFormed) {text : Text}
    (htext : Text.lines text = preamble ++ blocks.flatMap Block.lines) :
    signatures Markers.default source text = blocks.map (·.signature source) ∧
      notices Markers.default source text = [.scannedSource source.name blocks.length] := by
  have hfindings : findings Markers.default source text =
      findingsFrom Markers.default source .idle (1 + preamble.length)
        (blocks.flatMap Block.lines) := by
    rw [findings, htext, findingsFrom_idle Markers.default source hpreamble]
  obtain ⟨hfound, hdropped⟩ := findingsFrom_blocks hblocks source (1 + preamble.length)
  have hsignatures : signatures Markers.default source text = blocks.map (·.signature source) := by
    rw [signatures, hfindings, hfound]
  refine ⟨hsignatures, ?_⟩
  rw [notices, hsignatures, hfindings, hdropped, List.length_map]
  rfl

/-- A template whose declaration is broken into lines, with an attribute and comments. -/
def Block.scale : Block where
  headers := ["template <typename T>".toList]
  body := ["static __global__ void __launch_bounds__(256) // one block".toList,
    "  ns :: scale(T (*f)(T), // the function".toList, "    int n) \x7b // the size".toList]
  before := "static "
  spelling := {
    specifiers := [([' '], .word "void".toList),
      ([' '], .applied "__launch_bounds__".toList [] "256".toList)]
    nameGap := " \n  "
    name := "ns :: scale"
    listGap := []
    parameters := "T (*f)(T), \n    int n" }
  trailer := " \x7b "
  after := ["\x7d".toList]

lemma Block.wellFormed_scale : Block.scale.WellFormed := by
  have hname : Name.Qualified (['n', 's'] ++ [' '] ++ ':' :: ':' :: [' '] ++ "scale".toList) :=
    .qualified ⟨'n', ['s'], rfl, by decide, List.all_eq_true.mp (by decide)⟩
      (List.all_eq_true.mp (by decide)) (List.all_eq_true.mp (by decide))
      (.identifier ⟨'s', "cale".toList, rfl, by decide, List.all_eq_true.mp (by decide)⟩)
  have hparameters : Parentheses.Balanced ('T' :: ' ' :: ('(' :: "*f".toList ++
      ')' :: ('(' :: ['T'] ++ ')' :: ", \n    int n".toList))) :=
    .other (by decide) (by decide) <| .other (by decide) (by decide) <|
      .group (.of_all (by decide)) <| .group (.of_all (by decide)) (.of_all (by decide))
  exact {
    headers_untagged := by decide +kernel
    headers_code := by decide +kernel
    body_untagged := by decide +kernel
    body_code := by decide +kernel
    before_line := by decide
    before_code := by decide +kernel
    spelling := {
      gaps := List.forall_mem_cons.mpr ⟨by decide, List.forall_mem_singleton.mpr (by decide)⟩
      specifiers := List.forall_mem_cons.mpr ⟨.word (by decide) (by decide) (by decide +kernel),
        List.forall_mem_singleton.mpr (.applied (by decide) (List.all_eq_true.mp (by decide))
          (.of_all (by decide)) (by decide +kernel))⟩
      nameGap := by decide
      name := hname
      listGap := List.all_eq_true.mp (by decide)
      parameters := hparameters
      name_free := by decide +kernel
      parameters_free := by decide +kernel }
    trailer_line := by decide
    trailer_free := by decide +kernel
    after_untagged := by decide +kernel }

/-- A kernel on one line, with its body. -/
def Block.fill : Block where
  headers := []
  body := ["__global__ void fill(float *x) \x7b x[0] = 1; \x7d".toList]
  before := []
  spelling := {
    specifiers := [([' '], .word "void".toList)]
    nameGap := [' ']
    name := "fill"
    listGap := []
    parameters := "float *x" }
  trailer := " \x7b x[0] = 1; \x7d"
  after := []

lemma Block.wellFormed_fill : Block.fill.WellFormed where
  headers_untagged := List.forall_mem_nil _
  headers_code := List.forall_mem_nil _
  body_untagged := by decide +kernel
  body_code := by decide +kernel
  before_line := by decide
  before_code := by decide +kernel
  spelling := {
    gaps := List.forall_mem_singleton.mpr (by decide)
    specifiers :=
      List.forall_mem_singleton.mpr (.word (by decide) (by decide) (by decide +kernel))
    nameGap := by decide
    name := .identifier ⟨'f', "ill".toList, rfl, by decide, List.all_eq_true.mp (by decide)⟩
    listGap := List.forall_mem_nil _
    parameters := .of_all (by decide)
    name_free := by decide +kernel
    parameters_free := by decide +kernel }
  trailer_line := by decide
  trailer_free := by decide +kernel
  after_untagged := List.forall_mem_nil _

/-- The template is extracted under its name without white space, and the kernel behind it is
extracted as well. -/
theorem signatures_of_blocks_scale :
    let source := SourceFile.ofPath ⟨"a.cu".toList⟩
    let text := joinWith ['\n'] ("#include <x>".toList :: (Block.scale.lines ++ Block.fill.lines))
    signatures Markers.default source text =
        [⟨source, "ns::scale".toList, "T (*f)(T), int n".toList, true⟩,
          ⟨source, "fill".toList, "float *x".toList, false⟩] ∧
      notices Markers.default source text = [.scannedSource source.name 2] := by
  intro source text
  have hsignatures : [Block.scale, Block.fill].map (·.signature source) =
      [⟨source, "ns::scale".toList, "T (*f)(T), int n".toList, true⟩,
        ⟨source, "fill".toList, "float *x".toList, false⟩] := by
    decide +kernel
  have hpreamble : ∀ line ∈ ["#include <x>".toList], Untagged line := by decide +kernel
  have hblocks : ∀ block ∈ [Block.scale, Block.fill], block.WellFormed :=
    List.forall_mem_cons.mpr
      ⟨Block.wellFormed_scale, List.forall_mem_singleton.mpr Block.wellFormed_fill⟩
  have hlines : lines text =
      ["#include <x>".toList] ++ [Block.scale, Block.fill].flatMap Block.lines := by
    decide +kernel
  have hscan := signatures_of_blocks source hpreamble hblocks hlines
  rw [hsignatures] at hscan
  exact hscan

end KernelCensus.Extraction
