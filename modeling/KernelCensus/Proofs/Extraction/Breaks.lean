import KernelCensus.Proofs.Declaration.Ahead
import KernelCensus.Proofs.Extraction.Blocks

/-!
# Line breaks in declarations

Once the declaration keyword is met, it does not matter where the code is broken at its white space.
What carries the induction over the pieces is that the captured text has the words of the front of
the code that ends with the last piece. If that front is read as a declaration already, it is the
declaration of the whole code, and otherwise the capture goes on.

* `Cut`: the pieces of a text that is cut at white space.
* `onPieces_close`: the pieces that a capture goes on with.
* `onPieces_of_cut`: all pieces.
-/

namespace KernelCensus.Extraction

open Unicode Text

/-! ## Pieces of code -/

/-- The pieces of a text that is cut at white space. At a cut, white space is dropped, or there is
some at the end of the piece before the cut or at the start of what comes after it. -/
inductive Cut : Text → List Text → Prop
  | whole (text : Text) : Cut text [text]
  /-- A piece, the white space that is dropped, and the pieces of the rest. -/
  | cut {piece gap rest : Text} {pieces : List Text} (hgap : ∀ c ∈ gap, isWhiteSpace c = true)
    (hedge : gap ≠ [] ∨ (∃ c ∈ piece.getLast?, isWhiteSpace c = true) ∨
      ∃ c ∈ rest.head?, isWhiteSpace c = true)
    (hrest : Cut rest pieces) : Cut (piece ++ (gap ++ rest)) (piece :: pieces)

/-- The phase after pieces of code, and what they capture. -/
def Phase.onPieces (markers : Markers) : Phase → List Text → Phase × List Capture
  | phase, [] => (phase, [])
  | phase, piece :: pieces =>
    let step := phase.onCode markers piece
    let later := step.1.onPieces markers pieces
    (later.1, step.2.toList ++ later.2)

lemma onPieces_idle (markers : Markers) (pieces : List Text) :
    Phase.idle.onPieces markers pieces = (.idle, []) := by
  induction pieces with
  | nil => rfl
  | cons piece pieces ih => simp [Phase.onPieces, Phase.onCode, ih]

lemma Cut.exists_cons {text : Text} {pieces : List Text} (h : Cut text pieces) :
    ∃ piece rest others, pieces = piece :: others ∧ text = piece ++ rest := by
  cases h with
  | whole text => exact ⟨text, [], [], rfl, (List.append_nil text).symm⟩
  | cut => exact ⟨_, _, _, rfl, rfl⟩

/-- The front of the first piece may be left out. -/
lemma Cut.of_append {front text piece : Text} {pieces : List Text} (hpiece : piece ≠ [])
    (h : Cut (front ++ text) ((front ++ piece) :: pieces)) : Cut text (piece :: pieces) := by
  generalize hwhole : front ++ text = whole at h
  generalize hfirst : (front ++ piece) :: pieces = all at h
  cases h with
  | whole =>
    obtain ⟨rfl, rfl⟩ := List.cons.inj hfirst
    rw [List.append_cancel_left hwhole]
    exact .whole piece
  | cut hgap hedge hrest =>
    obtain ⟨rfl, rfl⟩ := List.cons.inj hfirst
    rw [List.append_assoc] at hwhole
    rw [List.append_cancel_left hwhole]
    rw [List.getLast?_append_of_ne_nil _ hpiece] at hedge
    exact .cut hgap hedge hrest

/-! ## Words at a cut -/

/-- Words come apart where one text ends or the other starts with white space. -/
lemma words_append_of_edge {front back : Text}
    (h : (∃ c ∈ front.getLast?, isWhiteSpace c = true) ∨ ∃ c ∈ back.head?, isWhiteSpace c = true) :
    words (front ++ back) = words front ++ words back := by
  rcases h with ⟨c, hlast, hc⟩ | ⟨c, hhead, hc⟩
  · obtain ⟨init, rfl⟩ := List.getLast?_eq_some_iff.mp hlast
    rw [List.append_assoc, List.singleton_append, words_append_blank hc, words_append_blank hc]
    simp [words]
  · obtain ⟨tail, rfl⟩ := List.head?_eq_some_iff.mp hhead
    rw [words_append_blank hc, words_cons_blank hc]

lemma words_cut {front gap back rest : Text} (hgap : ∀ c ∈ gap, isWhiteSpace c = true)
    (hedge : gap ≠ [] ∨ (∃ c ∈ front.getLast?, isWhiteSpace c = true) ∨
      ∃ c ∈ (back ++ rest).head?, isWhiteSpace c = true) :
    words (front ++ (gap ++ back)) = words front ++ words back := by
  cases gap with
  | cons c gap =>
    have hc := hgap c List.mem_cons_self
    rw [List.cons_append, words_append_blank hc,
      words_append_blank_left fun d hd => hgap d (List.mem_cons_of_mem c hd)]
  | nil =>
    cases back with
    | nil => simp [words]
    | cons c back => exact words_append_of_edge (hedge.resolve_left (by simp))

/-- What is found first in a text is found first in a front of it that holds it. -/
lemma cut?_of_append {needle before start rest after : Text}
    (h : cut? needle (before ++ needle ++ start ++ rest) = some (before, after)) :
    cut? needle (before ++ needle ++ start) = some (before, start) := by
  obtain ⟨before', start', hfound⟩ := exists_cut?_of_isInfix
    (⟨before, start, rfl⟩ : needle <:+: before ++ needle ++ start)
  have hwhole := cut?_append hfound rest
  rw [h, Option.some.injEq, Prod.mk.injEq] at hwhole
  obtain ⟨rfl, -⟩ := hwhole
  have hsame := eq_append_of_cut? hfound
  rw [List.append_cancel_left_eq] at hsame
  rw [hfound, hsame]

/-! ## Keywords of attributes -/

/-- The keywords of attributes that are not empty. -/
def attributeWords (markers : Markers) : List Text :=
  markers.attributes.filter fun keyword => !keyword.isEmpty

section
variable {markers : Markers}
  (hattributes : ∀ keyword ∈ markers.attributes, ∀ c ∈ keyword, Name.isPart c = true)

include hattributes

lemma isWord_of_mem_attributeWords : ∀ keyword ∈ attributeWords markers, IsWord keyword := by
  intro keyword hmem
  obtain ⟨hkeyword, hne⟩ := List.mem_filter.mp hmem
  exact isWord_of_isPart (by simpa using hne) (hattributes keyword hkeyword)

lemma ofText?_attributeWords (text : Text) :
    Declaration.ofText? markers.attributes text =
      Declaration.ofText? (attributeWords markers) text := by
  have htrim : ∀ keyword ∈ markers.attributes, trim keyword = keyword := fun keyword hmem =>
    trim_of_letters fun c hc => Name.letter_of_isPart (hattributes keyword hmem c hc)
  have htrim' : ∀ keyword ∈ attributeWords markers, trim keyword = keyword := fun keyword hmem =>
    htrim keyword (List.mem_filter.mp hmem).1
  have herase : Attribute.eraseAll? markers.attributes text =
      Attribute.eraseAll? (attributeWords markers) text := by
    rw [Attribute.eraseAll?, Attribute.eraseAll?, List.map_congr_left htrim,
      List.map_congr_left htrim']
    simp [attributeWords]
  rw [Declaration.ofText?_eq_bind, Declaration.ofText?_eq_bind, herase]

/-- Texts that start with letters and have the same words are read as the same declaration. -/
lemma ofText?_eq_of_words_eq {c d : Char} {first second : Text} (hc : ¬ isWhiteSpace c = true)
    (hd : ¬ isWhiteSpace d = true) (h : words (c :: first) = words (d :: second)) :
    Declaration.ofText? markers.attributes (c :: first) =
      Declaration.ofText? markers.attributes (d :: second) := by
  have hkeywords := isWord_of_mem_attributeWords hattributes
  rw [ofText?_attributeWords hattributes, ofText?_attributeWords hattributes]
  exact Declaration.ofText?_eq_of_words_eq
    ⟨fun k hk => (hkeywords k hk).nonempty, fun k hk => (hkeywords k hk).not_blank⟩
    (by simpa using hc) (by simpa using hd) h

/-- What is captured at once is what the text is read as, with the white space around it as well. -/
lemma exists_declaration_of_close {c : Char} {text : Text} (hc : ¬ isWhiteSpace c = true)
    {tagLine : Nat} {isTemplate : Bool} {capture : Capture}
    (h : (close markers tagLine isTemplate (trim (c :: text))).2 = some capture) :
    ∃ declaration, capture = ⟨tagLine, isTemplate, declaration⟩ ∧
      Declaration.ofText? markers.attributes (c :: text) = some declaration := by
  obtain ⟨whole, hwhole⟩ := trim_cons hc text
  have hwords : words (c :: whole) = words (c :: text) := by
    rw [← hwhole, words_trim]
  rw [← ofText?_eq_of_words_eq hattributes hc hc hwords, ← hwhole]
  unfold close at h
  split at h
  · next declaration hdeclaration =>
    cases h
    exact ⟨declaration, rfl, hdeclaration⟩
  · cases h

/-! ## Going on with a capture -/

/-- Pieces end the capture with the declaration of the whole code, if what is captured has the words
of the front of the code that ends with the piece before them. -/
theorem onPieces_close {text piece : Text} {pieces : List Text} (hcut : Cut text (piece :: pieces))
    {front buffer stem : Text} {c d : Char} (hc : ¬ isWhiteSpace c = true)
    (hd : ¬ isWhiteSpace d = true) (hstem : front ++ piece = d :: stem)
    (hwords : words (c :: buffer) = words (d :: stem)) {declaration : Declaration}
    (hwhole : Declaration.ofText? markers.attributes (front ++ text) = some declaration)
    (tagLine : Nat) (isTemplate : Bool) :
    let step := close markers tagLine isTemplate (c :: buffer)
    let later := step.1.onPieces markers pieces
    (later.1, step.2.toList ++ later.2) = (.idle, [⟨tagLine, isTemplate, declaration⟩]) := by
  have hkeywords := isWord_of_mem_attributeWords hattributes
  generalize hall : piece :: pieces = all at hcut
  induction hcut generalizing piece pieces front buffer stem with
  | whole =>
    obtain ⟨rfl, rfl⟩ := List.cons.inj hall
    -- no piece is left, so the capture has the words of the whole code
    rw [hstem, ← ofText?_eq_of_words_eq hattributes hc hd hwords] at hwhole
    simp [close, hwhole, Phase.onPieces]
  | @cut first gap rest others hgap hedge hrest ih =>
    obtain ⟨rfl, rfl⟩ := List.cons.inj hall
    cases hearly : Declaration.ofText? markers.attributes (c :: buffer) with
    | some early =>
      -- the front is read already, and it is read as the whole code is
      have hsame : early = declaration := by
        rw [ofText?_eq_of_words_eq hattributes hc hd hwords, ofText?_attributeWords hattributes,
          ← hstem] at hearly
        rw [ofText?_attributeWords hattributes, ← List.append_assoc] at hwhole
        exact Declaration.ofText?_append hkeywords hearly hwhole
      simp [close, hearly, hsame, onPieces_idle]
    | none =>
      obtain ⟨next, after, others, rfl, rfl⟩ := hrest.exists_cons
      obtain ⟨buffer', hbuffer'⟩ := extend_cons c buffer next
      have hedge' : gap ≠ [] ∨ (∃ e ∈ (d :: stem).getLast?, isWhiteSpace e = true) ∨
          ∃ e ∈ (next ++ after).head?, isWhiteSpace e = true := by
        refine hedge.imp_right (Or.imp_left ?_)
        rintro ⟨e, he, hblank⟩
        refine ⟨e, ?_, hblank⟩
        rw [← hstem, List.getLast?_append, Option.mem_def.mp he]
        rfl
      have hstep : words (c :: buffer') = words (d :: (stem ++ (gap ++ next))) := by
        rw [← hbuffer', words_extend, hwords, ← List.cons_append, words_cut hgap hedge']
      have hnext : front ++ piece ++ gap ++ next = d :: (stem ++ (gap ++ next)) := by
        simp [hstem]
      have hrest := ih hnext hstep (by simpa using hwhole) rfl
      simpa [close, hearly, Phase.onPieces, Phase.onCode, hbuffer'] using hrest

end

/-- A marker that has to be given is not blank in markers without fault. -/
lemma not_isBlank_of_fault? {markers : Markers} (h : markers.fault? = none)
    (marker : Markers.Required) : isBlank (marker.get markers) = false := by
  have hfind : Markers.Required.all.find? (fun marker => isBlank (marker.get markers)) = none := by
    unfold Markers.fault? at h
    split at h
    · cases h
    · assumption
  rw [List.find?_eq_none] at hfind
  simpa using hfind marker (by cases marker <;> decide)

/-- Code that completes a declaration completes it as well if it is cut at white space behind the
first declaration keyword, whatever the code is. The pieces capture the declaration once. -/
theorem onPieces_of_cut {markers : Markers} (hmarkers : markers.fault? = none)
    (hdeclaration : ∀ c ∈ markers.declaration, ¬ isWhiteSpace c = true)
    (hattributes : ∀ keyword ∈ markers.attributes, ∀ c ∈ keyword, Name.isPart c = true)
    {code before after : Text} (hkeyword : cut? markers.declaration code = some (before, after))
    {first : Text} {pieces : List Text} (hcut : Cut code (first :: pieces))
    (hfirst : before ++ markers.declaration <+: first) {tagLine : Nat} {isTemplate : Bool}
    {capture : Capture}
    (hcapture : ((Phase.armed tagLine isTemplate).onCode markers code).2 = some capture) :
    (Phase.armed tagLine isTemplate).onPieces markers (first :: pieces) = (.idle, [capture]) := by
  have hne : markers.declaration ≠ [] := by
    intro hnil
    have hblank := not_isBlank_of_fault? hmarkers .declaration
    rw [Markers.Required.get, hnil] at hblank
    cases hblank
  obtain ⟨c, keyword, hc⟩ := List.exists_cons_of_ne_nil hne
  have hletter : ¬ isWhiteSpace c = true := hdeclaration c (hc ▸ List.mem_cons_self)
  obtain ⟨start, rfl⟩ := hfirst
  -- the first piece holds the keyword, and the pieces cut the code from there on
  have hcode := eq_append_of_cut? hkeyword
  have hrest : Cut (markers.declaration ++ after) ((markers.declaration ++ start) :: pieces) := by
    rw [List.append_assoc] at hcode
    rw [hcode, List.append_assoc] at hcut
    exact hcut.of_append (by simp [hne])
  have hstart : cut? markers.declaration (before ++ markers.declaration ++ start) =
      some (before, start) := by
    obtain ⟨piece, rest, _, hpieces, hwhole⟩ := hcut.exists_cons
    rw [hwhole, ← (List.cons.inj hpieces).1] at hkeyword
    exact cut?_of_append hkeyword
  obtain ⟨buffer, hbuffer⟩ := trim_cons hletter (keyword ++ start)
  have hwords : words (c :: buffer) = words (c :: (keyword ++ start)) := by
    rw [← hbuffer, words_trim]
  rw [Phase.onCode, hkeyword] at hcapture
  dsimp only at hcapture
  rw [hc, List.cons_append] at hcapture
  obtain ⟨declaration, rfl, hread⟩ := exists_declaration_of_close hattributes hletter hcapture
  have hwhole : Declaration.ofText? markers.attributes ([] ++ (markers.declaration ++ after)) =
      some declaration := by
    rw [hc, List.nil_append, List.cons_append, hread]
  have hstem : [] ++ (markers.declaration ++ start) = c :: (keyword ++ start) := by
    rw [hc, List.nil_append, List.cons_append]
  have hclose := onPieces_close hattributes hrest hletter hletter hstem hwords hwhole tagLine
    (isTemplate || mentionsTemplate markers before)
  rw [Phase.onPieces, Phase.onCode, hstart]
  dsimp only
  rw [hc, List.cons_append, hbuffer]
  exact hclose

/-- A template that is cut between attributes and their arguments, before and after its parameter
list. The declaration is captured before the last piece. -/
theorem onPieces_of_cut_attributes :
    (Phase.armed 7 false).onPieces Markers.default
        ["template <typename T> __global__ void __launch_bounds__".toList,
          "(256) ns :: f(int".toList, " n) __attribute__".toList, "((x)) \x7b".toList] =
      (.idle, [⟨7, true, ⟨"__global__ void ns :: f".toList, "int n".toList⟩⟩]) := by
  have hcut : Cut ("template <typename T> __global__ void __launch_bounds__".toList ++ ([' '] ++
        ("(256) ns :: f(int".toList ++ ([] ++ (" n) __attribute__".toList ++
          (['\t'] ++ "((x)) \x7b".toList))))))
      ["template <typename T> __global__ void __launch_bounds__".toList,
        "(256) ns :: f(int".toList, " n) __attribute__".toList, "((x)) \x7b".toList] :=
    .cut (List.all_eq_true.mp rfl) (Or.inl (by decide)) <|
      .cut (List.all_eq_true.mp rfl) (Or.inr (Or.inr ⟨' ', rfl, by decide⟩)) <|
        .cut (List.all_eq_true.mp rfl) (Or.inl (by decide)) (.whole _)
  have hkeyword : cut? Markers.default.declaration
      ("template <typename T> __global__ void __launch_bounds__".toList ++ ([' '] ++
        ("(256) ns :: f(int".toList ++ ([] ++ (" n) __attribute__".toList ++
          (['\t'] ++ "((x)) \x7b".toList)))))) =
      some ("template <typename T> ".toList,
        " void __launch_bounds__ (256) ns :: f(int n) __attribute__\t((x)) \x7b".toList) := by
    decide +kernel
  have hdeclaration : ∀ c ∈ Markers.default.declaration, ¬ isWhiteSpace c = true := by
    simpa using List.all_eq_true.mp
      (rfl : (Markers.default.declaration.all fun c => !isWhiteSpace c) = true)
  have hattributes : ∀ keyword ∈ Markers.default.attributes, ∀ c ∈ keyword,
      Name.isPart c = true := by
    simpa using (by decide +kernel : (Markers.default.attributes.all fun keyword =>
      keyword.all Name.isPart) = true)
  exact onPieces_of_cut (by decide +kernel) hdeclaration hattributes hkeyword hcut
    ⟨" void __launch_bounds__".toList, by decide⟩ (by decide +kernel)

end KernelCensus.Extraction
