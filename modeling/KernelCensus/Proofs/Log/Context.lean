import KernelCensus.Log.Context
import KernelCensus.Proofs.Name

/-!
# Lines that name a kernel

A line made of the label, a sign and a qualified name is read as naming just that kernel, in either
form. The form with a colon is looked for first and in the whole line, also where the line has the
other form and the name has colons, or the label, in it. It is not found there: a colon behind a
character of an identifier is the first half of `::`, and no name starts with a colon.

* `nameIn?_colon_of_continues`: within a name there is no context.
* `context?_colon`, `context?_assignment`: the two forms.
-/

namespace KernelCensus.Log

open Unicode Text Name

/-! ## Case -/

/-- The characters of identifiers. -/
def parts : List Char := ((List.range 128).map Char.ofNat).filter isPart

/-- What holds of the characters of identifiers is checked on their list. -/
lemma holds_of_isPart {p : Char → Bool} (h : parts.all p = true) {c : Char}
    (hc : isPart c = true) : p c = true := by
  refine List.all_eq_true.mp h c (List.mem_filter.mpr ⟨?_, hc⟩)
  exact List.mem_map.mpr ⟨c.toNat, List.mem_range.mpr (toNat_lt_of_isPart hc), Char.ofNat_toNat c⟩

lemma isNamePart_of_isPart {c : Char} (hc : isPart c = true) : isNamePart c = true :=
  holds_of_isPart (by decide +kernel) hc

lemma isNameStart_of_isStart {c : Char} (hc : isStart c = true) : isNameStart c = true := by
  have hall : parts.all (fun c => !isStart c || isNameStart c) = true := by decide +kernel
  have hcase := holds_of_isPart hall (isPart_of_isStart hc)
  rw [hc] at hcase
  exact hcase

/-- White space is no part of a name in any case. -/
lemma not_isNamePart_of_blank {c : Char} (hc : isWhiteSpace c = true) : isNamePart c = false := by
  have hall : blanks.all (fun c => !isNamePart c) = true := by decide +kernel
  simpa using holds_of_blank hall hc

/-- A character of an identifier is the same as no other one that is not in names. -/
lemma foldCase_ne {l c : Char} (hl : isPart l = true) (hc : isNamePart c = false) :
    foldCase l ≠ foldCase c := by
  intro heq
  have hpart := isNamePart_of_isPart hl
  unfold isNamePart at hpart hc
  rw [heq, hc] at hpart
  cases hpart

/-! ## Names -/

/-- What is read on is the start of the text. -/
lemma continuation_isPrefix (text : Text) : continuation isNameStart isNamePart text <+: text := by
  fun_induction continuation isNameStart isNamePart text with
  | case1 c rest hc ih =>
    obtain ⟨after, hafter⟩ := ih
    exact ⟨after, by rw [List.cons_append, List.cons_append, List.cons_append, hafter]⟩
  | case2 c rest hc => exact List.nil_prefix
  | case3 c rest hnot hc ih =>
    obtain ⟨after, hafter⟩ := ih
    exact ⟨after, by rw [List.cons_append, hafter]⟩
  | case4 c rest hnot hc => exact List.nil_prefix
  | case5 => exact List.nil_prefix

lemma continuation_of_continues {text : Text} (h : Continues text) :
    continuation isNameStart isNamePart text = text := by
  induction h with
  | nil => rfl
  | @part c rest hc _ ih =>
    have hcolon := ne_colon_of_isPart hc
    rw [continuation]
    · rw [if_pos (isNamePart_of_isPart hc), ih]
    · rintro d tail rfl
      exact fun _ => hcolon rfl
  | @scope c rest hc _ ih => rw [continuation, if_pos (isNameStart_of_isStart hc), ih]

lemma leading?_of_isPlain {name : Text} (h : IsPlain name) :
    leading? isNameStart isNamePart name = some name := by
  obtain ⟨c, rest, rfl, hc, hrest⟩ := h
  rw [leading?, if_pos (isNameStart_of_isStart hc), continuation_of_continues hrest]

/-- A plain name is read behind white space, in either form. -/
lemma leading?_unquote (form : ContextForm) {gap : Text} (hgap : ∀ c ∈ gap, isWhiteSpace c = true)
    {name : Text} (h : IsPlain name) :
    leading? isNameStart isNamePart (form.unquote (trimStart (gap ++ name))) = some name := by
  have hread := leading?_of_isPlain h
  obtain ⟨c, rest, rfl, hc, -⟩ := h
  have hletter := letter_of_isPart (isPart_of_isStart hc)
  -- no quote starts a name, so there is none to remove
  have hunquote : form.unquote (c :: rest) = c :: rest := by
    rw [ContextForm.unquote]
    · rintro tail - hquote
      rw [(List.cons.inj hquote).1] at hc
      cases hc
    · rintro tail - hquote
      rw [(List.cons.inj hquote).1] at hc
      cases hc
  rw [trimStart_append_blank hgap, trimStart_cons_letter hletter, hunquote]
  exact hread

/-! ## Labels -/

/-- A label is found where it stands in any case, and only there. -/
lemma afterLabel?_eq_some_iff {label text rest : Text} :
    afterLabel? label text = some rest ↔
      ∃ written, text = written ++ rest ∧ written.map foldCase = label.map foldCase := by
  induction label generalizing text with
  | nil => simp [afterLabel?]
  | cons l label ih =>
    cases text with
    | nil => simp [afterLabel?]
    | cons c text =>
      rw [afterLabel?]
      constructor
      · intro h
        split at h
        · next heq =>
          obtain ⟨written, rfl, hwritten⟩ := ih.mp h
          refine ⟨c :: written, rfl, ?_⟩
          rw [List.map_cons, List.map_cons, heq, hwritten]
        · cases h
      · intro h
        obtain ⟨written, htext, hwritten⟩ := h
        obtain ⟨d, tail, rfl, hd, htail⟩ := List.map_eq_cons_iff.mp hwritten
        rw [List.cons_append, List.cons.injEq] at htext
        rw [htext.1, if_pos hd.symm, ih]
        exact ⟨tail, htext.2, htail⟩

lemma afterLabel?_append (label text : Text) : afterLabel? label (label ++ text) = some text :=
  afterLabel?_eq_some_iff.mpr ⟨label, rfl, rfl⟩

/-- Behind a label and white space, the next character decides whether there is a name. -/
lemma nameAfterLabel?_append (form : ContextForm) (label : Text) {gap : Text}
    (hgap : ∀ c ∈ gap, isWhiteSpace c = true) {c : Char} (hc : ¬ isWhiteSpace c = true)
    (rest : Text) :
    nameAfterLabel? form label (label ++ (gap ++ c :: rest)) =
      if c = form.sign then leading? isNameStart isNamePart (form.unquote (trimStart rest))
      else none := by
  unfold nameAfterLabel?
  rw [afterLabel?_append]
  dsimp only
  rw [trimStart_append_blank hgap, trimStart_cons_letter hc]

/-- Characters of an identifier behind another one are passed over. -/
lemma nameIn?_append_parts (form : ContextForm) (label : Text) {front : Text}
    (h : ∀ c ∈ front, isPart c = true) {previous : Char} (hprevious : isPart previous = true)
    (back : Text) :
    ∃ last, nameIn? form label (some previous) (front ++ back) =
      nameIn? form label (some last) back := by
  induction front generalizing previous with
  | nil => exact ⟨previous, rfl⟩
  | cons c front ih =>
    have hinside : (some previous).any isNamePart = true := isNamePart_of_isPart hprevious
    obtain ⟨last, hlast⟩ := ih (fun d hd => h d (List.mem_cons_of_mem c hd))
      (h c List.mem_cons_self)
    refine ⟨last, ?_⟩
    rw [List.cons_append, nameIn?, hinside, if_pos rfl]
    exact hlast

section
variable {l : Char} {label : Text} (hlabel : ∀ c ∈ l :: label, isPart c = true)

include hlabel

/-- No label stands at a character that is not in names. -/
lemma nameAfterLabel?_of_not_isNamePart {c : Char} (hc : isNamePart c = false)
    (form : ContextForm) (text : Text) : nameAfterLabel? form (l :: label) (c :: text) = none := by
  have hne := foldCase_ne (hlabel l List.mem_cons_self) hc
  rw [nameAfterLabel?, afterLabel?, if_neg hne]

lemma nameIn?_append_of_not_isNamePart {front : Text} (h : ∀ c ∈ front, isNamePart c = false)
    (form : ContextForm) (previous : Option Char) (back : Text) :
    nameIn? form (l :: label) previous (front ++ back) =
      nameIn? form (l :: label) (front.getLast?.or previous) back := by
  induction front generalizing previous with
  | nil => rfl
  | cons c front ih =>
    have hnone := nameAfterLabel?_of_not_isNamePart hlabel (h c List.mem_cons_self) form
      (front ++ back)
    rw [List.cons_append, nameIn?, hnone, ite_self]
    dsimp only
    rw [ih (fun d hd => h d (List.mem_cons_of_mem c hd)), getLast?_cons_or]

/-- A line that starts with the label, with white space around it, has the name that stands behind
the label and the sign. -/
lemma nameIn?_label (form : ContextForm) {before gap space name : Text}
    (hbefore : ∀ c ∈ before, isWhiteSpace c = true) (hgap : ∀ c ∈ gap, isWhiteSpace c = true)
    (hspace : ∀ c ∈ space, isWhiteSpace c = true) (hname : IsPlain name) :
    nameIn? form (l :: label) none
      (before ++ (l :: label ++ (gap ++ form.sign :: (space ++ name)))) = some name := by
  have hsign : ¬ isWhiteSpace form.sign = true := by cases form <;> decide
  have hfound := nameAfterLabel?_append form (l :: label) hgap hsign (space ++ name)
  rw [if_pos rfl, leading?_unquote form hspace hname, List.cons_append] at hfound
  have hword : (before.getLast?.or none).any isNamePart = false := by
    rw [Option.or_none]
    cases hlast : before.getLast? with
    | none => rfl
    | some c => exact not_isNamePart_of_blank (hbefore c (List.mem_of_getLast? hlast))
  rw [nameIn?_append_of_not_isNamePart hlabel fun c hc => not_isNamePart_of_blank (hbefore c hc),
    List.cons_append, nameIn?, hword, if_neg Bool.false_ne_true, hfound]

end

/-! ## No context within names -/

section
variable {label : Text} (hlabel : ∀ c ∈ label, isPart c = true) {text : Text}
  (h : Continues text)

include hlabel h

/-- Behind a label within a name, the name goes on. -/
lemma continues_of_afterLabel? {rest : Text} (hrest : afterLabel? label text = some rest) :
    Continues rest := by
  have hcolon : isNamePart ':' = false := by decide
  induction label generalizing text with
  | nil =>
    cases hrest
    exact h
  | cons l label ih =>
    have htail : ∀ c ∈ label, isPart c = true := fun c hc => hlabel c (List.mem_cons_of_mem l hc)
    cases h with
    | nil => cases hrest
    | part hc hcontinues =>
      rw [afterLabel?] at hrest
      split at hrest
      · exact ih htail hcontinues hrest
      · cases hrest
    | scope hc hcontinues =>
      rw [afterLabel?, if_neg (foldCase_ne (hlabel l List.mem_cons_self) hcolon)] at hrest
      cases hrest

/-- Within a name, no other name stands behind a label and a colon. -/
lemma nameAfterLabel?_colon_of_continues : nameAfterLabel? .colon label text = none := by
  unfold nameAfterLabel?
  cases hafter : afterLabel? label text with
  | none => rfl
  | some rest =>
    dsimp only
    cases continues_of_afterLabel? hlabel h hafter with
    | nil => rfl
    | @part c tail hc _ =>
      have hcolon : c ≠ ContextForm.colon.sign := ne_colon_of_isPart hc
      rw [trimStart_cons_letter (letter_of_isPart hc)]
      exact if_neg hcolon
    | @scope c tail _ _ =>
      -- a second colon follows, and no name starts with it
      have hcolon : ¬ isWhiteSpace ':' = true := by decide
      rw [trimStart_cons_letter hcolon]
      dsimp only
      rw [trimStart_cons_letter hcolon]
      rfl

end

/-- Within a name there is no context with a colon. -/
theorem nameIn?_colon_of_continues {l : Char} {label : Text}
    (hlabel : ∀ c ∈ l :: label, isPart c = true) {text : Text} (h : Continues text)
    (previous : Option Char) : nameIn? .colon (l :: label) previous text = none := by
  have hstep {c : Char} {rest : Text}
      (hnone : nameAfterLabel? .colon (l :: label) (c :: rest) = none)
      (hrest : nameIn? .colon (l :: label) (some c) rest = none) (previous : Option Char) :
      nameIn? .colon (l :: label) previous (c :: rest) = none := by
    rw [nameIn?, hnone, ite_self]
    exact hrest
  have hcolon : isNamePart ':' = false := by decide
  induction h generalizing previous with
  | nil => rfl
  | part hc hrest ih =>
    exact hstep (nameAfterLabel?_colon_of_continues hlabel (.part hc hrest)) (ih _) previous
  | scope hc hrest ih =>
    have hpart := Continues.part (isPart_of_isStart hc) hrest
    have hname := hstep (nameAfterLabel?_colon_of_continues hlabel hpart) (ih _)
    refine hstep (nameAfterLabel?_of_not_isNamePart hlabel hcolon _ _) ?_ previous
    exact hstep (nameAfterLabel?_of_not_isNamePart hlabel hcolon _ _) (hname _) _

/-- A line with the label, an equals sign and a name has no context with a colon. -/
lemma nameIn?_colon_label {l : Char} {label : Text} (hlabel : ∀ c ∈ l :: label, isPart c = true)
    {before gap : Text} (hbefore : ∀ c ∈ before, isWhiteSpace c = true)
    (hgap : ∀ c ∈ gap, isWhiteSpace c = true) {name : Text} (hname : IsPlain name) :
    nameIn? .colon (l :: label) none
      (before ++ (l :: label ++ (gap ++ ContextForm.assignment.sign :: name))) = none := by
  have hequals : ¬ isWhiteSpace '=' = true := by decide
  have hnone := nameAfterLabel?_append .colon (l :: label) hgap hequals name
  rw [if_neg (by decide), List.cons_append] at hnone
  -- the label is a word, so no label starts within it
  obtain ⟨last, hlast⟩ := nameIn?_append_parts .colon (l :: label)
    (fun c hc => hlabel c (List.mem_cons_of_mem l hc)) (hlabel l List.mem_cons_self)
    (gap ++ '=' :: name)
  have hsplit : gap ++ '=' :: name = gap ++ ['='] ++ name := by simp
  have hother : ∀ c ∈ gap ++ ['='], isNamePart c = false := by
    intro c hc
    rcases List.mem_append.mp hc with hblank | hsign
    · exact not_isNamePart_of_blank (hgap c hblank)
    · rw [List.mem_singleton.mp hsign]
      decide
  have hcontinues : Continues name := by
    obtain ⟨c, rest, rfl, hc, hrest⟩ := hname
    exact .part (isPart_of_isStart hc) hrest
  show nameIn? .colon (l :: label) none (before ++ (l :: label ++ (gap ++ '=' :: name))) = none
  rw [nameIn?_append_of_not_isNamePart hlabel fun c hc => not_isNamePart_of_blank (hbefore c hc),
    List.cons_append, nameIn?, hnone, ite_self]
  dsimp only
  rw [hlast, hsplit, nameIn?_append_of_not_isNamePart hlabel hother,
    nameIn?_colon_of_continues hlabel hcontinues]

/-! ## The two forms -/

/-- The lines that name a kernel, with the label as it is written. -/
def contextLines (label kernel : Text) : List Text :=
  [label ++ ": ".toList ++ kernel, label ++ '=' :: kernel]

section
variable {kernelLabel label : Text} (hne : trim kernelLabel ≠ [])
  (hparts : ∀ c ∈ trim kernelLabel, isPart c = true) (htrim : trim label = trim kernelLabel)
  {kernel : Text} (hkernel : IsPlain kernel)

include hne hparts htrim

/-- The label as it is written is a word between white space. -/
lemma exists_label :
    ∃ l rest before gap, trim kernelLabel = l :: rest ∧ (∀ c ∈ l :: rest, isPart c = true) ∧
      label = before ++ (l :: rest ++ gap) ∧ (∀ c ∈ before, isWhiteSpace c = true) ∧
        ∀ c ∈ gap, isWhiteSpace c = true := by
  obtain ⟨l, rest, hl⟩ := List.exists_cons_of_ne_nil hne
  obtain ⟨before, gap, hlabel, hbefore, hgap⟩ := exists_eq_append_trim label
  rw [htrim, hl] at hlabel
  rw [hl] at hparts
  exact ⟨l, rest, before, gap, hl, hparts, hlabel, hbefore, hgap⟩

include hkernel

/-- The form with a colon names the kernel. -/
theorem context?_colon : context? kernelLabel (label ++ ": ".toList ++ kernel) = some kernel := by
  obtain ⟨l, rest, before, gap, hl, hword, hlabel, hbefore, hgap⟩ := exists_label hne hparts htrim
  have hline : label ++ ": ".toList ++ kernel =
      before ++ (l :: rest ++ (gap ++ ContextForm.colon.sign :: ([' '] ++ kernel))) := by
    rw [hlabel]
    simp [ContextForm.sign]
  have hspace : ∀ c ∈ [' '], isWhiteSpace c = true :=
    List.forall_mem_singleton.mpr isWhiteSpace_space
  rw [hline, context?, hl, nameIn?_label hword .colon hbefore hgap hspace hkernel]

/-- The form with an equals sign names the kernel. -/
theorem context?_assignment : context? kernelLabel (label ++ '=' :: kernel) = some kernel := by
  obtain ⟨l, rest, before, gap, hl, hword, hlabel, hbefore, hgap⟩ := exists_label hne hparts htrim
  have hline : label ++ '=' :: kernel =
      before ++ (l :: rest ++ (gap ++ ContextForm.assignment.sign :: kernel)) := by
    rw [hlabel]
    simp [ContextForm.sign]
  have hcolon := nameIn?_colon_label hword hbefore hgap hkernel
  have hassignment := nameIn?_label hword .assignment hbefore hgap (List.forall_mem_nil _) hkernel
  rw [List.nil_append] at hassignment
  rw [hline, context?, hl, hcolon, hassignment]

/-- Either form names the kernel. -/
theorem context?_of_mem_contextLines {line : Text} (hline : line ∈ contextLines label kernel) :
    context? kernelLabel line = some kernel := by
  rcases List.mem_cons.mp hline with rfl | hmem
  · exact context?_colon hne hparts htrim hkernel
  · rw [List.mem_singleton.mp hmem]
    exact context?_assignment hne hparts htrim hkernel

end

end KernelCensus.Log
