import KernelCensus.Proofs.Declaration.Spelling
import KernelCensus.Proofs.Text.Cut

/-!
# Reading of declarations

A declaration that is spelled well is read as its name and its parameters, whatever follows it on
its last line, and no front of it is read as a declaration at all.

* `exists_ofText?_spelling`: the whole declaration.
* `ofText?_of_isPrefix`: its fronts.
-/

namespace KernelCensus

open Unicode Text

lemma not_mem_collapse {c : Char} (hc : c ≠ ' ') {text : Text} (h : c ∉ text) :
    c ∉ collapse text := by
  induction text with
  | nil => exact h
  | cons d text ih =>
    rw [List.mem_cons, not_or] at h
    by_cases hd : isWhiteSpace d = true
    · rw [collapse_cons_blank hd]
      cases hcollapse : collapse text with
      | nil => exact List.not_mem_nil
      | cons e rest =>
        rw [hcollapse] at ih
        rw [spaced]
        split
        · exact ih h.2
        · rw [List.mem_cons, not_or]
          exact ⟨hc, ih h.2⟩
    · rw [collapse_cons_letter hd, List.mem_cons, not_or]
      exact ⟨h.1, ih h.2⟩

/-- White space at the end does not count in a collapsed text. -/
lemma collapse_append_blank (front : Text) {gap : Text}
    (hgap : ∀ c ∈ gap, isWhiteSpace c = true) : collapse (front ++ gap) = collapse front := by
  induction front with
  | nil => exact collapse_of_blank hgap
  | cons c front ih =>
    by_cases hc : isWhiteSpace c = true
    · rw [List.cons_append, collapse_cons_blank hc, collapse_cons_blank hc, ih]
    · rw [List.cons_append, collapse_cons_letter hc, collapse_cons_letter hc, ih]

/-- White space before a letter is one space in a collapsed text. -/
lemma collapse_append_gap (front : Text) {gap : Text} (hgap : IsGap gap) {c : Char}
    (hc : ¬ isWhiteSpace c = true) (back : Text) :
    collapse (front ++ (gap ++ c :: back)) = collapse front ++ ' ' :: collapse (c :: back) := by
  rw [collapse_cons_letter hc]
  induction front with
  | nil =>
    obtain ⟨hne, hblank⟩ := hgap
    induction gap with
    | nil => exact absurd rfl hne
    | cons d gap ih =>
      have hd := hblank d List.mem_cons_self
      rw [List.nil_append, List.cons_append, collapse_cons_blank hd]
      cases gap with
      | nil =>
        rw [List.nil_append, collapse_cons_letter hc, spaced_cons_letter hc]
        rfl
      | cons e gap =>
        have hrest := ih (List.cons_ne_nil e gap) fun x hx => hblank x (List.mem_cons_of_mem d hx)
        rw [List.nil_append] at hrest
        rw [hrest]
        rfl
  | cons d front ih =>
    by_cases hd : isWhiteSpace d = true
    · rw [List.cons_append, collapse_cons_blank hd, collapse_cons_blank hd, ih]
      cases collapse front with
      | nil => rfl
      | cons e rest =>
        by_cases he : e = ' '
        · simp [spaced, he]
        · simp [spaced, he]
    · rw [List.cons_append, collapse_cons_letter hd, collapse_cons_letter hd, ih]
      rfl

namespace Declaration

/-! ## Reading what the erasure leaves -/

/-- A declaration is read at the first parenthesis of what the erasure leaves. -/
lemma ofText?_of_eraseAll? {keywords : List Text} {text head tail : Text}
    (herase : Attribute.eraseAll? keywords text = some (head ++ '(' :: tail))
    (hopen : '(' ∉ head) (hhead : ∀ c ∈ head.head?, ¬ isWhiteSpace c = true) :
    ofText? keywords text =
      (Parentheses.closing? 0 (collapse tail)).map fun parts =>
        ⟨collapse head, trim parts.1⟩ := by
  have hparen : ¬ isWhiteSpace '(' = true := by decide
  obtain ⟨gap, hgap, hcollapse⟩ := collapse_append_letter hparen head tail
  have hsqueeze : squeeze (head ++ '(' :: tail) = collapse (head ++ '(' :: tail) := by
    cases head with
    | nil => rw [List.nil_append, squeeze_cons_letter hparen, collapse_cons_letter hparen]
    | cons c head =>
      have hc := hhead c rfl
      rw [List.cons_append, squeeze_cons_letter hc, collapse_cons_letter hc]
  have hbefore : '(' ∉ collapse head ++ gap := by
    rw [List.mem_append, not_or]
    refine ⟨not_mem_collapse (by decide) hopen, ?_⟩
    rcases hgap with rfl | rfl
    · exact List.not_mem_nil
    · decide
  have htrim : trimEnd (collapse head ++ gap) = collapse head :=
    trimEnd_append_joint hgap (getLast?_collapse head)
  rw [ofText?, herase]
  simp only [Option.bind_eq_bind, Option.bind_some]
  rw [hsqueeze, hcollapse, cut?_singleton_append hbefore, Option.bind_some]
  dsimp only
  rw [htrim]
  cases Parentheses.closing? 0 (collapse tail) with
  | none => rfl
  | some parts => rfl

/-- Without a parenthesis in what the erasure leaves no declaration is read. -/
lemma ofText?_of_unfinished {keywords : List Text} {text : Text}
    (h : Unfinished keywords text) : ofText? keywords text = none := by
  rw [ofText?]
  cases herase : Attribute.eraseAll? keywords text with
  | none => rfl
  | some left =>
    have hopen : '(' ∉ squeeze left := by
      rw [squeeze_eq_trimStart]
      intro hmem
      exact not_mem_collapse (by decide) (h left herase) ((List.dropWhile_sublist _).subset hmem)
    simp only [Option.bind_eq_bind, Option.bind_some]
    rw [cut?_singleton_of_not_mem hopen, Option.bind_none]

/-- Balanced parameters are read up to the parenthesis that closes them. -/
lemma closing?_collapse_parameters {parameters : Text}
    (h : Parentheses.Balanced parameters) (trailer : Text) :
    ∃ gap, IsJoint gap ∧ Parentheses.closing? 0 (collapse (parameters ++ ')' :: trailer)) =
      some (collapse parameters ++ gap, collapse trailer) := by
  have hparen : ¬ isWhiteSpace ')' = true := by decide
  obtain ⟨gap, hgap, hcollapse⟩ := collapse_append_letter hparen parameters trailer
  refine ⟨gap, hgap, ?_⟩
  have hrest := Parentheses.closing?_collapse 0 (parameters ++ ')' :: trailer)
  rw [h.closing?_append, Parentheses.closing?, Option.map_some, Option.map_some,
    Option.map_eq_some_iff] at hrest
  obtain ⟨⟨inner, after⟩, hclosing, hafter⟩ := hrest
  -- the remainder is known, so what stands before it is known as well
  have hsplit := Parentheses.eq_append_of_closing? hclosing
  dsimp only at hafter
  rw [hcollapse, hafter] at hsplit
  rw [hclosing, hafter, List.append_cancel_right hsplit]

/-! ## Spelled declarations -/

/-- What the erasure leaves before the parameter list of a spelling that follows a word. -/
def Spelling.erasedHead (stem : Text) (spelling : Spelling) : Text :=
  stem ++ (spelling.erasedText ++ spelling.nameText)

lemma erasedHead_head {keywords : List Text} {stem : Text}
    (hstem : (Specifier.word stem).WellFormed keywords) (spelling : Spelling) :
    ∀ c ∈ (spelling.erasedHead stem).head?, ¬ isWhiteSpace c = true := by
  cases hstem with
  | word hword =>
    obtain ⟨d, rest, rfl⟩ := List.exists_cons_of_ne_nil hword.nonempty
    intro c hc
    cases hc
    exact hword.not_blank d List.mem_cons_self

section
variable {keywords : List Text} (hkeywords : Attribute.Separate keywords) {stem : Text}
  (hstem : (Specifier.word stem).WellFormed keywords) {spelling : Spelling}
  (h : spelling.WellFormed keywords)

include h

/-- The white space and the name before the parameter list have no parenthesis. -/
lemma open_not_mem_nameText : '(' ∉ spelling.nameText := by
  rw [Spelling.nameText, List.mem_append, List.mem_append, not_or, not_or]
  exact ⟨open_not_mem_blank h.nameGap.blank, open_not_mem_name h.name,
    open_not_mem_blank h.listGap⟩

include hstem

/-- What the erasure leaves before the parameter list has no parenthesis. -/
lemma open_not_mem_erasedHead : '(' ∉ spelling.erasedHead stem := by
  cases hstem with
  | word hword =>
    rw [Spelling.erasedHead, List.mem_append, List.mem_append, not_or, not_or]
    refine ⟨hword.not_mem endsWord_open, ?_, open_not_mem_nameText h⟩
    intro hmem
    obtain ⟨part, hpart, hmem⟩ := List.mem_flatMap.mp hmem
    rcases List.mem_append.mp hmem with hgap | herased
    · exact open_not_mem_blank (h.gaps part hpart).blank hgap
    · exact open_not_mem_erased (h.specifiers part hpart) herased

include hkeywords

/-- The erasure takes out the attributes and leaves the rest. -/
lemma eraseAll?_spelling {tail : Text} (htail : ∀ keyword ∈ keywords, ¬ keyword <:+: tail) :
    Attribute.eraseAll? keywords
        (stem ++ (spelling.specifierText ++ (spelling.nameText ++ '(' :: tail))) =
      some (spelling.erasedHead stem ++ '(' :: tail) := by
  have hsplit : spelling.nameText ++ '(' :: tail =
      spelling.nameGap ++ (spelling.name ++ (spelling.listGap ++ '(' :: tail)) := by
    simp [Spelling.nameText]
  have hstops : Stops (spelling.nameText ++ '(' :: tail) := by
    rw [hsplit]
    exact h.nameGap.stops_append _
  have hfree : ∀ keyword ∈ keywords, ¬ keyword <:+: spelling.nameText ++ '(' :: tail := by
    intro keyword hmem
    have hword := hkeywords.word keyword hmem
    have hopen := not_isInfix_cons hword endsWord_open (htail keyword hmem)
    rw [hsplit]
    refine not_isInfix_gap_append hword h.nameGap.blank (not_isInfix_append hword
      (stops_gap_append h.listGap (stops_cons endsWord_open))
      (h.name_free keyword hmem) ?_)
    exact not_isInfix_gap_append hword h.listGap hopen
  have hrest : Attribute.eraseAll? keywords (spelling.nameText ++ '(' :: tail) =
      some (spelling.nameText ++ '(' :: tail) := by
    have hpasses := Attribute.passes_of_free hkeywords.word hfree [] stops_nil
    rw [Attribute.eraseAll?_of_not_mem hkeywords.word List.not_mem_nil, List.append_nil,
      Option.map_some, List.append_nil] at hpasses
    exact hpasses
  cases hstem with
  | word _ _ hstemFree =>
    have hfront := (Attribute.passes_of_free hkeywords.word hstemFree).append
      (passes_specifiers hkeywords h.gaps h.specifiers)
      (fun rest hrest => stops_specifiers h.gaps hrest)
    have hwhole := hfront _ hstops
    rw [hrest, Option.map_some, List.append_assoc] at hwhole
    rw [Spelling.specifierText, hwhole, Spelling.erasedHead, Spelling.erasedText]
    simp

/-- A spelled declaration is read, whatever follows it without a keyword. -/
theorem ofText?_spelling {trailer : Text}
    (htrailer : ∀ keyword ∈ keywords, ¬ keyword <:+: trailer) :
    ofText? keywords (stem ++ (spelling.text ++ trailer)) =
      some ⟨collapse (spelling.erasedHead stem), squeeze spelling.parameters⟩ := by
  have hsplit : stem ++ (spelling.text ++ trailer) =
      stem ++ (spelling.specifierText ++ (spelling.nameText ++
        '(' :: (spelling.parameters ++ ')' :: trailer))) := by
    simp [Spelling.text]
  have hfree : ∀ keyword ∈ keywords, ¬ keyword <:+: spelling.parameters ++ ')' :: trailer := by
    intro keyword hmem
    have hword := hkeywords.word keyword hmem
    exact not_isInfix_append hword (stops_cons endsWord_close)
      (h.parameters_free keyword hmem)
      (not_isInfix_cons hword endsWord_close (htrailer keyword hmem))
  obtain ⟨gap, hgap, hclosing⟩ := closing?_collapse_parameters h.parameters trailer
  rw [hsplit, ofText?_of_eraseAll? (eraseAll?_spelling hkeywords hstem h hfree)
    (open_not_mem_erasedHead hstem h) (erasedHead_head hstem spelling), hclosing, Option.map_some,
    trim_collapse_append hgap]

/-- The fronts of a spelled declaration up to its parameter list are unfinished. -/
lemma unfinished_spelling {front : Text}
    (hfront : front <+: stem ++ (spelling.specifierText ++ spelling.nameText)) :
    Unfinished keywords front := by
  have hstops : Stops spelling.nameText := h.nameGap.stops_append _
  cases hstem with
  | word hword _ hstemFree =>
    have hopen := hword.not_mem endsWord_open
    rcases isPrefix_append_cases hfront with hinside | ⟨rest, rfl, hrest⟩
    · exact unfinished_of_not_mem hkeywords fun hmem => hopen (hinside.subset hmem)
    · exact Unfinished.append (Attribute.passes_of_free hkeywords.word hstemFree) hopen
        (stops_of_isPrefix hrest (stops_specifiers h.gaps hstops))
        (unfinished_specifiers hkeywords h.gaps h.specifiers (open_not_mem_nameText h) hstops hrest)

/-- No front of a spelled declaration is read as a declaration. -/
theorem ofText?_of_isPrefix {front : Text} (hfront : front <+: stem ++ spelling.text)
    (hne : front ≠ stem ++ spelling.text) : ofText? keywords front = none := by
  have hsplit : stem ++ spelling.text =
      stem ++ (spelling.specifierText ++ spelling.nameText) ++
        '(' :: (spelling.parameters ++ [')']) := by
    simp [Spelling.text]
  rw [hsplit] at hfront hne
  -- the front ends before the parameter list or in it
  rcases isPrefix_append_cases hfront with hinside | ⟨rest, rfl, hrest⟩
  · exact ofText?_of_unfinished (unfinished_spelling hkeywords hstem h hinside)
  · rcases List.prefix_cons_iff.mp hrest with rfl | ⟨inner, rfl, hinner⟩
    · rw [List.append_nil]
      exact ofText?_of_unfinished (unfinished_spelling hkeywords hstem h (List.prefix_refl _))
    · -- the front ends within the parameter list, which is not closed there
      have hparameters : inner <+: spelling.parameters := by
        rcases isPrefix_append_cases hinner with hinside | ⟨last, rfl, hlast⟩
        · exact hinside
        · rcases List.prefix_cons_iff.mp hlast with rfl | ⟨after, rfl, hafter⟩
          · rw [List.append_nil]
          · rw [List.prefix_nil.mp hafter] at hne
            exact absurd rfl hne
      have hfree : ∀ keyword ∈ keywords, ¬ keyword <:+: inner := fun keyword hmem hmatch =>
        h.parameters_free keyword hmem (hmatch.trans hparameters.isInfix)
      have hclosing := Parentheses.closing?_collapse 0 inner
      rw [h.parameters.closing?_of_isPrefix hparameters, Option.map_none,
        Option.map_eq_none_iff] at hclosing
      rw [List.append_assoc, List.append_assoc,
        ofText?_of_eraseAll? (eraseAll?_spelling hkeywords hstem h hfree)
          (open_not_mem_erasedHead hstem h) (erasedHead_head hstem spelling), hclosing]
      rfl

end

/-! ## Names -/

/-- A word after white space ends a collapsed text as it ends itself. -/
lemma not_isSuffix_append_word {front gap word : Text} (hgap : IsGap gap) (hword : IsWord word)
    (hscope : ¬ [':', ':'] <:+ word) : ¬ [':', ':'] <:+ collapse (front ++ (gap ++ word)) := by
  have hletters := hword.not_blank
  have hcollapse : collapse (front ++ (gap ++ word)) = collapse front ++ ' ' :: word := by
    obtain ⟨c, rest, heq⟩ := List.exists_cons_of_ne_nil hword.nonempty
    have hc : ¬ isWhiteSpace c = true := hletters c (heq ▸ List.mem_cons_self)
    rw [heq, collapse_append_gap front hgap hc, ← heq, collapse_of_letters hletters]
  rw [hcollapse]
  intro h
  have hlength : [':', ':'].length ≤ (' ' :: word).length := by
    have hpos := List.length_pos_iff.mpr hword.nonempty
    rw [List.length_cons (a := ' ')]
    exact Nat.succ_le_succ hpos
  have hlast := List.suffix_of_suffix_length_le h (List.suffix_append _ _) hlength
  rcases List.suffix_cons_iff.mp hlast with hwhole | hinside
  · cases hwhole
  · exact hscope hinside

/-- What the erasure leaves of words and attributes does not end with `::`. -/
lemma not_isSuffix_erased {keywords : List Text} {specifiers : List (Text × Specifier)}
    (hgaps : ∀ part ∈ specifiers, IsGap part.1)
    (hspecifiers : ∀ part ∈ specifiers, part.2.WellFormed keywords) {front : Text}
    (hfront : ¬ [':', ':'] <:+ collapse front) :
    ¬ [':', ':'] <:+
      collapse (front ++ specifiers.flatMap fun part => part.1 ++ part.2.erased) := by
  induction specifiers generalizing front with
  | nil =>
    rw [List.flatMap_nil, List.append_nil]
    exact hfront
  | cons part specifiers ih =>
    have hgap := hgaps part List.mem_cons_self
    rw [List.flatMap_cons, ← List.append_assoc]
    refine ih (fun p hp => hgaps p (List.mem_cons_of_mem part hp))
      (fun p hp => hspecifiers p (List.mem_cons_of_mem part hp)) ?_
    -- a word ends the text itself, and an attribute leaves only white space behind
    cases hcase : part.2 with
    | word text =>
      have hpart := hspecifiers part List.mem_cons_self
      rw [hcase] at hpart
      cases hpart with
      | word hword hscope => exact not_isSuffix_append_word hgap hword hscope
    | applied keyword gap arguments =>
      have hblank : ∀ c ∈ part.1 ++ [' '], isWhiteSpace c = true := by
        intro c hc
        rcases List.mem_append.mp hc with hmem | hspace
        · exact hgap.blank c hmem
        · rw [List.mem_singleton.mp hspace]
          exact isWhiteSpace_space
      rw [Specifier.erased, collapse_append_blank front hblank]
      exact hfront

lemma filter_collapse (text : Text) :
    (collapse text).filter (fun c => !isWhiteSpace c) = text.filter fun c => !isWhiteSpace c := by
  have hspaced (text : Text) : (spaced text).filter (fun c => !isWhiteSpace c) =
      text.filter fun c => !isWhiteSpace c := by
    cases text with
    | nil => rfl
    | cons c text =>
      rw [spaced]
      split
      · rfl
      · rw [List.filter_cons_of_neg (by decide)]
  induction text with
  | nil => rfl
  | cons c text ih =>
    by_cases hc : isWhiteSpace c = true
    · rw [collapse_cons_blank hc, hspaced, ih, List.filter_cons_of_neg (by simp [hc])]
    · rw [collapse_cons_letter hc, List.filter_cons_of_pos (by simp [hc]),
        List.filter_cons_of_pos (by simp [hc]), ih]

/-- A spelled declaration is named by its name, without white space. -/
theorem name?_spelling {keywords : List Text} {stem : Text}
    (hstem : (Specifier.word stem).WellFormed keywords) {spelling : Spelling}
    (h : spelling.WellFormed keywords) (parameters : Text) :
    (⟨collapse (spelling.erasedHead stem), parameters⟩ : Declaration).name? =
      some (spelling.name.filter fun c => !isWhiteSpace c) := by
  have hhead : collapse (spelling.erasedHead stem) =
      collapse (stem ++ spelling.erasedText) ++ ' ' :: collapse spelling.name := by
    obtain ⟨c, rest, heq, hc, -⟩ := h.name.exists_cons
    have hletter : ¬ isWhiteSpace c = true := Name.letter_of_isPart (Name.isPart_of_isStart hc)
    have hsplit : spelling.erasedHead stem =
        stem ++ spelling.erasedText ++ (spelling.nameGap ++ c :: (rest ++ spelling.listGap)) := by
      simp [Spelling.erasedHead, Spelling.nameText, heq]
    rw [hsplit, collapse_append_gap _ h.nameGap hletter, ← List.cons_append,
      collapse_append_blank _ h.listGap, heq]
  -- no `::` stands before the name, so the last name is the whole of it
  cases hstem with
  | word hword hscope =>
    have hletters := hword.not_blank
    have hstemScope : ¬ [':', ':'] <:+ collapse stem := by
      rw [collapse_of_letters hletters]
      exact hscope
    have hfront : ¬ [':', ':'] <:+ collapse (stem ++ spelling.erasedText) :=
      not_isSuffix_erased h.gaps h.specifiers hstemScope
    have hblank : isBlank (collapse (stem ++ spelling.erasedText) ++ [' ']) = false := by
      obtain ⟨c, rest, rfl⟩ := List.exists_cons_of_ne_nil hword.nonempty
      have hc := hletters c List.mem_cons_self
      rw [List.cons_append, collapse_cons_letter hc, List.cons_append, isBlank, List.all_cons,
        Bool.eq_false_iff.mpr hc, Bool.false_and]
    rw [name?, hhead, Name.trailing?_of_qualified h.name.collapse (getLast?_collapse _) hfront]
    dsimp only
    rw [hblank, if_neg Bool.false_ne_true, filter_collapse]

end Declaration

end KernelCensus
