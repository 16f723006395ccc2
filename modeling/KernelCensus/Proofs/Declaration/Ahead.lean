import KernelCensus.Proofs.Declaration.Reading

/-!
# Reading ahead

A declaration may be read off the front of a text before the rest of the text is known. If one is
read off the whole text as well, it is the same. Two texts `Agree` if they are the same up to a
place from which on the first one has no parentheses. The erasure of attributes keeps this, although
a keyword without arguments in the first text may have some in the second, and what is read off the
first text then ends before that place.

* `eraseAll?_agree`: the erasure.
* `ofText?_append`: the declaration.
-/

namespace KernelCensus

open Unicode Text

/-- Text without parentheses. -/
def NoParentheses (text : Text) : Prop := '(' ∉ text ∧ ')' ∉ text

lemma NoParentheses.nil : NoParentheses [] := ⟨List.not_mem_nil, List.not_mem_nil⟩

lemma NoParentheses.append {front back : Text} (hfront : NoParentheses front)
    (hback : NoParentheses back) : NoParentheses (front ++ back) := by
  simp [NoParentheses, hfront.1, hfront.2, hback.1, hback.2]

lemma IsWord.noParentheses {word : Text} (hword : IsWord word) : NoParentheses word :=
  ⟨hword.not_mem endsWord_open, hword.not_mem endsWord_close⟩

lemma noParentheses_of_blank {text : Text} (h : ∀ c ∈ text, isWhiteSpace c = true) :
    NoParentheses text :=
  ⟨fun hmem => (Parentheses.ne_of_blank (h _ hmem)).1 rfl,
    fun hmem => (Parentheses.ne_of_blank (h _ hmem)).2 rfl⟩

/-- Two texts that are the same up to a place from which on the first has no parentheses. -/
def Agree (first second : Text) : Prop :=
  ∃ common rest more, first = common ++ rest ∧ second = common ++ more ∧ NoParentheses rest

lemma agree_append (front rest : Text) : Agree front (front ++ rest) :=
  ⟨front, [], rest, (List.append_nil front).symm, rfl, .nil⟩

lemma agree_of_noParentheses {first : Text} (h : NoParentheses first) (second : Text) :
    Agree first second := ⟨[], first, second, rfl, rfl, h⟩

lemma Agree.append {first second : Text} (h : Agree first second) (front : Text) :
    Agree (front ++ first) (front ++ second) := by
  obtain ⟨common, rest, more, rfl, rfl, hrest⟩ := h
  exact ⟨front ++ common, rest, more, by simp, by simp, hrest⟩

/-- Two texts agree if what comes behind a common front agrees, where both are there. -/
lemma Agree.of_map {first second : Option Text} {left right : Text} (front : Text)
    (h : ∀ left' right', first = some left' → second = some right' → Agree left' right')
    (hleft : first.map (front ++ ·) = some left) (hright : second.map (front ++ ·) = some right) :
    Agree left right := by
  obtain ⟨left', hleft', rfl⟩ := Option.map_eq_some_iff.mp hleft
  obtain ⟨right', hright', rfl⟩ := Option.map_eq_some_iff.mp hright
  exact (h left' right' hleft' hright').append front

/-! ## Collapsed text -/

namespace Text

/-- A collapsed text comes apart at a letter, and what stands before it does not depend on what
follows. -/
lemma exists_collapse_append {c : Char} (hc : ¬ isWhiteSpace c = true) (front : Text) :
    ∃ head, (∀ d ∈ head, d ∈ front ∨ d = ' ') ∧
      ∀ back, collapse (front ++ c :: back) = head ++ c :: collapse back := by
  induction front with
  | nil => exact ⟨[], by simp, fun back => collapse_cons_letter hc back⟩
  | cons d front ih =>
    obtain ⟨head, hletters, hcollapse⟩ := ih
    by_cases hd : isWhiteSpace d = true
    · cases head with
      | nil =>
        refine ⟨[' '], by simp, fun back => ?_⟩
        rw [List.cons_append, collapse_cons_blank hd, hcollapse, List.nil_append,
          spaced_cons_letter hc]
        rfl
      | cons e head =>
        refine ⟨spaced (e :: head), fun x hx => ?_, fun back => ?_⟩
        · by_cases he : e = ' '
          · rw [spaced, if_pos he] at hx
            simpa using (hletters x hx).imp_left (Or.inr (a := x = d))
          · rw [spaced, if_neg he] at hx
            rcases List.mem_cons.mp hx with hspace | hmem
            · exact Or.inr hspace
            · exact (hletters x hmem).imp_left (List.mem_cons_of_mem d)
        · rw [List.cons_append, collapse_cons_blank hd, hcollapse]
          by_cases he : e = ' ' <;> simp [spaced, he]
    · refine ⟨d :: head, fun x hx => ?_, fun back => ?_⟩
      · rcases List.mem_cons.mp hx with rfl | hmem
        · exact Or.inl List.mem_cons_self
        · exact (hletters x hmem).imp_left (List.mem_cons_of_mem d)
      · rw [List.cons_append, collapse_cons_letter hd, hcollapse, List.cons_append]

/-- A squeezed text comes apart at a letter in the same way. -/
lemma exists_squeeze_append {c : Char} (hc : ¬ isWhiteSpace c = true) (front : Text) :
    ∃ head, (∀ d ∈ head, d ∈ front ∨ d = ' ') ∧
      ∀ back, squeeze (front ++ c :: back) = head ++ c :: collapse back := by
  induction front with
  | nil => exact ⟨[], by simp, fun back => squeeze_cons_letter hc back⟩
  | cons d front ih =>
    by_cases hd : isWhiteSpace d = true
    · obtain ⟨head, hletters, hsqueeze⟩ := ih
      refine ⟨head, fun x hx => (hletters x hx).imp_left (List.mem_cons_of_mem d), fun back => ?_⟩
      rw [List.cons_append, squeeze_cons_blank hd, hsqueeze]
    · obtain ⟨head, hletters, hcollapse⟩ := exists_collapse_append hc front
      refine ⟨d :: head, fun x hx => ?_, fun back => ?_⟩
      · rcases List.mem_cons.mp hx with rfl | hmem
        · exact Or.inl List.mem_cons_self
        · exact (hletters x hmem).imp_left (List.mem_cons_of_mem d)
      · rw [List.cons_append, squeeze_cons_letter hd, hcollapse, List.cons_append]

end Text

namespace Parentheses

lemma closing?_append {depth : Nat} {text inner after : Text}
    (h : closing? depth text = some (inner, after)) (more : Text) :
    closing? depth (text ++ more) = some (inner, after ++ more) := by
  induction text generalizing depth inner with
  | nil => cases h
  | cons c text ih =>
    by_cases hopen : c = '('
    · subst hopen
      rw [closing?, Option.map_eq_some_iff] at h
      obtain ⟨parts, hparts, heq⟩ := h
      cases heq
      rw [List.cons_append, closing?, ih hparts, Option.map_some]
    · by_cases hclose : c = ')'
      · subst hclose
        cases depth with
        | zero =>
          cases h
          rfl
        | succ depth =>
          rw [closing?, Option.map_eq_some_iff] at h
          obtain ⟨parts, hparts, heq⟩ := h
          cases heq
          rw [List.cons_append, closing?, ih hparts, Option.map_some]
      · rw [closing?_cons_of_ne hopen hclose, Option.map_eq_some_iff] at h
        obtain ⟨parts, hparts, heq⟩ := h
        cases heq
        rw [List.cons_append, closing?_cons_of_ne hopen hclose, ih hparts, Option.map_some]

lemma closing?_of_noParentheses {text : Text} (h : NoParentheses text) (depth : Nat) :
    closing? depth text = none := by
  induction text with
  | nil => rfl
  | cons c text ih =>
    simp only [NoParentheses, List.mem_cons, not_or] at h
    rw [closing?_cons_of_ne (Ne.symm h.1.1) (Ne.symm h.2.1), ih ⟨h.1.2, h.2.2⟩]
    rfl

lemma closing?_append_eq_none {depth : Nat} {text rest : Text} (hrest : NoParentheses rest)
    (h : closing? depth text = none) : closing? depth (text ++ rest) = none := by
  induction text generalizing depth with
  | nil => exact closing?_of_noParentheses hrest depth
  | cons c text ih =>
    by_cases hopen : c = '('
    · subst hopen
      rw [closing?, Option.map_eq_none_iff] at h
      rw [List.cons_append, closing?, ih h, Option.map_none]
    · by_cases hclose : c = ')'
      · subst hclose
        cases depth with
        | zero => cases h
        | succ depth =>
          rw [closing?, Option.map_eq_none_iff] at h
          rw [List.cons_append, closing?, ih h, Option.map_none]
      · rw [closing?_cons_of_ne hopen hclose, Option.map_eq_none_iff] at h
        rw [List.cons_append, closing?_cons_of_ne hopen hclose, ih h, Option.map_none]

/-- The closing parenthesis is not in a back without parentheses. -/
lemma exists_closing?_of_append {depth : Nat} {text rest inner after : Text}
    (hrest : NoParentheses rest) (h : closing? depth (text ++ rest) = some (inner, after)) :
    ∃ remainder, closing? depth text = some (inner, remainder) ∧ after = remainder ++ rest := by
  cases htext : closing? depth text with
  | some parts =>
    have happend := closing?_append htext rest
    rw [h, Option.some.injEq, Prod.mk.injEq] at happend
    obtain ⟨rfl, rfl⟩ := happend
    exact ⟨parts.2, rfl, rfl⟩
  | none =>
    rw [closing?_append_eq_none hrest htext] at h
    cases h

end Parentheses

namespace Attribute

/-! ## The erasure -/

/-- A text with a parenthesis has a first letter, since a parenthesis is no white space. -/
lemma exists_letter_of_parenthesis {text : Text} (h : ¬ NoParentheses text) :
    ∃ gap c tail, text = gap ++ c :: tail ∧ (∀ d ∈ gap, isWhiteSpace d = true) ∧
      ¬ isWhiteSpace c = true := by
  obtain ⟨gap, htext, hgap⟩ := exists_eq_append_trimStart text
  cases htrim : trimStart text with
  | nil =>
    rw [htrim, List.append_nil] at htext
    exact absurd (htext ▸ noParentheses_of_blank hgap) h
  | cons c tail =>
    have hhead : c ∈ (trimStart text).head? := by
      rw [htrim]
      rfl
    rw [htrim] at htext
    exact ⟨gap, c, tail, htext, hgap, Bool.eq_false_iff.mp (not_of_mem_head?_dropWhile hhead)⟩

/-- What a keyword is goes by the text up to its first parenthesis and the argument list that may
open there. If the argument list is closed, it is closed whatever follows. -/
lemma ofArguments_append {after rest : Text} (hrest : NoParentheses rest)
    (hafter : ¬ NoParentheses after) (more : Text) :
    (ofArguments (after ++ rest) = .bare (after ++ rest) ∧
        ofArguments (after ++ more) = .bare (after ++ more)) ∨
      ofArguments (after ++ rest) = .unclosed ∨
      ∃ remainder, remainder.length < after.length ∧
        ofArguments (after ++ rest) = .closed (remainder ++ rest) ∧
        ofArguments (after ++ more) = .closed (remainder ++ more) := by
  obtain ⟨gap, c, text, rfl, hgap, hc⟩ := exists_letter_of_parenthesis hafter
  have htrim (more : Text) : trimStart (gap ++ c :: text ++ more) = c :: (text ++ more) := by
    rw [List.append_assoc, trimStart_append_blank hgap, List.cons_append, trimStart_cons_letter hc]
  by_cases hopen : c = '('
  · subst hopen
    right
    have hassoc (more : Text) : gap ++ '(' :: text ++ more = gap ++ '(' :: (text ++ more) := by
      rw [List.append_assoc, List.cons_append]
    cases hclosing : Parentheses.closing? 0 (text ++ rest) with
    | none =>
      left
      rw [hassoc, ofArguments_gap hgap, hclosing]
    | some parts =>
      right
      obtain ⟨remainder, htext, hparts⟩ := Parentheses.exists_closing?_of_append hrest hclosing
      have hlength := Parentheses.length_after_lt htext
      refine ⟨remainder, ?_, ?_, ?_⟩
      · simp only [List.length_append, List.length_cons]
        omega
      · rw [hassoc, ofArguments_gap hgap, hclosing, ← hparts]
      · rw [hassoc, ofArguments_gap hgap, Parentheses.closing?_append htext]
  · left
    have hbare (more : Text) :
        ofArguments (gap ++ c :: text ++ more) = .bare (gap ++ c :: text ++ more) := by
      have hnone : openArguments? (gap ++ c :: text ++ more) = none := by
        rw [openArguments?, htrim]
        split
        · next heq => exact absurd (List.cons.inj heq).1 hopen
        · rfl
      rw [ofArguments, hnone]
    exact ⟨hbare rest, hbare more⟩

/-- A keyword that goes on behind a text would end before the first parenthesis of the text. -/
lemma not_isPrefix_append_of_parenthesis {keyword text : Text} (hkeyword : IsWord keyword)
    (hnot : ¬ keyword <+: text) (htext : ¬ NoParentheses text) (more : Text) :
    ¬ keyword <+: text ++ more := by
  intro hpre
  rcases isPrefix_append_cases hpre with hinside | ⟨tail, htail, -⟩
  · exact hnot hinside
  · have hfree := hkeyword.noParentheses
    rw [htail] at hfree
    exact htext ⟨fun hmem => hfree.1 (List.mem_append_left tail hmem),
      fun hmem => hfree.2 (List.mem_append_left tail hmem)⟩

/-- The erasure of one keyword keeps the agreement of two texts. -/
theorem eraseAfter?_agree {keyword : Text} (hkeyword : IsWord keyword)
    {first second left right : Text} (h : Agree first second) {previous : Option Char}
    (hleft : eraseAfter? keyword previous first = some left)
    (hright : eraseAfter? keyword previous second = some right) : Agree left right := by
  obtain ⟨common, rest, more, rfl, rfl, hrest⟩ := h
  -- behind an attribute the erasure goes on, so the induction is on the length
  induction hlength : common.length using Nat.strongRecOn
    generalizing common previous left right with
  | _ n ih =>
    by_cases hcommon : NoParentheses common
    · -- the first text has no parentheses at all, so it stays
      have hstays := eraseAfter?_of_not_mem hkeyword (hcommon.append hrest).1 previous
      rw [hleft, Option.some.injEq] at hstays
      rw [hstays]
      exact agree_of_noParentheses (hcommon.append hrest) right
    · cases common with
      | nil => exact absurd .nil hcommon
      | cons c common =>
        rw [List.length_cons] at hlength
        rw [List.cons_append, eraseAfter?_cons] at hleft hright
        by_cases hhere : keyword <+: c :: common
        · obtain ⟨after, heq⟩ := hhere
          have hafter : ¬ NoParentheses after := fun hfree =>
            hcommon (heq ▸ hkeyword.noParentheses.append hfree)
          have hshort : after.length < n := by
            have hlengths := congrArg List.length heq
            have hpos := List.length_pos_iff.mpr hkeyword.nonempty
            simp only [List.length_append, List.length_cons] at hlengths
            omega
          have hfront (text : Text) : front keyword previous c (common ++ text) =
              if startsWord previous then ofArguments (after ++ text) else .bare (after ++ text) :=
            front_of_append hkeyword.nonempty (by rw [← List.append_assoc, heq, List.cons_append])
          have hbare
              (hfirst : front keyword previous c (common ++ rest) = .bare (after ++ rest))
              (hsecond : front keyword previous c (common ++ more) = .bare (after ++ more)) :
              Agree left right := by
            rw [hfirst] at hleft
            rw [hsecond] at hright
            exact .of_map keyword (fun _ _ hleft' hright' => ih _ hshort after hleft' hright' rfl)
              hleft hright
          by_cases hword : startsWord previous = true
          · simp only [if_pos hword] at hfront
            rcases ofArguments_append hrest hafter more with
              ⟨hfirst, hsecond⟩ | hunclosed | ⟨remainder, hlt, hfirst, hsecond⟩
            · exact hbare (by rw [hfront, hfirst]) (by rw [hfront, hsecond])
            · rw [hfront, hunclosed] at hleft
              cases hleft
            · rw [hfront, hfirst] at hleft
              rw [hfront, hsecond] at hright
              exact .of_map [' '] (fun _ _ hleft' hright' =>
                ih _ (hlt.trans hshort) remainder hleft' hright' rfl) hleft hright
          · simp only [if_neg hword] at hfront
            exact hbare (hfront rest) (hfront more)
        · have hnot (text : Text) : ¬ keyword <+: c :: (common ++ text) :=
            not_isPrefix_append_of_parenthesis hkeyword hhere hcommon text
          rw [front_of_not_isPrefix (hnot rest)] at hleft
          rw [front_of_not_isPrefix (hnot more)] at hright
          exact .of_map [c] (fun _ _ hleft' hright' =>
            ih _ (by omega) common hleft' hright' rfl) hleft hright

/-- The erasure of all keywords keeps the agreement of two texts. -/
theorem eraseAll?_agree {keywords : List Text} (hkeywords : ∀ keyword ∈ keywords, IsWord keyword)
    {first second left right : Text} (h : Agree first second)
    (hleft : eraseAll? keywords first = some left)
    (hright : eraseAll? keywords second = some right) : Agree left right := by
  induction keywords generalizing first second with
  | nil =>
    cases hleft
    cases hright
    exact h
  | cons keyword keywords ih =>
    have hkeyword := hkeywords keyword List.mem_cons_self
    rw [eraseAll?_cons_word hkeyword, Option.bind_eq_some_iff] at hleft hright
    obtain ⟨first', hfirst, hleft⟩ := hleft
    obtain ⟨second', hsecond, hright⟩ := hright
    exact ih (fun k hk => hkeywords k (List.mem_cons_of_mem _ hk))
      (eraseAfter?_agree hkeyword h hfirst hsecond) hleft hright

end Attribute

namespace Declaration

/-! ## The declaration -/

/-- The erasure comes first, and what it leaves is read without attributes. -/
lemma ofText?_eq_bind (keywords : List Text) (text : Text) :
    ofText? keywords text = (Attribute.eraseAll? keywords text).bind (ofText? []) := rfl

/-- A text without opening parenthesis is not read as a declaration. -/
lemma open_mem_of_ofText? {text : Text} {declaration : Declaration}
    (h : ofText? [] text = some declaration) : '(' ∈ text := by
  by_contra hopen
  have hnone : ofText? [] text = none := by
    refine ofText?_of_unfinished fun left hleft => ?_
    cases hleft
    exact hopen
  rw [hnone] at h
  cases h

/-- An argument list closes in a collapsed text where it closes in the text itself, whatever
follows. -/
lemma exists_closing?_collapse {depth : Nat} {text inner after : Text}
    (h : Parentheses.closing? depth text = some (inner, after)) :
    ∃ parameters, ∀ more, Parentheses.closing? depth (collapse (text ++ more)) =
      some (parameters, collapse (after ++ more)) := by
  have htext := Parentheses.eq_append_of_closing? h
  obtain ⟨parameters, -, hcollapse⟩ :=
    exists_collapse_append (by decide : ¬ isWhiteSpace ')' = true) inner
  refine ⟨parameters, fun more => ?_⟩
  have hclosing := Parentheses.closing?_collapse depth (text ++ more)
  rw [Parentheses.closing?_append h, Option.map_some, Option.map_eq_some_iff] at hclosing
  obtain ⟨⟨front, back⟩, hparts, hback⟩ := hclosing
  have hsplit := Parentheses.eq_append_of_closing? hparts
  dsimp only at hback
  -- the remainder is known, so what stands before it is known as well
  rw [htext, List.append_assoc, List.cons_append, hcollapse, hback, List.append_cancel_right_eq]
    at hsplit
  rw [hparts, hback, hsplit]

/-- What is read off a text is read off each text that agrees with it. -/
lemma ofText?_nil_of_agree {first second : Text} (h : Agree first second)
    {declaration : Declaration} (hfirst : ofText? [] first = some declaration) :
    ofText? [] second = some declaration := by
  obtain ⟨common, rest, more, rfl, rfl, hrest⟩ := h
  have hopen : '(' ∈ common :=
    (List.mem_append.mp (open_mem_of_ofText? hfirst)).resolve_right hrest.1
  obtain ⟨front, back, rfl, hfront⟩ := List.eq_append_cons_of_mem hopen
  obtain ⟨head, hletters, hsqueeze⟩ := exists_squeeze_append (by decide : ¬ isWhiteSpace '(' = true)
    front
  have hhead : '(' ∉ head := by
    intro hmem
    rcases hletters _ hmem with hin | hspace
    · exact hfront hin
    · cases hspace
  -- both texts are read at the same parenthesis
  have hread (more : Text) : ofText? [] (front ++ '(' :: back ++ more) =
      (Parentheses.closing? 0 (collapse (back ++ more))).map fun parts =>
        ⟨trimEnd head, trim parts.1⟩ := by
    have herase (text : Text) : Attribute.eraseAll? [] text = some text := rfl
    rw [ofText?, herase, List.append_assoc, List.cons_append]
    simp only [Option.bind_eq_bind, Option.bind_some]
    rw [hsqueeze, cut?_singleton_append hhead, Option.bind_some]
    dsimp only
    cases Parentheses.closing? 0 (collapse (back ++ more)) <;> rfl
  rw [hread] at hfirst ⊢
  -- the list is closed in what the texts have in common, as the rest has no parentheses
  cases hclosing : Parentheses.closing? 0 (back ++ rest) with
  | none =>
    have hnone := Parentheses.closing?_collapse 0 (back ++ rest)
    rw [hclosing, Option.map_none, Option.map_eq_none_iff] at hnone
    rw [hnone] at hfirst
    cases hfirst
  | some parts =>
    obtain ⟨remainder, hback, -⟩ := Parentheses.exists_closing?_of_append hrest hclosing
    obtain ⟨parameters, hparameters⟩ := exists_closing?_collapse hback
    rw [hparameters] at hfirst ⊢
    exact hfirst

/-- A declaration that is read off the front of a text is the one that is read off the text, if one
is read off the text at all. -/
theorem ofText?_append {keywords : List Text} (hkeywords : ∀ keyword ∈ keywords, IsWord keyword)
    {front : Text} {early late : Declaration} (hearly : ofText? keywords front = some early)
    {rest : Text} (hlate : ofText? keywords (front ++ rest) = some late) : early = late := by
  rw [ofText?_eq_bind, Option.bind_eq_some_iff] at hearly hlate
  obtain ⟨left, hleft, hearly⟩ := hearly
  obtain ⟨right, hright, hlate⟩ := hlate
  have hagree := Attribute.eraseAll?_agree hkeywords (agree_append front rest) hleft hright
  rw [ofText?_nil_of_agree hagree hearly] at hlate
  exact Option.some.inj hlate

end Declaration

end KernelCensus
