import KernelCensus.Log.Tokens
import KernelCensus.Proofs.Log.Context

/-!
# Reading tokens

A line may have any number of tokens, with any text around them that has no equals sign and keeps
off the keys and the values. Its tokens are read one by one, from left to right: none is skipped,
and none takes in what belongs to another. What carries this is that text without equals sign has no
token in it, however much of it looks like a key.

* `tokens_append_of_not_mem`: text without equals sign.
* `tokens_token`: a token and what follows it.
* `tokens_of_written`: a whole line.
-/

namespace KernelCensus.Log

open Unicode Text Name

/-- A line in which the given tokens are written, in their order. -/
inductive Written : List Token → Text → Prop
  | rest {text : Text} (htext : '=' ∉ text) : Written [] text
  /-- A token, the text before it, and the rest of the line. White space may stand around the sign
  of the token. A key starts where no other identifier ends, and a value ends where the rest starts
  with a character that is in no value. -/
  | token {lead before after rest : Text} {token : Token} {tokens : List Token}
    (hlead : '=' ∉ lead) (hend : ∀ c ∈ lead.getLast?, isPart c = false)
    (hkey : IsIdentifier token.key) (hbefore : ∀ c ∈ before, isWhiteSpace c = true)
    (hafter : ∀ c ∈ after, isWhiteSpace c = true) (hne : token.value ≠ [])
    (hvalue : ∀ c ∈ token.value, isValueChar c = true)
    (hstop : ∀ c ∈ rest.head?, isValueChar c = false) (hrest : Written tokens rest) :
    Written (token :: tokens)
      (lead ++ (token.key ++ (before ++ '=' :: (after ++ (token.value ++ rest)))))

/-- A token is written in a line if all that is asked of the parts of the line is checked. -/
lemma Written.of_checks {lead before after rest : Text} {token : Token} {tokens : List Token}
    (h : (lead.all (· != '=') && lead.getLast?.all (!isPart ·) &&
      decide (IsIdentifier token.key) && before.all isWhiteSpace && after.all isWhiteSpace &&
      !token.value.isEmpty && token.value.all isValueChar &&
      rest.head?.all (!isValueChar ·)) = true)
    (hrest : Written tokens rest) :
    Written (token :: tokens)
      (lead ++ (token.key ++ (before ++ '=' :: (after ++ (token.value ++ rest))))) := by
  simp only [Bool.and_eq_true, Option.all_eq_true, List.all_eq_true, Bool.not_eq_true',
    decide_eq_true_eq] at h
  obtain ⟨⟨⟨⟨⟨⟨⟨hlead, hend⟩, hkey⟩, hbefore⟩, hafter⟩, hne⟩, hvalue⟩, hstop⟩ := h
  have hequals : '=' ∉ lead := fun hmem => bne_iff_ne.mp (hlead '=' hmem) rfl
  exact .token hequals hend hkey hbefore hafter (by simpa using hne) hvalue hstop hrest

/-! ## Characters -/

lemma isValueChar_of_isPart {c : Char} (hc : isPart c = true) : isValueChar c = true :=
  holds_of_isPart (by decide +kernel) hc

lemma ne_equals_of_isPart {c : Char} (hc : isPart c = true) : c ≠ '=' := by
  rintro rfl
  revert hc
  decide

lemma letter_of_isValueChar {c : Char} (hc : isValueChar c = true) : ¬ isWhiteSpace c = true := by
  unfold isValueChar at hc
  rw [Bool.not_eq_true', Bool.or_eq_false_iff] at hc
  rw [hc.1]
  exact Bool.false_ne_true

/-- What a text starts with, white space aside, is in its front or starts what follows that. -/
lemma mem_head?_trimStart_append {front back : Text} {c : Char}
    (h : c ∈ (trimStart (front ++ back)).head?) : c ∈ front ∨ c ∈ (trimStart back).head? := by
  induction front with
  | nil => exact Or.inr h
  | cons d front ih =>
    by_cases hd : isWhiteSpace d = true
    · rw [List.cons_append, trimStart_cons_blank hd] at h
      exact (ih h).imp_left (List.mem_cons_of_mem d)
    · rw [List.cons_append, trimStart_cons_letter hd] at h
      cases h
      exact Or.inl List.mem_cons_self

/-! ## One step -/

/-- No token starts with a character that starts no identifier. -/
lemma tokens_cons_of_not_isStart {c : Char} (hc : isStart c = false) (rest : Text) :
    tokens (c :: rest) = tokens rest := by
  rw [tokens, hc, if_neg Bool.false_ne_true]

/-- An identifier is a key if a value follows it, and is passed over as a whole otherwise. -/
lemma tokens_identifier {key rest : Text} (hkey : IsIdentifier key)
    (hrest : ∀ c ∈ rest.head?, isPart c = false) :
    tokens (key ++ rest) =
      match valueAfterKey? rest with
      | some (value, after) => ⟨key, value⟩ :: tokens after
      | none => tokens rest := by
  obtain ⟨c, run, rfl, hc, hrun⟩ := hkey
  obtain ⟨htake, hdrop⟩ := span_append hrun hrest
  rw [List.cons_append, tokens, if_pos hc]
  split
  · next value after hvalue =>
    rw [hdrop] at hvalue
    rw [hvalue, htake]
  · next hnone =>
    rw [hdrop] at hnone
    rw [hnone, hdrop]

lemma valueAfterKey?_eq_none {text : Text} (h : ∀ c ∈ (trimStart text).head?, c ≠ '=') :
    valueAfterKey? text = none := by
  unfold valueAfterKey?
  split
  · next rest heq =>
    rw [heq] at h
    exact absurd rfl (h '=' rfl)
  · rfl

/-- The value after a key is what follows the equals sign and the white space behind it. -/
lemma valueAfterKey?_append_equals {before : Text} (hbefore : ∀ c ∈ before, isWhiteSpace c = true)
    (rest : Text) :
    valueAfterKey? (before ++ '=' :: rest) =
      if ((trimStart rest).takeWhile isValueChar).isEmpty then none
      else some ((trimStart rest).takeWhile isValueChar,
        (trimStart rest).dropWhile isValueChar) := by
  have hsign : trimStart (before ++ '=' :: rest) = '=' :: rest := by
    rw [trimStart_append_blank hbefore, trimStart_cons_letter (by decide)]
  unfold valueAfterKey?
  rw [hsign]
  rfl

/-- The value behind an equals sign is read to its end. -/
lemma valueAfterKey?_sign {before after value rest : Text}
    (hbefore : ∀ c ∈ before, isWhiteSpace c = true) (hafter : ∀ c ∈ after, isWhiteSpace c = true)
    (hne : value ≠ []) (hvalue : ∀ c ∈ value, isValueChar c = true)
    (hstop : ∀ c ∈ rest.head?, isValueChar c = false) :
    valueAfterKey? (before ++ '=' :: (after ++ (value ++ rest))) = some (value, rest) := by
  have hstart : trimStart (after ++ (value ++ rest)) = value ++ rest := by
    obtain ⟨c, tail, rfl⟩ := List.exists_cons_of_ne_nil hne
    rw [trimStart_append_blank hafter, List.cons_append,
      trimStart_cons_letter (letter_of_isValueChar (hvalue c List.mem_cons_self))]
  obtain ⟨htake, hdrop⟩ := span_append hvalue hstop
  rw [valueAfterKey?_append_equals hbefore, hstart, htake, hdrop, if_neg (by simpa using hne)]

/-! ## Lines -/

lemma isIdentifier_of_mem_tokens {line : Text} {token : Token} (h : token ∈ tokens line) :
    IsIdentifier token.key := by
  fun_induction tokens line with
  | case1 => cases h
  | case2 c rest hstart value after hvalue ih =>
    rcases List.mem_cons.mp h with rfl | hlater
    · exact ⟨c, rest.takeWhile isPart, rfl, hstart, List.all_eq_true.mp List.all_takeWhile⟩
    · exact ih hlater
  | case3 c rest hstart hnone ih => exact ih h
  | case4 c rest hstart ih => exact ih h

/-- Text without equals sign has no token, if no identifier goes on behind it and no equals sign
comes next. -/
theorem tokens_append_of_not_mem {lead : Text} (hlead : '=' ∉ lead) {text : Text}
    (hjoin : ∀ c ∈ lead.getLast?, ∀ d ∈ text.head?, isPart c = true → isPart d = false)
    (htext : ∀ c ∈ (trimStart text).head?, c ≠ '=') : tokens (lead ++ text) = tokens text := by
  -- an identifier is passed over at once, so the induction is on the length
  induction hlength : lead.length using Nat.strongRecOn generalizing lead with
  | _ n ih =>
    have hrest {front back : Text} (hsplit : lead = front ++ back) (hne : front ≠ []) :
        tokens (back ++ text) = tokens text := by
      have hshorter : back.length < n := by
        have hpos := List.length_pos_iff.mpr hne
        rw [hsplit, List.length_append] at hlength
        omega
      refine ih back.length hshorter (fun h => hlead ?_) (fun c hc => hjoin c ?_) rfl
      · exact hsplit ▸ List.mem_append_right front h
      · rw [hsplit, List.getLast?_append, Option.mem_def.mp hc]
        rfl
    cases hcase : lead with
    | nil => rfl
    | cons c tail =>
      cases hc : isStart c with
      | false =>
        rw [List.cons_append, tokens_cons_of_not_isStart hc]
        exact hrest (hcase.trans (List.singleton_append).symm) (List.cons_ne_nil c [])
      | true =>
        obtain ⟨key, back, hsplit, hkey, hback⟩ := exists_identifier hc tail
        have hnone : valueAfterKey? (back ++ text) = none := by
          refine valueAfterKey?_eq_none fun d hd => ?_
          rcases mem_head?_trimStart_append hd with hmem | hhead
          · rintro rfl
            exact hlead (hcase ▸ hsplit ▸ List.mem_append_right key hmem)
          · exact htext d hhead
        have hend : ∀ d ∈ (back ++ text).head?, isPart d = false := by
          intro d hd
          cases back with
          | nil =>
            -- the identifier is the end of the text, where no other one goes on
            rw [List.append_nil] at hsplit
            obtain ⟨last, hlast⟩ : ∃ last, (c :: tail).getLast? = some last :=
              Option.ne_none_iff_exists'.mp (by simp)
            have hpart := hkey.parts last (List.mem_of_getLast? (hsplit ▸ hlast))
            exact hjoin last (hcase ▸ hlast) d hd hpart
          | cons e back => exact hback d hd
        have hne : key ≠ [] := by
          obtain ⟨d, run, rfl, -⟩ := hkey
          exact List.cons_ne_nil d run
        rw [hsplit, List.append_assoc, tokens_identifier hkey hend, hnone]
        exact hrest (hcase.trans hsplit) hne

lemma tokens_of_not_mem {text : Text} (h : '=' ∉ text) : tokens text = [] := by
  have hnone : ∀ c ∈ (trimStart ([] : Text)).head?, c ≠ '=' := nofun
  have hjoin : ∀ c ∈ text.getLast?, ∀ d ∈ ([] : Text).head?, isPart c = true → isPart d = false :=
    fun _ _ => nofun
  have htokens := tokens_append_of_not_mem h hjoin hnone
  rw [List.append_nil, tokens] at htokens
  exact htokens

/-- Text without equals sign before a key is passed over. -/
lemma tokens_lead {lead : Text} (hlead : '=' ∉ lead) (hend : ∀ c ∈ lead.getLast?, isPart c = false)
    {key : Text} (hkey : IsIdentifier key) (rest : Text) :
    tokens (lead ++ (key ++ rest)) = tokens (key ++ rest) := by
  obtain ⟨c, run, rfl, hc, -⟩ := hkey
  have hpart := isPart_of_isStart hc
  refine tokens_append_of_not_mem hlead ?_ ?_
  · intro d hd _ _ hinside
    rw [hend d hd] at hinside
    cases hinside
  · rw [List.cons_append, trimStart_cons_letter (letter_of_isPart hpart)]
    intro d hd
    cases hd
    exact ne_equals_of_isPart hpart

/-- No identifier goes on behind a key that white space and an equals sign follow. -/
lemma not_isPart_head?_sign {before : Text} (hbefore : ∀ c ∈ before, isWhiteSpace c = true)
    (rest : Text) : ∀ c ∈ (before ++ '=' :: rest).head?, isPart c = false := by
  intro c hc
  cases before with
  | nil =>
    cases hc
    decide
  | cons d before =>
    cases hc
    exact not_isPart_of_blank (hbefore c List.mem_cons_self)

/-- A key with its value is read as a token, behind text without equals sign. -/
theorem tokens_token {lead before after rest : Text} {token : Token} (hlead : '=' ∉ lead)
    (hend : ∀ c ∈ lead.getLast?, isPart c = false) (hkey : IsIdentifier token.key)
    (hbefore : ∀ c ∈ before, isWhiteSpace c = true) (hafter : ∀ c ∈ after, isWhiteSpace c = true)
    (hne : token.value ≠ []) (hvalue : ∀ c ∈ token.value, isValueChar c = true)
    (hstop : ∀ c ∈ rest.head?, isValueChar c = false) :
    tokens (lead ++ (token.key ++ (before ++ '=' :: (after ++ (token.value ++ rest))))) =
      token :: tokens rest := by
  have hread := valueAfterKey?_sign hbefore hafter hne hvalue hstop
  rw [tokens_lead hlead hend hkey, tokens_identifier hkey (not_isPart_head?_sign hbefore _), hread]

/-- The tokens of a line are those that are written in it. -/
theorem tokens_of_written {written : List Token} {line : Text} (h : Written written line) :
    tokens line = written := by
  induction h with
  | rest htext => exact tokens_of_not_mem htext
  | token hlead hend hkey hbefore hafter hne hvalue hstop _ ih =>
    rw [tokens_token hlead hend hkey hbefore hafter hne hvalue hstop, ih]

end KernelCensus.Log
