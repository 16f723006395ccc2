import KernelCensus.Declaration.Basic
import KernelCensus.Proofs.Declaration.Balance
import KernelCensus.Proofs.Text.Cut
import KernelCensus.Proofs.Text.Words

/-!
# The layout of declarations

How a declaration is read depends on its words only, so it may be broken into lines at any white
space. The keywords of attributes hold no white space, so the erasure of attributes finds them in a
collapsed text where it finds them in the text itself, and what it leaves of the two collapses to
the same text again.

* `eraseAfter?_collapse`: one keyword.
* `ofText?_eq_of_words_eq`: a whole declaration.
-/

namespace KernelCensus

open Unicode Text

namespace Attribute

/-- Keywords that are words, each without white space. -/
structure Plain (keywords : List Text) : Prop where
  nonempty : ∀ keyword ∈ keywords, keyword ≠ []
  letters : ∀ keyword ∈ keywords, ∀ c ∈ keyword, ¬ isWhiteSpace c = true

/-! ## One step of the erasure -/

/-- What stands at the front of a text, with a function applied to what follows it. -/
def Front.map (f : Text → Text) : Front → Front
  | other => other
  | bare after => bare (f after)
  | unclosed => unclosed
  | closed after => closed (f after)

/-- The erasure goes along with what stands at the front of the text. -/
lemma eraseAfter?_cons (keyword : Text) (previous : Option Char) (c : Char) (rest : Text) :
    eraseAfter? keyword previous (c :: rest) =
      match front keyword previous c rest with
      | .other => (eraseAfter? keyword (some c) rest).map (c :: ·)
      | .bare after => (eraseAfter? keyword keyword.getLast? after).map (keyword ++ ·)
      | .unclosed => none
      | .closed after => (eraseAfter? keyword (some ' ') after).map (' ' :: ·) := by
  rw [eraseAfter?]
  split <;> simp_all only

/-- The character before a text counts only by whether a word may start after it. -/
lemma eraseAfter?_congr (keyword : Text) {previous previous' : Option Char}
    (h : startsWord previous = startsWord previous') (text : Text) :
    eraseAfter? keyword previous text = eraseAfter? keyword previous' text := by
  cases text with
  | nil => rw [eraseAfter?, eraseAfter?]
  | cons c rest =>
    have hfront : front keyword previous c rest = front keyword previous' c rest := by
      rw [front, front, h]
    rw [eraseAfter?_cons, eraseAfter?_cons, hfront]

/-- Letters and numbers are not white space, and neither is the low line. -/
lemma startsWord_of_blank {c : Char} (hc : isWhiteSpace c = true) :
    startsWord (some c) = true := by
  have hall : blanks.all (fun c => startsWord (some c)) = true := by decide +kernel
  exact holds_of_blank hall hc

end Attribute

/-! ## Collapsed text -/

/-- Letters at the start are there in a collapsed text if and only if they are there in the text
itself. -/
lemma isPrefixOf_collapse {keyword : Text} (h : ∀ c ∈ keyword, ¬ isWhiteSpace c = true)
    (text : Text) : keyword.isPrefixOf (collapse text) = keyword.isPrefixOf text := by
  induction keyword generalizing text with
  | nil => rfl
  | cons k keyword ih =>
    have hk := h k List.mem_cons_self
    cases text with
    | nil => rfl
    | cons c text =>
      by_cases hc : isWhiteSpace c = true
      · have hne : (k == c) = false := by
          rw [beq_eq_false_iff_ne]
          intro heq
          rw [heq] at hk
          exact hk hc
        rw [collapse_cons_blank hc, List.isPrefixOf_cons_cons, hne, Bool.false_and]
        cases collapse text with
        | nil => rfl
        | cons d rest =>
          by_cases hd : d = ' '
          · rw [spaced, if_pos hd, hd, List.isPrefixOf_cons_cons, beq_false_of_ne (ne_space hk),
              Bool.false_and]
          · rw [spaced, if_neg hd, List.isPrefixOf_cons_cons, beq_false_of_ne (ne_space hk),
              Bool.false_and]
      · rw [collapse_cons_letter hc, List.isPrefixOf_cons_cons, List.isPrefixOf_cons_cons,
          ih fun d hd => h d (List.mem_cons_of_mem k hd)]

/-- What follows letters at the start collapses like the text itself. -/
lemma drop_collapse {keyword text : Text} (h : ∀ c ∈ keyword, ¬ isWhiteSpace c = true)
    (hfront : keyword.isPrefixOf text = true) :
    (collapse text).drop keyword.length = collapse (text.drop keyword.length) := by
  obtain ⟨rest, rfl⟩ := List.isPrefixOf_iff_prefix.mp hfront
  rw [collapse_append_letters h, List.drop_left, List.drop_left]

namespace Parentheses

lemma ne_of_blank {c : Char} (hc : isWhiteSpace c = true) : c ≠ '(' ∧ c ≠ ')' := by
  have hall : blanks.all (fun c => c != '(' && c != ')') = true := by decide +kernel
  simpa using holds_of_blank hall hc

/-- Parentheses match in a collapsed text where they match in the text itself. -/
lemma closing?_collapse (depth : Nat) (text : Text) :
    (closing? depth (collapse text)).map Prod.snd =
      (closing? depth text).map fun parts => collapse parts.2 := by
  have hspaced (depth : Nat) (text : Text) :
      (closing? depth (spaced text)).map Prod.snd = (closing? depth text).map Prod.snd := by
    cases text with
    | nil => rfl
    | cons c text =>
      by_cases hc : c = ' '
      · rw [spaced, if_pos hc]
      · rw [spaced, if_neg hc, closing?_cons_of_ne (by decide) (by decide), Option.map_map]
        rfl
  induction text generalizing depth with
  | nil => rfl
  | cons c text ih =>
    by_cases hc : isWhiteSpace c = true
    · obtain ⟨hopen, hclose⟩ := ne_of_blank hc
      rw [collapse_cons_blank hc, hspaced, ih, closing?_cons_of_ne hopen hclose, Option.map_map]
      rfl
    · rw [collapse_cons_letter hc]
      by_cases hopen : c = '('
      · rw [hopen, closing?, closing?, Option.map_map, Option.map_map]
        exact ih (depth + 1)
      · by_cases hclose : c = ')'
        · rw [hclose]
          cases depth with
          | zero => rfl
          | succ depth =>
            rw [closing?, closing?, Option.map_map, Option.map_map]
            exact ih depth
        · rw [closing?_cons_of_ne hopen hclose, closing?_cons_of_ne hopen hclose, Option.map_map,
            Option.map_map]
          exact ih depth

end Parentheses

namespace Attribute

/-- Argument lists open in a collapsed text where they open in the text itself. -/
lemma openArguments?_collapse (text : Text) :
    openArguments? (collapse text) = (openArguments? text).map collapse := by
  rw [openArguments?, openArguments?, trimStart_collapse]
  cases htrim : trimStart text with
  | nil => rfl
  | cons c rest =>
    have hhead : c ∈ (text.dropWhile isWhiteSpace).head? := by
      rw [← trimStart, htrim]
      rfl
    rw [collapse_cons_letter (Bool.eq_false_iff.mp (not_of_mem_head?_dropWhile hhead))]
    by_cases hopen : c = '('
    · rw [hopen]
      rfl
    · simp [hopen]

/-- What a keyword is goes by the collapsed text after it. -/
lemma ofArguments_collapse (after : Text) :
    ofArguments (collapse after) = (ofArguments after).map collapse := by
  rw [ofArguments, ofArguments, openArguments?_collapse]
  cases openArguments? after with
  | none => rfl
  | some arguments =>
    have hclosing := Parentheses.closing?_collapse 0 arguments
    rw [Option.map_some]
    dsimp only
    cases hclose : Parentheses.closing? 0 arguments with
    | none =>
      rw [hclose, Option.map_none, Option.map_eq_none_iff] at hclosing
      rw [hclosing]
      rfl
    | some parts =>
      rw [hclose, Option.map_some, Option.map_eq_some_iff] at hclosing
      obtain ⟨parts', hclose', hrest⟩ := hclosing
      rw [hclose']
      dsimp only
      rw [hrest]
      rfl

variable {keyword : Text} (hne : keyword ≠ [])
  (hletters : ∀ c ∈ keyword, ¬ isWhiteSpace c = true)

include hne hletters

/-- What stands at the front of a text stands at the front of the collapsed one. -/
lemma front_collapse (previous : Option Char) {c : Char} (hc : ¬ isWhiteSpace c = true)
    (rest : Text) :
    front keyword previous c (collapse rest) = (front keyword previous c rest).map collapse := by
  have hfront : keyword.isPrefixOf (c :: collapse rest) = keyword.isPrefixOf (c :: rest) := by
    rw [← collapse_cons_letter hc, isPrefixOf_collapse hletters]
  unfold front
  rw [hfront]
  by_cases hkeyword : keyword.isPrefixOf (c :: rest) = true
  · have hdrop : (collapse rest).drop (keyword.length - 1) =
        collapse (rest.drop (keyword.length - 1)) := by
      have hall := drop_collapse hletters hkeyword
      obtain ⟨n, hn⟩ : ∃ n, keyword.length = n + 1 :=
        Nat.exists_eq_succ_of_ne_zero (fun h => hne (List.length_eq_zero_iff.mp h))
      rw [collapse_cons_letter hc, hn, List.drop_succ_cons, List.drop_succ_cons] at hall
      rw [hn]
      exact hall
    rw [if_pos hkeyword, if_pos hkeyword, hdrop]
    split
    · exact ofArguments_collapse _
    · rfl
  · rw [if_neg hkeyword, if_neg hkeyword]
    rfl

lemma front_of_blank (previous : Option Char) {c : Char} (hc : isWhiteSpace c = true)
    (rest : Text) : front keyword previous c rest = .other := by
  obtain ⟨k, keyword, rfl⟩ := List.exists_cons_of_ne_nil hne
  have hk : (k == c) = false := by
    rw [beq_eq_false_iff_ne]
    intro heq
    exact hletters k List.mem_cons_self (heq ▸ hc)
  rw [front, List.isPrefixOf_cons_cons, hk, Bool.false_and, if_neg Bool.false_ne_true]

/-- White space stays, and a word may start after it. -/
lemma eraseAfter?_cons_blank (previous : Option Char) {c : Char} (hc : isWhiteSpace c = true)
    (rest : Text) :
    eraseAfter? keyword previous (c :: rest) =
      (eraseAfter? keyword none rest).map (c :: ·) := by
  have hstarts : startsWord (some c) = startsWord none := startsWord_of_blank hc
  rw [eraseAfter?_cons, front_of_blank hne hletters previous hc]
  dsimp only
  rw [eraseAfter?_congr keyword hstarts]

/-- A space in front of a text is a space in front of what the erasure leaves of it. -/
lemma eraseAfter?_spaced (previous : Option Char) (text : Text) :
    (eraseAfter? keyword previous (spaced text)).map collapse =
      ((eraseAfter? keyword none text).map collapse).map spaced := by
  have hspace (rest : Text) : collapse (' ' :: rest) = spaced (collapse rest) :=
    collapse_cons_blank isWhiteSpace_space rest
  cases text with
  | nil => rw [spaced, eraseAfter?, eraseAfter?]; rfl
  | cons c text =>
    by_cases hc : c = ' '
    · rw [spaced, if_pos hc, hc, eraseAfter?_cons_blank hne hletters _ isWhiteSpace_space,
        eraseAfter?_cons_blank hne hletters _ isWhiteSpace_space]
      cases eraseAfter? keyword none text with
      | none => rfl
      | some left =>
        simp only [Option.map_some, hspace, spaced_spaced]
    · rw [spaced, if_neg hc, eraseAfter?_cons_blank hne hletters _ isWhiteSpace_space]
      cases eraseAfter? keyword none (c :: text) with
      | none => rfl
      | some left =>
        simp only [Option.map_some, hspace]

/-- What the erasure leaves of a text and of the collapsed text collapses to the same. -/
theorem eraseAfter?_collapse (previous : Option Char) (text : Text) :
    (eraseAfter? keyword previous (collapse text)).map collapse =
      (eraseAfter? keyword previous text).map collapse := by
  -- after a keyword the erasure goes on behind it, so the induction is on the length
  induction hlength : text.length using Nat.strongRecOn generalizing text previous with
  | _ n ih =>
    cases text with
    | nil => rfl
    | cons c rest =>
      rw [List.length_cons] at hlength
      by_cases hc : isWhiteSpace c = true
      · have hrest := ih rest.length (by omega) none rest rfl
        rw [collapse_cons_blank hc, eraseAfter?_spaced hne hletters, hrest,
          eraseAfter?_cons_blank hne hletters previous hc, Option.map_map, Option.map_map]
        congr 1
        funext left
        exact (collapse_cons_blank hc left).symm
      · rw [collapse_cons_letter hc, eraseAfter?_cons, eraseAfter?_cons,
          front_collapse hne hletters previous hc]
        cases hfront : front keyword previous c rest with
        | other =>
          have hrest := ih rest.length (by omega) (some c) rest rfl
          have hcons : collapse ∘ (c :: ·) = (c :: ·) ∘ collapse :=
            funext fun left => collapse_cons_letter hc left
          dsimp only [Front.map]
          rw [Option.map_map, Option.map_map, hcons, ← Option.map_map, ← Option.map_map, hrest]
        | bare after =>
          have hle := length_of_front_bare hfront
          have hafter := ih after.length (by omega) keyword.getLast? after rfl
          have happend : collapse ∘ (keyword ++ ·) = (keyword ++ ·) ∘ collapse :=
            funext fun left => collapse_append_letters hletters left
          dsimp only [Front.map]
          rw [Option.map_map, Option.map_map, happend, ← Option.map_map, ← Option.map_map, hafter]
        | unclosed => rfl
        | closed after =>
          have hle := length_of_front_closed hfront
          have hafter := ih after.length (by omega) (some ' ') after rfl
          have hcons : collapse ∘ (' ' :: ·) = spaced ∘ collapse :=
            funext fun left => collapse_cons_blank isWhiteSpace_space left
          dsimp only [Front.map]
          rw [Option.map_map, Option.map_map, hcons, ← Option.map_map, ← Option.map_map, hafter]

omit hne hletters

/-! ## Declarations -/

lemma eraseAll?_cons {keyword : Text} (hne : keyword ≠ [])
    (hletters : ∀ c ∈ keyword, ¬ isWhiteSpace c = true) (keywords : List Text) (text : Text) :
    eraseAll? (keyword :: keywords) text =
      (eraseAfter? keyword none text).bind (eraseAll? keywords) := by
  have hkeep : (!keyword.isEmpty) = true := by
    rw [Bool.not_eq_true', List.isEmpty_eq_false_iff]
    exact hne
  rw [eraseAll?, List.map_cons, trim_of_letters hletters, List.filter_cons, if_pos hkeep,
    List.foldlM_cons]
  rfl

/-- What the erasure of all attributes leaves goes by the collapsed text. -/
theorem eraseAll?_of_collapse_eq {keywords : List Text} (h : Plain keywords)
    {first second : Text} (hsame : collapse first = collapse second) :
    (eraseAll? keywords first).map collapse = (eraseAll? keywords second).map collapse := by
  obtain ⟨hnonempty, hletters⟩ := h
  induction keywords generalizing first second with
  | nil => exact congrArg some hsame
  | cons keyword keywords ih =>
    have hne := hnonempty keyword List.mem_cons_self
    have hkeyword := hletters keyword List.mem_cons_self
    have hone : (eraseAfter? keyword none first).map collapse =
        (eraseAfter? keyword none second).map collapse := by
      rw [← eraseAfter?_collapse hne hkeyword, ← eraseAfter?_collapse hne hkeyword none second,
        hsame]
    rw [eraseAll?_cons hne hkeyword, eraseAll?_cons hne hkeyword]
    cases hfirst : eraseAfter? keyword none first with
    | none =>
      rw [hfirst, Option.map_none, eq_comm, Option.map_eq_none_iff] at hone
      rw [hone]
    | some left =>
      rw [hfirst, Option.map_some, eq_comm, Option.map_eq_some_iff] at hone
      obtain ⟨left', hsecond, hleft⟩ := hone
      rw [hsecond]
      exact ih hleft.symm (fun k hk => hnonempty k (List.mem_cons_of_mem _ hk))
        fun k hk => hletters k (List.mem_cons_of_mem _ hk)

end Attribute

/-- Texts that start with letters and have the same words are read as the same declaration. -/
theorem Declaration.ofText?_eq_of_words_eq {keywords : List Text} (h : Attribute.Plain keywords)
    {first second : Text} (hfirst : ∀ c ∈ first.head?, ¬ isWhiteSpace c = true)
    (hsecond : ∀ c ∈ second.head?, ¬ isWhiteSpace c = true) (hsame : words first = words second) :
    ofText? keywords first = ofText? keywords second := by
  have hcollapse := collapse_eq_of_words_eq hfirst hsecond hsame
  have herase : (Attribute.eraseAll? keywords first).map squeeze =
      (Attribute.eraseAll? keywords second).map squeeze := by
    have hsqueeze : squeeze = trimStart ∘ collapse := funext squeeze_eq_trimStart
    rw [hsqueeze, ← Option.map_map, ← Option.map_map,
      Attribute.eraseAll?_of_collapse_eq h hcollapse]
  -- the reader sees only the squeezed text, so equal words make equal declarations
  rw [ofText?, ofText?]
  cases hleft : Attribute.eraseAll? keywords first with
  | none =>
    rw [hleft, Option.map_none, eq_comm, Option.map_eq_none_iff] at herase
    rw [herase]
  | some left =>
    rw [hleft, Option.map_some, eq_comm, Option.map_eq_some_iff] at herase
    obtain ⟨left', hleft', hwords⟩ := herase
    rw [hleft', Option.bind_eq_bind, Option.bind_some, Option.bind_eq_bind, Option.bind_some,
      hwords]

end KernelCensus
