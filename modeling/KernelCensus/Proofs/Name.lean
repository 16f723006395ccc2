import KernelCensus.Name
import KernelCensus.Proofs.Text.Cut
import KernelCensus.Proofs.Text.Words

/-!
# Qualified names

A qualified name is a sequence of identifiers with `::` between each two and white space around the
`::`. The last name of a text is found as the longest end of it that is a qualified name; it is all
of a name that stands there, unless the text before it ends with `::`.

* `Qualified.isSpaced`, `exists_qualified_of_isSpaced`: what is recognised is a qualified name.
* `Qualified.isPlain_filter`: a qualified name without its white space.
* `trailing?_of_qualified`: a qualified name is found at the end of a text.
-/

namespace KernelCensus.Name

open Unicode Text

/-- An identifier. -/
def IsIdentifier (text : Text) : Prop :=
  ∃ c rest, text = c :: rest ∧ isStart c = true ∧ ∀ d ∈ rest, isPart d = true

/-- A qualified name, with white space around `::`. -/
inductive Qualified : Text → Prop
  | identifier {text : Text} (htext : IsIdentifier text) : Qualified text
  | qualified {first before after rest : Text} (hfirst : IsIdentifier first)
    (hbefore : ∀ c ∈ before, isWhiteSpace c = true) (hafter : ∀ c ∈ after, isWhiteSpace c = true)
    (hrest : Qualified rest) : Qualified (first ++ before ++ ':' :: ':' :: after ++ rest)

/-! ## Characters of names -/

lemma isPart_of_isStart {c : Char} (hc : isStart c = true) : isPart c = true := by
  rw [isStart, Bool.or_eq_true] at hc
  rw [isPart, Bool.or_eq_true, Char.isAlphanum, Bool.or_eq_true]
  rcases hc with halpha | hlow
  · exact Or.inl (Or.inl halpha)
  · exact Or.inr hlow

lemma not_isPart_of_blank {c : Char} (hc : isWhiteSpace c = true) : isPart c = false := by
  have hall : blanks.all (fun c => !isPart c) = true := by decide +kernel
  simpa using holds_of_blank hall hc

lemma letter_of_isPart {c : Char} (hc : isPart c = true) : ¬ isWhiteSpace c = true := by
  intro hblank
  rw [not_isPart_of_blank hblank] at hc
  cases hc

lemma ne_colon_of_isPart {c : Char} (hc : isPart c = true) : c ≠ ':' := by
  rintro rfl
  revert hc
  decide

lemma toNat_lt_of_isPart {c : Char} (hc : isPart c = true) : c.toNat < 128 := by
  have hranges : isPart c = ((decide (65 ≤ c.val ∧ c.val ≤ 90) ||
      decide (97 ≤ c.val) && decide (c.val ≤ 122) ||
      decide (48 ≤ c.val) && decide (c.val ≤ 57)) || c == '_') := rfl
  have hbelow {high : UInt32} (hle : c.val ≤ high) (hhigh : high < 128) : c.toNat < 128 :=
    UInt32.lt_iff_toNat_lt.mp (UInt32.lt_of_le_of_lt hle hhigh)
  rw [hranges] at hc
  simp only [Bool.or_eq_true, Bool.and_eq_true, decide_eq_true_eq, beq_iff_eq] at hc
  rcases hc with ((hupper | hlower) | hdigit) | rfl
  · exact hbelow hupper.2 (by decide)
  · exact hbelow hlower.2 (by decide)
  · exact hbelow hdigit.2 (by decide)
  · decide

/-- The ASCII characters. -/
def ascii : List Char := (List.range 128).map Char.ofNat

/-- What holds of the ASCII characters is checked on their list. -/
lemma holds_of_ascii {p : Char → Bool} (h : ascii.all p = true) {c : Char} (hc : c.toNat < 128) :
    p c = true := by
  apply List.all_eq_true.mp h c
  exact List.mem_map.mpr ⟨c.toNat, List.mem_range.mpr hc, Char.ofNat_toNat c⟩

lemma toLower_of_not_ascii {c : Char} (hc : ¬ c.toNat < 128) : c.toLower = c := by
  have hupper : ¬ (c.val ≥ 'A'.val ∧ c.val ≤ 'Z'.val) := by
    intro h
    have hle : c.val.toNat ≤ 90 := UInt32.le_iff_toNat_le.mp h.2
    exact hc (Nat.lt_of_le_of_lt hle (by decide))
  exact dif_neg hupper

lemma isPart_toLower (c : Char) : isPart c.toLower = isPart c := by
  by_cases hascii : c.toNat < 128
  · have hall : ascii.all (fun c => isPart c.toLower == isPart c) = true := by decide +kernel
    exact beq_iff_eq.mp (holds_of_ascii hall hascii)
  · rw [toLower_of_not_ascii hascii]

lemma isStart_toLower (c : Char) : isStart c.toLower = isStart c := by
  by_cases hascii : c.toNat < 128
  · have hall : ascii.all (fun c => isStart c.toLower == isStart c) = true := by decide +kernel
    exact beq_iff_eq.mp (holds_of_ascii hall hascii)
  · rw [toLower_of_not_ascii hascii]

lemma IsIdentifier.parts {text : Text} (h : IsIdentifier text) : ∀ c ∈ text, isPart c = true := by
  obtain ⟨c, rest, rfl, hc, hrest⟩ := h
  exact List.forall_mem_cons.mpr ⟨isPart_of_isStart hc, hrest⟩

instance (text : Text) : Decidable (IsIdentifier text) :=
  decidable_of_iff (text.head?.any isStart = true ∧ text.all isPart = true) <| by
  cases text with
  | nil =>
    constructor
    · rintro ⟨hc, -⟩
      cases hc
    · rintro ⟨c, rest, heq, -⟩
      cases heq
  | cons c rest =>
    constructor
    · rintro ⟨hc, hall⟩
      exact ⟨c, rest, rfl, hc, fun d hd => List.all_eq_true.mp hall d (List.mem_cons_of_mem c hd)⟩
    · intro h
      refine ⟨?_, List.all_eq_true.mpr h.parts⟩
      obtain ⟨d, tail, heq, hd, -⟩ := h
      obtain ⟨rfl, -⟩ := List.cons.inj heq
      exact hd

/-- A text that starts like an identifier starts with one that does not go on behind it. -/
lemma exists_identifier {c : Char} (hc : isStart c = true) (text : Text) :
    ∃ identifier rest, c :: text = identifier ++ rest ∧ IsIdentifier identifier ∧
      ∀ d ∈ rest.head?, isPart d = false := by
  refine ⟨c :: text.takeWhile isPart, text.dropWhile isPart, ?_, ?_, ?_⟩
  · rw [List.cons_append, List.takeWhile_append_dropWhile]
  · exact ⟨c, _, rfl, hc, List.all_eq_true.mp List.all_takeWhile⟩
  · exact fun d => not_of_mem_head?_dropWhile

lemma IsIdentifier.letters {text : Text} (h : IsIdentifier text) :
    ∀ c ∈ text, ¬ isWhiteSpace c = true := fun c hc => letter_of_isPart (h.parts c hc)

/-! ## Recognition -/

lemma completes_ahead_cons (c : Char) (rest : Text) :
    completes .ahead (c :: rest) =
      if isWhiteSpace c then completes .ahead rest else isStart c && completes .inside rest := by
  rw [completes]

/-- After an identifier, `::` leads to another one. -/
lemma completes_scope {place : Place} (hplace : place ≠ .ahead) (rest : Text) :
    completes place (':' :: ':' :: rest) = completes .ahead rest := by
  rw [completes]
  exact hplace

lemma completes_inside_cons {c : Char} {rest : Text} (h : c = ':' → rest.head? ≠ some ':') :
    completes .inside (c :: rest) =
      if isPart c then completes .inside rest else isWhiteSpace c && completes .past rest := by
  rw [completes]
  rintro tail rfl rfl
  exact h rfl rfl

lemma completes_past_cons {c : Char} {rest : Text} (h : c = ':' → rest.head? ≠ some ':') :
    completes .past (c :: rest) = (isWhiteSpace c && completes .past rest) := by
  rw [completes]
  rintro tail rfl rfl
  exact h rfl rfl

/-- Outside of white space ahead, a text that ends completes the name. -/
lemma completes_nil {place : Place} (hplace : place ≠ .ahead) : completes place [] = true := by
  rw [completes]
  exact hplace

lemma completes_parts {front : Text} (h : ∀ c ∈ front, isPart c = true) (back : Text) :
    completes .inside (front ++ back) = completes .inside back := by
  induction front with
  | nil => rfl
  | cons c front ih =>
    have hc := h c List.mem_cons_self
    rw [List.cons_append, completes_inside_cons fun hcolon => absurd hcolon (ne_colon_of_isPart hc),
      if_pos hc]
    exact ih fun d hd => h d (List.mem_cons_of_mem c hd)

lemma completes_ahead_blank {gap : Text} (h : ∀ c ∈ gap, isWhiteSpace c = true) (back : Text) :
    completes .ahead (gap ++ back) = completes .ahead back := by
  induction gap with
  | nil => rfl
  | cons c gap ih =>
    rw [List.cons_append, completes_ahead_cons, if_pos (h c List.mem_cons_self)]
    exact ih fun d hd => h d (List.mem_cons_of_mem c hd)

/-- White space before `::` is passed over. -/
lemma completes_before_scope {gap : Text} (h : ∀ c ∈ gap, isWhiteSpace c = true) (back : Text) :
    ∀ place ≠ Place.ahead,
      completes place (gap ++ ':' :: ':' :: back) = completes .ahead back := by
  induction gap with
  | nil => exact fun place hplace => completes_scope hplace back
  | cons c gap ih =>
    intro place hplace
    have hc := h c List.mem_cons_self
    have hgap := ih (fun d hd => h d (List.mem_cons_of_mem c hd)) .past (by decide)
    have hne : c ≠ ':' := by
      rintro rfl
      revert hc
      decide
    cases place with
    | inside =>
      rw [List.cons_append, completes_inside_cons fun hcolon => absurd hcolon hne,
        not_isPart_of_blank hc, if_neg Bool.false_ne_true, hc, Bool.true_and, hgap]
    | past =>
      rw [List.cons_append, completes_past_cons fun hcolon => absurd hcolon hne, hc,
        Bool.true_and, hgap]
    | ahead => exact absurd rfl hplace

/-- A qualified name starts with a letter and is read to its end. -/
lemma Qualified.exists_cons {name : Text} (h : Qualified name) :
    ∃ c rest, name = c :: rest ∧ isStart c = true ∧ completes .inside rest = true := by
  induction h with
  | identifier htext =>
    obtain ⟨c, rest, rfl, hc, hrest⟩ := htext
    refine ⟨c, rest, rfl, hc, ?_⟩
    rw [← List.append_nil rest, completes_parts hrest]
    exact completes_nil (by decide)
  | @qualified first before after tail hfirst hbefore hafter _ ih =>
    obtain ⟨c, rest, rfl, hc, hrest⟩ := hfirst
    obtain ⟨d, tail, rfl, hd, htail⟩ := ih
    have hletter : ¬ isWhiteSpace d = true := letter_of_isPart (isPart_of_isStart hd)
    refine ⟨c, rest ++ before ++ ':' :: ':' :: after ++ d :: tail, by simp, hc, ?_⟩
    have hsplit : rest ++ before ++ ':' :: ':' :: after ++ d :: tail =
        rest ++ (before ++ ':' :: ':' :: (after ++ d :: tail)) := by simp
    rw [hsplit, completes_parts hrest, completes_before_scope hbefore _ _ (by decide),
      completes_ahead_blank hafter, completes_ahead_cons, if_neg hletter, hd, htail]
    rfl

/-- Qualified names are recognised. -/
theorem Qualified.isSpaced {name : Text} (h : Qualified name) : isSpaced name = true := by
  obtain ⟨c, rest, rfl, hc, hrest⟩ := h.exists_cons
  rw [Name.isSpaced, hc, hrest]
  rfl

/-- A qualified name with white space behind it. -/
def IsTrailed (text : Text) : Prop :=
  ∃ name gap, text = name ++ gap ∧ Qualified name ∧ ∀ c ∈ gap, isWhiteSpace c = true

/-- What a text is the rest of, at a place in a qualified name: after an identifier, after an
identifier and white space, or ahead of one. -/
def Finishes : Place → Text → Prop
  | .inside, text => ∀ first, IsIdentifier first → IsTrailed (first ++ text)
  | .past, text => ∀ first before, IsIdentifier first → (∀ c ∈ before, isWhiteSpace c = true) →
      IsTrailed (first ++ before ++ text)
  | .ahead, text => ∃ gap back, text = gap ++ back ∧ (∀ c ∈ gap, isWhiteSpace c = true) ∧
      IsTrailed back

lemma isIdentifier_singleton {c : Char} (hc : isStart c = true) : IsIdentifier [c] :=
  ⟨c, [], rfl, hc, List.forall_mem_nil _⟩

lemma IsIdentifier.concat {text : Text} (h : IsIdentifier text) {c : Char} (hc : isPart c = true) :
    IsIdentifier (text ++ [c]) := by
  obtain ⟨d, rest, rfl, hd, hrest⟩ := h
  refine ⟨d, rest ++ [c], rfl, hd, ?_⟩
  exact List.forall_mem_append.mpr ⟨hrest, List.forall_mem_singleton.mpr hc⟩

lemma finishes_nil {place : Place} (hplace : place ≠ .ahead) : Finishes place [] := by
  cases place with
  | inside =>
    intro first hfirst
    exact ⟨first, [], rfl, .identifier hfirst, List.forall_mem_nil _⟩
  | past =>
    intro first before hfirst hbefore
    exact ⟨first, before, List.append_nil _, .identifier hfirst, hbefore⟩
  | ahead => exact absurd rfl hplace

/-- A name may go on with `::` after an identifier. -/
lemma finishes_scope {place : Place} (hplace : place ≠ .ahead) {rest : Text}
    (h : Finishes .ahead rest) : Finishes place (':' :: ':' :: rest) := by
  obtain ⟨after, back, rfl, hafter, name, gap, rfl, hname, hgap⟩ := h
  have hqualified {first before : Text} (hfirst : IsIdentifier first)
      (hbefore : ∀ c ∈ before, isWhiteSpace c = true) :
      IsTrailed (first ++ before ++ ':' :: ':' :: (after ++ (name ++ gap))) :=
    ⟨_, gap, by simp, .qualified hfirst hbefore hafter hname, hgap⟩
  cases place with
  | inside =>
    intro first hfirst
    have hname := hqualified hfirst (List.forall_mem_nil _)
    rw [List.append_nil] at hname
    exact hname
  | past => exact fun first before hfirst hbefore => hqualified hfirst hbefore
  | ahead => exact absurd rfl hplace

lemma finishes_of_completes {place : Place} {text : Text} (h : completes place text = true) :
    Finishes place text := by
  have hnot {c : Char} {rest : Text} (hpair : ∀ tail, c = ':' → rest = ':' :: tail → False) :
      c = ':' → rest.head? ≠ some ':' := by
    intro hcolon hhead
    obtain ⟨tail, htail⟩ := List.head?_eq_some_iff.mp hhead
    exact hpair tail hcolon htail
  induction place, text using completes.induct with
  | case1 => cases h
  | case2 c rest hc ih =>
    rw [completes_ahead_cons, if_pos hc] at h
    obtain ⟨gap, back, rfl, hgap, hback⟩ := ih h
    exact ⟨c :: gap, back, rfl, List.forall_mem_cons.mpr ⟨hc, hgap⟩, hback⟩
  | case3 c rest hc ih =>
    rw [completes_ahead_cons, if_neg hc, Bool.and_eq_true] at h
    have hname := ih h.2 [c] (isIdentifier_singleton h.1)
    exact ⟨[], c :: rest, rfl, List.forall_mem_nil _, hname⟩
  | case4 place hplace => exact finishes_nil hplace
  | case5 place rest hplace ih =>
    rw [completes_scope hplace] at h
    exact finishes_scope hplace (ih h)
  | case6 c rest hpair hc ih =>
    rw [completes_inside_cons (hnot hpair), if_pos hc] at h
    intro first hfirst
    have hname := ih h (first ++ [c]) (hfirst.concat hc)
    rw [List.append_assoc] at hname
    exact hname
  | case7 c rest hpair hc ih =>
    rw [completes_inside_cons (hnot hpair), if_neg hc, Bool.and_eq_true] at h
    intro first hfirst
    have hname := ih h.2 first [c] hfirst (List.forall_mem_singleton.mpr h.1)
    rw [List.append_assoc] at hname
    exact hname
  | case8 c rest hpair ih =>
    rw [completes_past_cons (hnot hpair), Bool.and_eq_true] at h
    intro first before hfirst hbefore
    have hgap := List.forall_mem_append.mpr ⟨hbefore, List.forall_mem_singleton.mpr h.1⟩
    have hname := ih h.2 first (before ++ [c]) hfirst hgap
    rw [← List.append_assoc, List.append_assoc] at hname
    exact hname

/-- What is recognised is a qualified name, with white space behind it. -/
theorem exists_qualified_of_isSpaced {text : Text} (h : isSpaced text = true) :
    ∃ name gap, text = name ++ gap ∧ Qualified name ∧ ∀ c ∈ gap, isWhiteSpace c = true := by
  cases text with
  | nil => cases h
  | cons c rest =>
    rw [Name.isSpaced, Bool.and_eq_true] at h
    exact finishes_of_completes h.2 [c] (isIdentifier_singleton h.1)

/-! ## Names without white space -/

/-- What may follow a character of an identifier in a qualified name without white space. -/
inductive Continues : Text → Prop
  | nil : Continues []
  | part {c : Char} {rest : Text} (hc : isPart c = true) (hrest : Continues rest) :
      Continues (c :: rest)
  /-- The first character of the next identifier, after `::`. -/
  | scope {c : Char} {rest : Text} (hc : isStart c = true) (hrest : Continues rest) :
      Continues (':' :: ':' :: c :: rest)

/-- A qualified name without white space. -/
def IsPlain (name : Text) : Prop :=
  ∃ c rest, name = c :: rest ∧ isStart c = true ∧ Continues rest

lemma Continues.append_parts {front back : Text} (hfront : ∀ c ∈ front, isPart c = true)
    (hback : Continues back) : Continues (front ++ back) := by
  induction front with
  | nil => exact hback
  | cons c front ih =>
    exact .part (hfront c List.mem_cons_self) (ih fun d hd => hfront d (List.mem_cons_of_mem c hd))

lemma IsPlain.letters {name : Text} (h : IsPlain name) : ∀ c ∈ name, ¬ isWhiteSpace c = true := by
  have hcolon : ¬ isWhiteSpace ':' = true := by decide
  have hrest {rest : Text} (h : Continues rest) : ∀ c ∈ rest, ¬ isWhiteSpace c = true := by
    induction h with
    | nil => exact List.forall_mem_nil _
    | part hc _ ih => exact List.forall_mem_cons.mpr ⟨letter_of_isPart hc, ih⟩
    | scope hc _ ih =>
      have hletter := letter_of_isPart (isPart_of_isStart hc)
      exact List.forall_mem_cons.mpr ⟨hcolon, List.forall_mem_cons.mpr
        ⟨hcolon, List.forall_mem_cons.mpr ⟨hletter, ih⟩⟩⟩
  obtain ⟨c, rest, rfl, hc, hcontinues⟩ := h
  exact List.forall_mem_cons.mpr ⟨letter_of_isPart (isPart_of_isStart hc), hrest hcontinues⟩

/-- What continues a plain name goes on with its identifier, and then with others behind `::`. -/
lemma Continues.exists_identifiers {rest : Text} (h : Continues rest) :
    ∃ (front : Text) (identifiers : List Text),
      rest = front ++ identifiers.flatMap ("::".toList ++ ·) ∧
      (∀ c ∈ front, isPart c = true) ∧ ∀ identifier ∈ identifiers, IsIdentifier identifier := by
  induction h with
  | nil => exact ⟨[], [], rfl, List.forall_mem_nil _, List.forall_mem_nil _⟩
  | @part c rest hc _ ih =>
    obtain ⟨front, identifiers, rfl, hfront, hidentifiers⟩ := ih
    exact ⟨c :: front, identifiers, rfl, List.forall_mem_cons.mpr ⟨hc, hfront⟩, hidentifiers⟩
  | @scope c rest hc _ ih =>
    obtain ⟨front, identifiers, rfl, hfront, hidentifiers⟩ := ih
    have hfirst : IsIdentifier (c :: front) := ⟨c, front, rfl, hc, hfront⟩
    exact ⟨[], (c :: front) :: identifiers, rfl, List.forall_mem_nil _,
      List.forall_mem_cons.mpr ⟨hfirst, hidentifiers⟩⟩

/-- A plain name is made of identifiers with `::` between each two. -/
theorem IsPlain.exists_identifiers {name : Text} (h : IsPlain name) :
    ∃ identifiers, identifiers ≠ [] ∧ (∀ identifier ∈ identifiers, IsIdentifier identifier) ∧
      name = joinWith "::" identifiers := by
  obtain ⟨c, rest, rfl, hc, hcontinues⟩ := h
  obtain ⟨front, identifiers, rfl, hfront, hidentifiers⟩ := hcontinues.exists_identifiers
  have hfirst : IsIdentifier (c :: front) := ⟨c, front, rfl, hc, hfront⟩
  refine ⟨(c :: front) :: identifiers, List.cons_ne_nil _ _,
    List.forall_mem_cons.mpr ⟨hfirst, hidentifiers⟩, ?_⟩
  rw [joinWith_cons]
  rfl

/-- Without its white space, a qualified name is a plain one. -/
theorem Qualified.isPlain_filter {name : Text} (h : Qualified name) :
    IsPlain (name.filter fun c => !isWhiteSpace c) := by
  induction h with
  | identifier htext =>
    rw [filter_of_letters htext.letters]
    obtain ⟨c, rest, rfl, hc, hrest⟩ := htext
    have hcontinues := Continues.append_parts hrest .nil
    rw [List.append_nil] at hcontinues
    exact ⟨c, rest, rfl, hc, hcontinues⟩
  | @qualified first before after rest hfirst hbefore hafter _ ih =>
    have hletters := hfirst.letters
    obtain ⟨c, tail, rfl, hc, htail⟩ := hfirst
    obtain ⟨d, back, hrest, hd, hback⟩ := ih
    have hfilter : (c :: tail ++ before ++ ':' :: ':' :: after ++ rest).filter
        (fun c => !isWhiteSpace c) = c :: (tail ++ ':' :: ':' :: d :: back) := by
      have hcolon : (':' :: ':' :: after).filter (fun c => !isWhiteSpace c) = [':', ':'] := by
        rw [List.filter_cons_of_pos (by decide), List.filter_cons_of_pos (by decide),
          filter_of_blank hafter]
      rw [List.filter_append, List.filter_append, List.filter_append, filter_of_letters hletters,
        filter_of_blank hbefore, hcolon, hrest]
      simp
    rw [hfilter]
    exact ⟨c, _, rfl, hc, .append_parts htail (.scope hd hback)⟩

/-! ## Layout -/

/-- A qualified name stays one when its gaps are collapsed. -/
theorem Qualified.collapse {name : Text} (h : Qualified name) : Qualified (collapse name) := by
  have hjoint {gap : Text} (hgap : IsJoint gap) : ∀ c ∈ gap, isWhiteSpace c = true := by
    rcases hgap with rfl | rfl
    · exact List.forall_mem_nil _
    · exact List.forall_mem_singleton.mpr isWhiteSpace_space
  have hcolon : ¬ isWhiteSpace ':' = true := by decide
  induction h with
  | identifier htext =>
    rw [collapse_of_letters htext.letters]
    exact .identifier htext
  | @qualified first before after rest hfirst hbefore hafter hrest ih =>
    obtain ⟨d, tail, rfl, hd, -⟩ := hrest.exists_cons
    have hletter : ¬ isWhiteSpace d = true := letter_of_isPart (isPart_of_isStart hd)
    obtain ⟨gap, hgap, hscope⟩ :=
      collapse_append_letter hcolon (first ++ before) (':' :: after ++ d :: tail)
    obtain ⟨gap', hgap', hback⟩ := collapse_append_letter hletter after tail
    have hfront : Text.collapse (first ++ before) = first := by
      rw [collapse_append_letters hfirst.letters, collapse_of_blank hbefore, List.append_nil]
    have hsplit : Text.collapse (first ++ before ++ ':' :: ':' :: after ++ d :: tail) =
        first ++ gap ++ ':' :: ':' :: gap' ++ Text.collapse (d :: tail) := by
      rw [List.append_assoc, List.cons_append, hscope, hfront, List.cons_append,
        collapse_cons_letter hcolon, hback, collapse_of_blank hafter,
        collapse_cons_letter hletter]
      simp
    rw [hsplit]
    exact .qualified hfirst (hjoint hgap) (hjoint hgap') ih

/-! ## Names at the end of a text -/

/-- Whether a text ends with `::`, white space aside. -/
def EndsScope (text : Text) : Prop :=
  ∃ before gap, text = before ++ ':' :: ':' :: gap ∧ ∀ c ∈ gap, isWhiteSpace c = true

lemma EndsScope.cons {text : Text} (h : EndsScope text) (c : Char) : EndsScope (c :: text) := by
  obtain ⟨before, gap, rfl, hgap⟩ := h
  exact ⟨c :: before, gap, rfl, hgap⟩

/-- What a character in a name can be: white space ahead, a character behind which no other
identifier is expected, or the first half of `::`. -/
lemma step_of_completes {place : Place} {c : Char} {rest : Text}
    (h : completes place (c :: rest) = true) :
    (place = .ahead ∧ isWhiteSpace c = true ∧ completes .ahead rest = true) ∨
      (∃ next ≠ Place.ahead, (isWhiteSpace c = true → next = .past) ∧
        completes next rest = true) ∨
      (c = ':' ∧ ∃ tail, rest = ':' :: tail ∧ completes .ahead tail = true) := by
  by_cases hahead : place = .ahead
  · rw [hahead, completes_ahead_cons] at h
    split at h
    · next hc => exact Or.inl ⟨hahead, hc, h⟩
    · next hc =>
      rw [Bool.and_eq_true] at h
      exact Or.inr (Or.inl ⟨.inside, by decide, fun hblank => absurd hblank hc, h.2⟩)
  · by_cases hscope : c = ':' ∧ rest.head? = some ':'
    · obtain ⟨rfl, hhead⟩ := hscope
      obtain ⟨tail, rfl⟩ := List.head?_eq_some_iff.mp hhead
      rw [completes_scope hahead] at h
      exact Or.inr (Or.inr ⟨rfl, tail, rfl, h⟩)
    · have hnot : c = ':' → rest.head? ≠ some ':' := fun hc hhead => hscope ⟨hc, hhead⟩
      cases place with
      | ahead => exact absurd rfl hahead
      | inside =>
        rw [completes_inside_cons hnot] at h
        split at h
        · next hc =>
          exact Or.inr (Or.inl ⟨.inside, by decide,
            fun hblank => absurd hblank (letter_of_isPart hc), h⟩)
        · rw [Bool.and_eq_true] at h
          exact Or.inr (Or.inl ⟨.past, by decide, fun _ => rfl, h.2⟩)
      | past =>
        rw [completes_past_cons hnot, Bool.and_eq_true] at h
        exact Or.inr (Or.inl ⟨.past, by decide, fun _ => rfl, h.2⟩)

/-- A text that reads on into a name after a space ends with `::`, or is white space ahead of the
name. -/
private lemma scope_of_completes {c : Char} (hc : isStart c = true) (back : Text) (front : Text) :
    ∀ place, completes place (front ++ ' ' :: c :: back) = true →
      (place = .ahead ∧ ∀ d ∈ front, isWhiteSpace d = true) ∨ EndsScope front := by
  have hletter : ¬ isWhiteSpace c = true := letter_of_isPart (isPart_of_isStart hc)
  have hcolon : c ≠ ':' := ne_colon_of_isPart (isPart_of_isStart hc)
  have hpast : completes .past (c :: back) = false := by
    rw [completes_past_cons fun h => absurd h hcolon, Bool.eq_false_iff.mpr hletter, Bool.false_and]
  -- `::` takes two characters, so the induction is on the length
  induction hlength : front.length using Nat.strongRecOn generalizing front with
  | _ n ih =>
    intro place h
    cases front with
    | nil =>
      rcases step_of_completes h with ⟨hahead, -⟩ | ⟨next, -, hblank, hrest⟩ | ⟨hspace, -⟩
      · exact Or.inl ⟨hahead, List.forall_mem_nil _⟩
      · rw [hblank isWhiteSpace_space, hpast] at hrest
        cases hrest
      · exact absurd hspace (by decide)
    | cons d rest =>
      rw [List.length_cons] at hlength
      have hlater := ih rest.length (by omega) rest rfl
      rcases step_of_completes h with ⟨hahead, hd, hrest⟩ | ⟨next, hnext, -, hrest⟩ |
        ⟨hd, tail, htail, hrest⟩
      · rcases hlater .ahead hrest with ⟨-, hblank⟩ | hscope
        · exact Or.inl ⟨hahead, List.forall_mem_cons.mpr ⟨hd, hblank⟩⟩
        · exact Or.inr (hscope.cons d)
      · rcases hlater next hrest with ⟨hahead, -⟩ | hscope
        · exact absurd hahead hnext
        · exact Or.inr (hscope.cons d)
      · cases rest with
        | nil => cases htail
        | cons e rest =>
          rw [List.length_cons] at hlength
          cases htail
          rcases ih rest.length (by omega) rest rfl .ahead hrest with ⟨-, hblank⟩ | hscope
          · exact Or.inr ⟨[], rest, by rw [hd]; rfl, hblank⟩
          · exact Or.inr ((hscope.cons ':').cons d)

/-- What is found at the end of a text is recognised as a name. -/
lemma isSpaced_of_trailing? {text before name : Text} (h : trailing? text = some (before, name)) :
    isSpaced name = true := by
  induction text generalizing before with
  | nil => cases h
  | cons c text ih =>
    rw [trailing?] at h
    split at h
    · next hspaced =>
      cases h
      exact hspaced
    · obtain ⟨⟨front, back⟩, hrest, heq⟩ := Option.map_eq_some_iff.mp h
      cases heq
      exact ih hrest

/-- What is found at the end of a text is what is left behind the text before it. -/
lemma eq_append_of_trailing? {text before name : Text} (h : trailing? text = some (before, name)) :
    text = before ++ name := by
  induction text generalizing before with
  | nil => cases h
  | cons c text ih =>
    rw [trailing?] at h
    split at h
    · cases h
      rfl
    · obtain ⟨⟨front, back⟩, hrest, heq⟩ := Option.map_eq_some_iff.mp h
      cases heq
      rw [ih hrest]
      rfl

/-- A name goes on to the front with the start of an identifier. -/
lemma isSpaced_cons {c : Char} (hc : isStart c = true) {name : Text} (h : isSpaced name = true) :
    isSpaced (c :: name) = true := by
  cases name with
  | nil => cases h
  | cons d rest =>
    rw [isSpaced, Bool.and_eq_true] at h
    have hpart := isPart_of_isStart h.1
    rw [isSpaced, hc, Bool.true_and,
      completes_inside_cons fun hcolon => absurd hcolon (ne_colon_of_isPart hpart), if_pos hpart]
    exact h.2

/-- The name at the end of a text is not the end of a longer one, so it does not stand right behind
the start of an identifier. -/
theorem not_isStart_of_trailing? {text before name : Text}
    (h : trailing? text = some (before, name)) : ∀ c ∈ before.getLast?, isStart c = false := by
  induction text generalizing before with
  | nil => cases h
  | cons d text ih =>
    have hname := isSpaced_of_trailing? h
    rw [trailing?] at h
    split at h
    · cases h
      exact nofun
    · next hlonger =>
      obtain ⟨⟨front, back⟩, hrest, heq⟩ := Option.map_eq_some_iff.mp h
      cases heq
      intro c hc
      cases front with
      | nil =>
        cases hc
        rw [eq_append_of_trailing? hrest] at hlonger
        exact Bool.eq_false_iff.mpr fun hstart => hlonger (isSpaced_cons hstart hname)
      | cons e front =>
        rw [List.getLast?_cons_cons] at hc
        exact ih hrest c hc

/-- The last name is found where no longer end of the text is one. -/
lemma trailing?_append {front name : Text} (hname : isSpaced name = true)
    (hlonger : ∀ before after, front = before ++ after → after ≠ [] →
      isSpaced (after ++ name) = false) : trailing? (front ++ name) = some (front, name) := by
  induction front with
  | nil =>
    cases name with
    | nil => cases hname
    | cons c name => rw [List.nil_append, trailing?, if_pos hname]
  | cons d front ih =>
    have hhere := hlonger [] (d :: front) rfl (List.cons_ne_nil d front)
    have hrest := ih fun before after heq hne => hlonger (d :: before) after (by rw [heq]; rfl) hne
    rw [List.cons_append] at hhere ⊢
    rw [trailing?, hhere, if_neg Bool.false_ne_true, hrest]
    rfl

/-- The last name of a text is a qualified name that stands there after a space, if the text before
it does not end with `::`. -/
theorem trailing?_of_qualified {front name : Text} (hname : Qualified name)
    (hlast : ∀ c ∈ front.getLast?, ¬ isWhiteSpace c = true) (hscope : ¬ [':', ':'] <:+ front) :
    trailing? (front ++ ' ' :: name) = some (front ++ [' '], name) := by
  have hsplit : front ++ ' ' :: name = front ++ [' '] ++ name := by simp
  rw [hsplit]
  refine trailing?_append hname.isSpaced fun before after heq hne => ?_
  obtain ⟨c, back, rfl, hc, -⟩ := hname.exists_cons
  obtain ⟨middle, last, rfl⟩ := List.eq_nil_or_concat after |>.resolve_left hne
  rw [List.concat_eq_append, ← List.append_assoc] at heq
  obtain ⟨rfl, hspace⟩ := List.append_inj' heq rfl
  rw [List.concat_eq_append, ← hspace, List.append_assoc, List.singleton_append]
  -- a longer end of the text starts before the space; one that starts with it is no name
  cases middle with
  | nil => rfl
  | cons d middle =>
    rw [List.cons_append, isSpaced, Bool.eq_false_iff]
    intro h
    rw [Bool.and_eq_true] at h
    rcases scope_of_completes hc back middle .inside h.2 with ⟨hahead, -⟩ | ⟨start, gap, rfl, hgap⟩
    · cases hahead
    · have hsplit : before ++ d :: (start ++ ':' :: ':' :: gap) =
          before ++ d :: start ++ [':', ':'] ++ gap := by simp
      rw [hsplit] at hlast hscope
      -- white space after `::` would be at the end of the text before the name
      cases hcase : gap.getLast? with
      | none =>
        rw [List.getLast?_eq_none_iff.mp hcase, List.append_nil] at hscope
        exact hscope (List.suffix_append _ _)
      | some e =>
        refine hlast e ?_ (hgap e (List.mem_of_getLast? hcase))
        rw [List.getLast?_append, hcase]
        rfl

end KernelCensus.Name
