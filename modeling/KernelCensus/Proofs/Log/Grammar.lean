import Mathlib.Data.Nat.Find
import KernelCensus.Markers
import KernelCensus.Proofs.Log.Context

/-!
# The grammar of context lines

A line names a kernel at a place where the label starts a word, with the sign of a form and the start
of an identifier behind it. The leftmost place with a colon counts; if there is none, the leftmost
with an equals sign does. The kernel is the longest qualified name there. Characters are compared and
classified by their simple case folding.

* `leading?_eq_some_iff`: the longest name.
* `nameIn?_of_announces`, `nameIn?_eq_none`: the leftmost place of a form.
* `context?_grammar`: both forms.
-/

namespace KernelCensus.Log

open Unicode Text Name

/-! ## Case -/

/-- A character that belongs to a class in some case. -/
def InSomeCase (p : Char → Bool) (c : Char) : Prop := ∃ d, p d = true ∧ foldCase d = foldCase c

/-- No code point past ASCII is that of a character of an identifier. -/
lemma not_isPart_ofNat {code : Nat} (h : 128 ≤ code) : isPart (Char.ofNat code) = false := by
  rw [Bool.eq_false_iff]
  intro hpart
  have hlt := toNat_lt_of_isPart hpart
  by_cases hvalid : code.isValidChar
  · have hcode : (Char.ofNat code).toNat = code := by
      rw [Char.ofNat, dif_pos hvalid]
      rfl
    omega
  · rw [Char.ofNat, dif_neg hvalid] at hpart
    cases hpart

/-- The only characters past ASCII that are in names are the long s and the Kelvin sign. -/
lemma eq_of_isNamePart {c : Char} (hc : isNamePart c = true) (hascii : ¬ c.toNat < 128) :
    c = '\u017f' ∨ c = '\u212a' := by
  rw [isNamePart, foldCase, if_neg hascii, foldCode] at hc
  split at hc
  · next run hrun =>
    have hruns : foldRuns.all (fun run => decide (run.last < 128) ||
        decide (128 ≤ run.first + run.shift) || run == ⟨0x17F, 0x17F, 1, -268⟩ ||
        run == ⟨0x212A, 0x212A, 1, -8383⟩) = true := by decide +kernel
    have hkind := List.all_eq_true.mp hruns run (List.mem_of_find?_eq_some hrun)
    have hholds := List.find?_some hrun
    simp only [FoldRun.holds, Bool.and_eq_true, decide_eq_true_eq] at hholds
    simp only [Bool.or_eq_true, decide_eq_true_eq, beq_iff_eq] at hkind
    rcases hkind with ((hlow | hhigh) | rfl) | rfl
    · omega
    · rw [not_isPart_ofNat (by omega)] at hc
      cases hc
    · left
      apply Char.toNat_inj.mp
      show c.toNat = 0x17F
      dsimp only at hholds
      omega
    · right
      apply Char.toNat_inj.mp
      show c.toNat = 0x212A
      dsimp only at hholds
      omega
  · rw [not_isPart_ofNat (by omega)] at hc
    cases hc

/-- The characters of names are those of identifiers in some case. -/
lemma isNamePart_iff {c : Char} : isNamePart c = true ↔ InSomeCase isPart c := by
  constructor
  · intro hc
    by_cases hascii : c.toNat < 128
    · rw [isNamePart, foldCase, if_pos hascii, isPart_toLower] at hc
      exact ⟨c, hc, rfl⟩
    · rcases eq_of_isNamePart hc hascii with rfl | rfl
      · exact ⟨'s', by decide, by decide +kernel⟩
      · exact ⟨'k', by decide, by decide +kernel⟩
  · intro h
    obtain ⟨d, hd, heq⟩ := h
    have hpart := isNamePart_of_isPart hd
    rw [isNamePart, heq] at hpart
    exact hpart

/-- A name starts with the characters that start an identifier in some case. -/
lemma isNameStart_iff {c : Char} : isNameStart c = true ↔ InSomeCase isStart c := by
  constructor
  · intro hc
    by_cases hascii : c.toNat < 128
    · rw [isNameStart, foldCase, if_pos hascii, isStart_toLower] at hc
      exact ⟨c, hc, rfl⟩
    · rcases eq_of_isNamePart (isPart_of_isStart hc) hascii with rfl | rfl
      · exact ⟨'s', by decide, by decide +kernel⟩
      · exact ⟨'k', by decide, by decide +kernel⟩
  · intro h
    obtain ⟨d, hd, heq⟩ := h
    have hstart := isNameStart_of_isStart hd
    rw [isNameStart, heq] at hstart
    exact hstart

lemma ne_colon_of_isNamePart {c : Char} (hc : isNamePart c = true) : c ≠ ':' := by
  intro heq
  rw [heq] at hc
  exact absurd hc (by decide)

/-- A character that starts a name is no white space. -/
lemma letter_of_isNameStart {c : Char} (hc : isNameStart c = true) : ¬ isWhiteSpace c = true := by
  intro hblank
  have hpart : isNamePart c = true := isPart_of_isStart hc
  rw [not_isNamePart_of_blank hblank] at hpart
  cases hpart

/-! ## Names -/

/-- An identifier, in some case. -/
def IsLogIdentifier (text : Text) : Prop :=
  ∃ c rest, text = c :: rest ∧ InSomeCase isStart c ∧ ∀ d ∈ rest, InSomeCase isPart d

/-- Identifiers with `::` between each two, in some case. -/
inductive IsLogName : Text → Prop
  | identifier {text : Text} (htext : IsLogIdentifier text) : IsLogName text
  | qualified {first rest : Text} (hfirst : IsLogIdentifier first) (hrest : IsLogName rest) :
    IsLogName (first ++ ':' :: ':' :: rest)

/-- The name is the longest one that the text starts with. -/
def IsLongestName (text name : Text) : Prop :=
  IsLogName name ∧ name <+: text ∧
    ∀ other, IsLogName other → other <+: text → other.length ≤ name.length

lemma IsLogIdentifier.append {text more : Text} (h : IsLogIdentifier text)
    (hmore : ∀ c ∈ more, isNamePart c = true) : IsLogIdentifier (text ++ more) := by
  obtain ⟨c, rest, rfl, hc, hrest⟩ := h
  refine ⟨c, rest ++ more, rfl, hc, ?_⟩
  intro d hd
  rcases List.mem_append.mp hd with hfront | hback
  · exact hrest d hfront
  · exact isNamePart_iff.mp (hmore d hback)

/-- A single character that starts a name is an identifier. -/
lemma isLogIdentifier_single {c : Char} (hc : isNameStart c = true) : IsLogIdentifier [c] :=
  ⟨c, [], rfl, isNameStart_iff.mp hc, List.forall_mem_nil _⟩

/-- What is read on behind an identifier makes a name with it. -/
lemma isLogName_continuation {first : Text} (hfirst : IsLogIdentifier first) (text : Text) :
    IsLogName (first ++ continuation isNameStart isNamePart text) := by
  -- behind `::` the next identifier begins with a single character, within one the first grows
  fun_induction continuation isNameStart isNamePart text generalizing first with
  | case1 c rest hc ih => exact .qualified hfirst (ih (isLogIdentifier_single hc))
  | case2 c rest hc =>
    rw [List.append_nil]
    exact .identifier hfirst
  | case3 c rest hnot hc ih =>
    have hmore := hfirst.append (List.forall_mem_singleton.mpr hc)
    rw [List.append_cons]
    exact ih hmore
  | case4 c rest hnot hc =>
    rw [List.append_nil]
    exact .identifier hfirst
  | case5 =>
    rw [List.append_nil]
    exact .identifier hfirst

lemma continuation_append_parts {front : Text} (h : ∀ c ∈ front, isNamePart c = true)
    (back : Text) : continuation isNameStart isNamePart (front ++ back) =
      front ++ continuation isNameStart isNamePart back := by
  induction front with
  | nil => rfl
  | cons c front ih =>
    obtain ⟨hc, hfront⟩ := List.forall_mem_cons.mp h
    rw [List.cons_append, continuation]
    · rw [if_pos hc, ih hfront]
      rfl
    · intro d tail heq
      exact fun _ => ne_colon_of_isNamePart hc heq

/-- A name is read on behind `::`. -/
lemma continuation_scope {text name : Text}
    (h : leading? isNameStart isNamePart text = some name) :
    continuation isNameStart isNamePart (':' :: ':' :: text) = ':' :: ':' :: name := by
  cases text with
  | nil => cases h
  | cons c rest =>
    rw [leading?] at h
    split at h
    · next hc =>
      rw [continuation, if_pos hc, Option.some.inj h]
    · cases h

/-- Where a name stands, it is read, and maybe more. -/
lemma leading?_append {name : Text} (h : IsLogName name) (back : Text) :
    ∃ more, leading? isNameStart isNamePart (name ++ back) = some (name ++ more) := by
  induction h with
  | identifier htext =>
    obtain ⟨c, rest, rfl, hc, hrest⟩ := htext
    have hparts : ∀ d ∈ rest, isNamePart d = true := fun d hd => isNamePart_iff.mpr (hrest d hd)
    refine ⟨continuation isNameStart isNamePart back, ?_⟩
    rw [List.cons_append, leading?, if_pos (isNameStart_iff.mpr hc),
      continuation_append_parts hparts]
    rfl
  | @qualified first rest hfirst hrest ih =>
    obtain ⟨more, hmore⟩ := ih
    obtain ⟨c, word, rfl, hc, hword⟩ := hfirst
    have hparts : ∀ d ∈ word, isNamePart d = true := fun d hd => isNamePart_iff.mpr (hword d hd)
    refine ⟨more, ?_⟩
    rw [List.append_assoc, List.cons_append, leading?, if_pos (isNameStart_iff.mpr hc),
      continuation_append_parts hparts, List.cons_append, List.cons_append,
      continuation_scope hmore]
    simp

/-- What is read is the longest name that stands there. -/
theorem leading?_eq_some_iff {text name : Text} :
    leading? isNameStart isNamePart text = some name ↔ IsLongestName text name := by
  have hreads {text name : Text} (h : leading? isNameStart isNamePart text = some name) :
      IsLogName name ∧ name <+: text := by
    cases text with
    | nil => cases h
    | cons c rest =>
      rw [leading?] at h
      split at h
      · next hc =>
        obtain rfl := Option.some.inj h
        obtain ⟨after, hafter⟩ := continuation_isPrefix rest
        constructor
        · exact isLogName_continuation (isLogIdentifier_single hc) rest
        · exact ⟨after, by rw [List.cons_append, hafter]⟩
      · cases h
  constructor
  · intro h
    obtain ⟨hname, hprefix⟩ := hreads h
    refine ⟨hname, hprefix, ?_⟩
    intro other hother hstands
    obtain ⟨back, rfl⟩ := hstands
    obtain ⟨more, hmore⟩ := leading?_append hother back
    rw [hmore, Option.some.injEq] at h
    rw [← h, List.length_append]
    omega
  · intro h
    obtain ⟨hname, ⟨back, rfl⟩, hlongest⟩ := h
    obtain ⟨more, hmore⟩ := leading?_append hname back
    obtain ⟨hother, hprefix⟩ := hreads hmore
    have hlength := hlongest _ hother hprefix
    rw [List.length_append] at hlength
    have hnil : more = [] := List.length_eq_zero_iff.mp (by omega)
    rw [hmore, hnil, List.append_nil]

/-! ## Places -/

/-- What may stand before the name, behind the white space. -/
def ContextForm.quotes : ContextForm → List Text
  | colon => [[]]
  | assignment => [[], ['"'], ['\'']]

/-- A text starts with the label in the given form, and `rest` is what starts with the name. -/
def StartsContext (form : ContextForm) (label text rest : Text) : Prop :=
  ∃ written gap space quote, text = written ++ (gap ++ form.sign :: (space ++ (quote ++ rest))) ∧
    written.map foldCase = label.map foldCase ∧ (∀ c ∈ gap, isWhiteSpace c = true) ∧
    (∀ c ∈ space, isWhiteSpace c = true) ∧ quote ∈ form.quotes ∧
    ∃ c ∈ rest.head?, InSomeCase isStart c

/-- In a text that follows `previous`, the label in the given form starts a word behind `before`, and
`rest` is what starts with the name. -/
def Announces (form : ContextForm) (label : Text) (previous : Option Char)
    (text before rest : Text) : Prop :=
  ∃ after, text = before ++ after ∧
    (∀ c ∈ before.getLast?.or previous, ¬ InSomeCase isPart c) ∧ StartsContext form label after rest

section
variable {form : ContextForm} {label : Text}

lemma unquote_append {quote rest : Text} (hquote : quote ∈ form.quotes)
    (hrest : ∃ c ∈ rest.head?, InSomeCase isStart c) : form.unquote (quote ++ rest) = rest := by
  obtain ⟨c, hhead, hstart⟩ := hrest
  obtain ⟨tail, rfl⟩ := List.head?_eq_some_iff.mp hhead
  have hc := isNameStart_iff.mpr hstart
  have hplain : form.unquote (c :: tail) = c :: tail := by
    rw [ContextForm.unquote]
    · intro tail' _ heq
      rw [(List.cons.inj heq).1] at hc
      exact absurd hc (by decide)
    · intro tail' _ heq
      rw [(List.cons.inj heq).1] at hc
      exact absurd hc (by decide)
  cases form with
  | colon =>
    rw [List.mem_singleton.mp hquote]
    exact hplain
  | assignment =>
    simp only [ContextForm.quotes, List.mem_cons, List.not_mem_nil, or_false] at hquote
    rcases hquote with rfl | rfl | rfl
    · exact hplain
    · rfl
    · rfl

/-- What stands before a name is white space and maybe a quote. -/
lemma exists_quote (form : ContextForm) (text : Text) :
    ∃ quote ∈ form.quotes, text = quote ++ form.unquote text := by
  unfold ContextForm.unquote
  split
  · exact ⟨['"'], by decide, rfl⟩
  · exact ⟨['\''], by decide, rfl⟩
  · refine ⟨[], ?_, rfl⟩
    cases form <;> decide

lemma nameAfterLabel?_of_startsContext {text rest : Text} (h : StartsContext form label text rest) :
    nameAfterLabel? form label text = leading? isNameStart isNamePart rest := by
  obtain ⟨written, gap, space, quote, rfl, hwritten, hgap, hspace, hquote, hrest⟩ := h
  have hsign : ¬ isWhiteSpace form.sign = true := by cases form <;> decide
  have hafter : afterLabel? label (written ++ (gap ++ form.sign :: (space ++ (quote ++ rest)))) =
      some (gap ++ form.sign :: (space ++ (quote ++ rest))) :=
    afterLabel?_eq_some_iff.mpr ⟨written, rfl, hwritten⟩
  have hletter : trimStart (quote ++ rest) = quote ++ rest := by
    obtain ⟨c, hhead, hstart⟩ := hrest
    obtain ⟨tail, rfl⟩ := List.head?_eq_some_iff.mp hhead
    have hc := letter_of_isNameStart (isNameStart_iff.mpr hstart)
    cases quote with
    | nil => exact trimStart_cons_letter hc tail
    | cons q quote =>
      apply trimStart_cons_letter
      have hall : (form.quotes.all fun quote => quote.all (!isWhiteSpace ·)) = true := by
        cases form <;> rfl
      have hquotes := List.all_eq_true.mp hall _ hquote
      simpa using List.all_eq_true.mp hquotes q List.mem_cons_self
  rw [nameAfterLabel?, hafter]
  dsimp only
  rw [trimStart_append_blank hgap, trimStart_cons_letter hsign]
  dsimp only
  rw [if_pos rfl, trimStart_append_blank hspace, hletter, unquote_append hquote hrest]

/-- A name is read only where the text says so. -/
lemma startsContext_of_nameAfterLabel? {text name : Text}
    (h : nameAfterLabel? form label text = some name) :
    ∃ rest, StartsContext form label text rest := by
  unfold nameAfterLabel? at h
  split at h
  · cases h
  · next behind hafter =>
    obtain ⟨written, rfl, hwritten⟩ := afterLabel?_eq_some_iff.mp hafter
    obtain ⟨gap, hbehind, hgap⟩ := exists_eq_append_trimStart behind
    split at h
    · cases h
    · next c tail htrim =>
      obtain ⟨space, htail, hspace⟩ := exists_eq_append_trimStart tail
      obtain ⟨quote, hquote, hunquote⟩ := exists_quote form (trimStart tail)
      split at h
      · next hsign =>
        refine ⟨form.unquote (trimStart tail), written, gap, space, quote, ?_, hwritten, hgap,
          hspace, hquote, ?_⟩
        · rw [← hunquote, ← htail, ← hsign, ← htrim, ← hbehind]
        · cases hrest : form.unquote (trimStart tail) with
          | nil =>
            rw [hrest] at h
            cases h
          | cons d rest =>
            rw [hrest, leading?] at h
            split at h
            · next hd => exact ⟨d, rfl, isNameStart_iff.mp hd⟩
            · cases h
      · cases h

/-- A place behind a character is one in the text behind it. -/
lemma announces_cons {previous : Option Char} {c : Char} {text before rest : Text} :
    Announces form label previous (c :: text) (c :: before) rest ↔
      Announces form label (some c) text before rest := by
  unfold Announces
  simp only [List.cons_append, List.cons.injEq, true_and, getLast?_cons_or]

/-- The text before a place is the start of the text. -/
lemma Announces.isPrefix {previous : Option Char} {text before rest : Text}
    (h : Announces form label previous text before rest) : before <+: text := by
  obtain ⟨after, htext, -⟩ := h
  exact ⟨after, htext.symm⟩

/-- What starts with the label in a form is not empty. -/
lemma StartsContext.ne_nil {text rest : Text} (h : StartsContext form label text rest) :
    text ≠ [] := by
  obtain ⟨written, gap, space, quote, rfl, -⟩ := h
  simp

lemma StartsContext.exists_name {text rest : Text} (h : StartsContext form label text rest) :
    ∃ name, leading? isNameStart isNamePart rest = some name := by
  obtain ⟨_, _, _, _, _, _, _, _, _, c, hhead, hc⟩ := h
  obtain ⟨tail, rfl⟩ := List.head?_eq_some_iff.mp hhead
  exact ⟨_, if_pos (isNameStart_iff.mpr hc)⟩

lemma Announces.exists_name {previous : Option Char} {text before rest : Text}
    (h : Announces form label previous text before rest) :
    ∃ name, leading? isNameStart isNamePart rest = some name := by
  obtain ⟨_, _, _, hstarts⟩ := h
  exact hstarts.exists_name

/-- Where no place is, the search goes on behind the next character. -/
lemma nameIn?_cons {previous : Option Char} {c : Char} {text : Text}
    (h : ∀ rest, ¬ Announces form label previous (c :: text) [] rest) :
    nameIn? form label previous (c :: text) = nameIn? form label (some c) text := by
  rw [nameIn?]
  by_cases hword : previous.any isNamePart = true
  · rw [if_pos hword]
  · rw [if_neg hword]
    cases hname : nameAfterLabel? form label (c :: text) with
    | none => rfl
    | some name =>
      obtain ⟨rest, hstarts⟩ := startsContext_of_nameAfterLabel? hname
      have hstart : ∀ d ∈ [].getLast?.or previous, ¬ InSomeCase isPart d := by
        intro d hd hpart
        have hprevious : previous = some d := hd
        apply hword
        rw [hprevious]
        exact isNamePart_iff.mpr hpart
      exact absurd ⟨_, rfl, hstart, hstarts⟩ (h rest)

lemma nameIn?_eq_none {previous : Option Char} {text : Text}
    (h : ∀ before rest, ¬ Announces form label previous text before rest) :
    nameIn? form label previous text = none := by
  induction text generalizing previous with
  | nil => rfl
  | cons c text ih =>
    rw [nameIn?_cons (h [])]
    apply ih
    intro before rest hlater
    exact h (c :: before) rest (announces_cons.mpr hlater)

/-- At the first place, the name is read that starts there. -/
lemma nameIn?_of_announces {previous : Option Char} {text before rest : Text}
    (h : Announces form label previous text before rest)
    (hfirst : ∀ before' rest', Announces form label previous text before' rest' →
      before.length ≤ before'.length) :
    nameIn? form label previous text = leading? isNameStart isNamePart rest := by
  induction before generalizing previous text with
  | nil =>
    obtain ⟨after, rfl, hword, hstarts⟩ := h
    have hname := nameAfterLabel?_of_startsContext hstarts
    obtain ⟨name, hread⟩ := hstarts.exists_name
    obtain ⟨c, tail, rfl⟩ := List.exists_cons_of_ne_nil hstarts.ne_nil
    have hplace : ¬ previous.any isNamePart = true := by
      intro hinside
      obtain ⟨d, rfl, hd⟩ := (Option.any_eq_true ..).mp hinside
      exact hword d rfl (isNamePart_iff.mp hd)
    rw [hread] at hname
    rw [nameIn?, if_neg hplace, hname, hread]
  | cons c before ih =>
    obtain ⟨tail, htail⟩ := h.isPrefix
    subst htail
    have hlater := announces_cons.mp h
    rw [List.cons_append, nameIn?_cons]
    · apply ih hlater
      intro before' rest' hother
      have hle := hfirst (c :: before') rest' (announces_cons.mpr hother)
      simpa using hle
    · intro rest' hhere
      have hle := hfirst [] rest' hhere
      simp at hle

end

/-! ## The kernel of a line -/

/-- A line names a kernel in the given form: at the leftmost place of the label in that form, the
kernel is the longest name. -/
def NamesKernel (form : ContextForm) (label line kernel : Text) : Prop :=
  ∃ before rest, Announces form label none line before rest ∧
    (∀ before' rest', Announces form label none line before' rest' →
      before.length ≤ before'.length) ∧
    IsLongestName rest kernel

section
variable {form : ContextForm} {label line : Text}

/-- If there is a place, there is a first one. -/
lemma exists_first_announces {previous : Option Char} {text : Text}
    (h : ∃ before rest, Announces form label previous text before rest) :
    ∃ before rest, Announces form label previous text before rest ∧
      ∀ before' rest', Announces form label previous text before' rest' →
        before.length ≤ before'.length := by
  classical
  -- the least length of a text before a place
  have hlengths : ∃ n before rest, Announces form label previous text before rest ∧
      before.length = n := by
    obtain ⟨before, rest, hplace⟩ := h
    exact ⟨_, before, rest, hplace, rfl⟩
  obtain ⟨before, rest, hplace, hlength⟩ := Nat.find_spec hlengths
  refine ⟨before, rest, hplace, ?_⟩
  intro before' rest' hother
  rw [hlength]
  exact Nat.find_min' hlengths ⟨before', rest', hother, rfl⟩

/-- In either form, the kernel is read that the line names. -/
lemma nameIn?_eq_some_iff {kernel : Text} :
    nameIn? form label none line = some kernel ↔ NamesKernel form label line kernel := by
  constructor
  · intro h
    by_cases hplaces : ∃ before rest, Announces form label none line before rest
    · obtain ⟨before, rest, hplace, hfirst⟩ := exists_first_announces hplaces
      rw [nameIn?_of_announces hplace hfirst] at h
      exact ⟨before, rest, hplace, hfirst, leading?_eq_some_iff.mp h⟩
    · rw [nameIn?_eq_none fun before rest hplace => hplaces ⟨before, rest, hplace⟩] at h
      cases h
  · intro h
    obtain ⟨before, rest, hplace, hfirst, hlongest⟩ := h
    rw [nameIn?_of_announces hplace hfirst]
    exact leading?_eq_some_iff.mpr hlongest

/-- In either form, no kernel is read just if the line has no place for one. -/
lemma nameIn?_eq_none_iff :
    nameIn? form label none line = none ↔
      ∀ before rest, ¬ Announces form label none line before rest := by
  constructor
  · intro h before rest hplace
    obtain ⟨before', rest', hother, hfirst⟩ := exists_first_announces ⟨before, rest, hplace⟩
    obtain ⟨name, hname⟩ := hother.exists_name
    rw [nameIn?_of_announces hother hfirst, hname] at h
    cases h
  · exact nameIn?_eq_none

end

/-- The grammar of context lines. A line names the kernel of its leftmost place with a colon, and if
it has no such place, the kernel of its leftmost place with an equals sign. It names none just if it
has no place at all, so in particular if each label in it is the end of a longer word. -/
theorem context?_grammar (kernelLabel line : Text) :
    let label := trim kernelLabel
    (∀ kernel, context? kernelLabel line = some kernel ↔
      NamesKernel .colon label line kernel ∨
        ((∀ before rest, ¬ Announces .colon label none line before rest) ∧
          NamesKernel .assignment label line kernel)) ∧
    (context? kernelLabel line = none ↔
      ∀ form before rest, ¬ Announces form label none line before rest) ∧
    ((∀ before written after, line = before ++ (written ++ after) →
        written.map foldCase = label.map foldCase → ∃ c ∈ before.getLast?, InSomeCase isPart c) →
      context? kernelLabel line = none) := by
  intro label
  have hcontext : context? kernelLabel line =
      (nameIn? .colon label none line).or (nameIn? .assignment label none line) := by
    rw [context?]
    cases nameIn? .colon label none line <;> rfl
  have hnone : context? kernelLabel line = none ↔
      ∀ form before rest, ¬ Announces form label none line before rest := by
    rw [hcontext, Option.or_eq_none_iff, nameIn?_eq_none_iff, nameIn?_eq_none_iff]
    constructor
    · intro h form
      cases form with
      | colon => exact h.1
      | assignment => exact h.2
    · intro h
      exact ⟨h .colon, h .assignment⟩
  refine ⟨?_, hnone, ?_⟩
  · intro kernel
    rw [hcontext, Option.or_eq_some_iff, nameIn?_eq_some_iff, nameIn?_eq_none_iff,
      nameIn?_eq_some_iff]
  · intro hinside
    apply hnone.mpr
    intro form before rest hplace
    obtain ⟨after, htext, hword, written, _, _, _, rfl, hwritten, -⟩ := hplace
    obtain ⟨c, hlast, hc⟩ := hinside before written _ htext hwritten
    rw [Option.or_none] at hword
    exact hword c hlast hc

/-- A colon behind an equals sign, with the Kelvin sign in the label, and a label at the end of a
longer word. -/
theorem context?_grammar_kelvin :
    let label := Markers.default.kernelLabel
    let line := "kernel=\"a\" \u212aernel : c::d:e".toList
    let longer := "xkernel:a".toList
    context? label line = some "c::d".toList ∧
      (NamesKernel .colon (trim label) line "c::d".toList ∨
        ((∀ before rest, ¬ Announces .colon (trim label) none line before rest) ∧
          NamesKernel .assignment (trim label) line "c::d".toList)) ∧
      context? label longer = none := by
  intro label line longer
  have hline : context? label line = some "c::d".toList := by decide +kernel
  refine ⟨hline, ((context?_grammar label line).1 _).mp hline, ?_⟩
  apply (context?_grammar label longer).2.2
  intro before written after htext hwritten
  have hlength : written.length = 6 := by
    have hlengths := congrArg List.length hwritten
    rw [List.length_map, List.length_map] at hlengths
    exact hlengths
  by_cases hne : before = []
  · -- at the start of the line stands another word
    have hstart : longer.take 6 = written := by
      rw [htext, hne, List.nil_append]
      exact List.take_left' hlength
    rw [← hstart] at hwritten
    exact absurd hwritten (by decide +kernel)
  · have hshort : before.length ≤ 3 := by
      have hlengths : 9 = (before ++ (written ++ after)).length := congrArg List.length htext
      rw [List.length_append, List.length_append, hlength] at hlengths
      omega
    have hfront : before <+: longer.take 3 :=
      List.prefix_of_prefix_length_le ⟨_, htext.symm⟩ (List.take_prefix 3 longer) hshort
    have hmem := hfront.subset (List.getLast_mem hne)
    have hparts : ∀ d ∈ longer.take 3, isPart d = true := List.all_eq_true.mp (by decide)
    exact ⟨_, List.getLast?_eq_some_getLast hne, _, hparts _ hmem, rfl⟩

end KernelCensus.Log
