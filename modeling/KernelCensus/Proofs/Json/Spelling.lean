import KernelCensus.Proofs.Json.Quoted
import KernelCensus.Proofs.Number.Decimal
import KernelCensus.Proofs.Text.Cut

/-!
# Spellings of JSON values

A text spells a value if it is the value as the grammar writes it, with any white space between the
signs. Both layouts spell a value, and the reader gives back the value that a text spells. The fuel
of the reader is enough because each step that it counts takes a character, two steps a character.

* `Spells`: the grammar.
* `value?_of_spells`, `parse?_of_spells`: reading.
* `compact_spells`, `prettyAt_spells`: writing.
* `parse?_compact`, `parse?_pretty`: both.
-/

namespace KernelCensus.Json

/-- White space of JSON, perhaps none. -/
def IsSpaces (gap : Text) : Prop := ∀ c ∈ gap, isSpace c = true

lemma isSpaces_nil : IsSpaces [] := List.forall_mem_nil _

/-! ## The grammar -/

mutual

/-- A text spells a value. -/
inductive Spells : Text → Json → Prop
  | null : Spells "null".toList null
  | yes : Spells "true".toList (bool true)
  | no : Spells "false".toList (bool false)
  | count (n : Nat) : Spells (Text.ofNat n) (count n)
  | text (content : Text) : Spells (quote content) (text content)
  | noItems : Spells ['[', ']'] (array [])
  | items {gap body : Text} {items : List Json} (hgap : IsSpaces gap)
    (hitems : SpellsItems body items) : Spells ('[' :: (gap ++ body)) (array items)
  | noMembers : Spells ['\x7b', '\x7d'] (object [])
  | members {gap body : Text} {members : List (Option Text × Json)} (hgap : IsSpaces gap)
    (hmembers : SpellsMembers body members) : Spells ('\x7b' :: (gap ++ body)) (object members)

/-- A text spells items, of which there is at least one, and the end of their array. -/
inductive SpellsItems : Text → List Json → Prop
  | last {text gap : Text} {item : Json} (hitem : Spells text item) (hgap : IsSpaces gap) :
    SpellsItems (text ++ (gap ++ [']'])) [item]
  | more {text gap gap' body : Text} {item : Json} {items : List Json} (hitem : Spells text item)
    (hgap : IsSpaces gap) (hgap' : IsSpaces gap') (hitems : SpellsItems body items) :
    SpellsItems (text ++ (gap ++ ',' :: (gap' ++ body))) (item :: items)

/-- A text spells members, of which there is at least one, and the end of their object. -/
inductive SpellsMembers : Text → List (Option Text × Json) → Prop
  | last (key : Text) {text colonGap valueGap gap : Text} {value : Json}
    (hcolon : IsSpaces colonGap) (hvalueGap : IsSpaces valueGap) (hvalue : Spells text value)
    (hgap : IsSpaces gap) :
    SpellsMembers (quote key ++ (colonGap ++ ':' :: (valueGap ++ (text ++ (gap ++ ['\x7d'])))))
      [(some key, value)]
  | more (key : Text) {text colonGap valueGap gap gap' body : Text} {value : Json}
    {members : List (Option Text × Json)} (hcolon : IsSpaces colonGap)
    (hvalueGap : IsSpaces valueGap) (hvalue : Spells text value) (hgap : IsSpaces gap)
    (hgap' : IsSpaces gap') (hmembers : SpellsMembers body members) :
    SpellsMembers
      (quote key ++ (colonGap ++ ':' :: (valueGap ++ (text ++ (gap ++ ',' :: (gap' ++ body))))))
      ((some key, value) :: members)

end

/-! ## Reading -/

lemma skipSpace_append {gap : Text} (hgap : IsSpaces gap) (text : Text) :
    skipSpace (gap ++ text) = skipSpace text := List.dropWhile_append_of_pos hgap

lemma skipSpace_cons {c : Char} (hc : isSpace c = false) (text : Text) :
    skipSpace (c :: text) = c :: text := by
  rw [skipSpace, List.dropWhile_cons, if_neg (by rw [hc]; exact Bool.false_ne_true)]

lemma value?_append {gap : Text} (hgap : IsSpaces gap) (fuel : Nat) (text : Text) :
    value? fuel (gap ++ text) = value? fuel text := by
  cases fuel with
  | zero => rw [value?, value?]
  | succ fuel => rw [value?, value?, skipSpace_append hgap]

lemma members?_append {gap : Text} (hgap : IsSpaces gap) (fuel : Nat) (text : Text) :
    members? fuel (gap ++ text) = members? fuel text := by
  cases fuel with
  | zero => rw [members?, members?]
  | succ fuel => rw [members?, members?, skipSpace_append hgap]

lemma items?_append {gap : Text} (hgap : IsSpaces gap) (fuel : Nat) (text : Text) :
    items? fuel (gap ++ text) = items? fuel text := by
  cases fuel with
  | zero => rw [items?, items?]
  | succ fuel => rw [items?, items?, value?_append hgap]

/-- Whether a value ends before a text: at white space or a sign that may follow a value. -/
def EndsValue (rest : Text) : Prop :=
  ∀ c ∈ rest.head?, isSpace c = true ∨ c = ',' ∨ c = ']' ∨ c = '\x7d'

lemma endsValue_nil : EndsValue [] := fun _ h => nomatch h

lemma endsValue_cons {c : Char} (hc : c = ',' ∨ c = ']' ∨ c = '\x7d') (rest : Text) :
    EndsValue (c :: rest) := by
  rintro d ⟨⟩
  exact Or.inr hc

lemma endsValue_append {gap rest : Text} (hgap : IsSpaces gap) (hrest : EndsValue rest) :
    EndsValue (gap ++ rest) := by
  cases gap with
  | nil => exact hrest
  | cons c gap =>
    rintro d ⟨⟩
    exact Or.inl (hgap c List.mem_cons_self)

lemma endsValue_gap_cons {gap : Text} (hgap : IsSpaces gap) {c : Char}
    (hc : c = ',' ∨ c = ']' ∨ c = '\x7d') (rest : Text) : EndsValue (gap ++ c :: rest) :=
  endsValue_append hgap (endsValue_cons hc rest)

lemma skipSpace_gap_cons {gap : Text} (hgap : IsSpaces gap) {c : Char} (hc : isSpace c = false)
    (rest : Text) : skipSpace (gap ++ c :: rest) = c :: rest := by
  rw [skipSpace_append hgap, skipSpace_cons hc]

lemma eq_of_isSpace {c : Char} (hc : isSpace c = true) :
    c = ' ' ∨ c = '\t' ∨ c = '\n' ∨ c = '\r' := by
  simpa [isSpace, or_assoc] using hc

lemma isSpace_of_isDigit {c : Char} (hc : c.isDigit = true) : isSpace c = false := by
  rw [Bool.eq_false_iff]
  intro hspace
  rcases eq_of_isSpace hspace with rfl | rfl | rfl | rfl <;> exact absurd hc (by decide)

/-- A number goes on with none of the characters that a value may end before. -/
lemma EndsValue.head_ne {rest : Text} (h : EndsValue rest) :
    ∀ c ∈ rest.head?, c.isDigit = false ∧ c ≠ '.' ∧ c ≠ 'e' ∧ c ≠ 'E' := by
  intro c hc
  rcases h c hc with hblank | rfl | rfl | rfl
  · rcases eq_of_isSpace hblank with rfl | rfl | rfl | rfl <;> decide
  all_goals decide

/-- The digits of a number are read as a number where it ends. -/
lemma number?_ofNat (n : Nat) {rest : Text} (hrest : EndsValue rest) :
    number? (Text.ofNat n ++ rest) = some (Text.ofNat n, rest) := by
  obtain ⟨htake, hdrop⟩ := Text.span_append (fun c hc => Text.isDigit_of_mem_ofNat hc)
    fun c hc => (hrest.head_ne c hc).1
  obtain ⟨c, digits, heq⟩ := List.exists_cons_of_ne_nil (Text.ofNat_ne_nil n)
  have hdigits : digits? (Text.ofNat n ++ rest) = some (Text.ofNat n, rest) := by
    rw [digits?, htake, hdrop, heq]
    rfl
  have hinteger : integer? (Text.ofNat n ++ rest) = some (Text.ofNat n, rest) := by
    rw [integer?, hdigits]
    split
    · next d tail after h =>
      exact absurd (Prod.mk.inj (Option.some.inj h)).1 (Text.ofNat_ne_zero_cons n d tail)
    · rfl
  have hfraction : fraction? rest = some ([], rest) := by
    unfold fraction?
    split
    · exact absurd rfl (hrest.head_ne '.' rfl).2.1
    · rfl
  have hexponent : exponent? rest = some ([], rest) := by
    cases rest with
    | nil => rfl
    | cons d rest =>
      have hd := hrest.head_ne d rfl
      simp [exponent?, hd.2.2.1, hd.2.2.2]
  have hmagnitude : magnitude? (Text.ofNat n ++ rest) = some (Text.ofNat n, rest) := by
    simp [magnitude?, hinteger, hfraction, hexponent]
  have hminus : c ≠ '-' := by
    rintro rfl
    exact absurd (Text.isDigit_of_mem_ofNat (heq ▸ List.mem_cons_self)) (by decide)
  rw [heq, List.cons_append] at hmagnitude ⊢
  rw [number?, hmagnitude]
  rintro _ ⟨⟩
  exact hminus rfl

lemma value?_ofNat (fuel n : Nat) {rest : Text} (hrest : EndsValue rest) :
    value? (fuel + 1) (Text.ofNat n ++ rest) = some (count n, rest) := by
  have hnumber := number?_ofNat n hrest
  obtain ⟨c, digits, heq⟩ := List.exists_cons_of_ne_nil (Text.ofNat_ne_nil n)
  have hdigit : c.isDigit = true := Text.isDigit_of_mem_ofNat (heq ▸ List.mem_cons_self)
  rw [heq, List.cons_append] at hnumber ⊢
  rw [value?, skipSpace_cons (isSpace_of_isDigit hdigit)]
  split
  case h_7 => rw [hnumber, Option.map_some, count, heq]
  all_goals
    next heq =>
      rw [(List.cons.inj heq).1] at hdigit
      exact absurd hdigit (by decide)

lemma value?_quote (fuel : Nat) (content rest : Text) :
    value? (fuel + 1) (quote content ++ rest) = some (text content, rest) := by
  obtain ⟨body, hquote, hbody⟩ := content?_quote content rest
  rw [hquote, value?, skipSpace_cons (by decide)]
  show (content? body).map _ = _
  rw [hbody]
  rfl

/-- A value starts with a sign that is neither white space nor the end of an array. -/
lemma Spells.exists_cons {text : Text} {value : Json} (h : Spells text value) :
    ∃ c tail, text = c :: tail ∧ isSpace c = false ∧ c ≠ ']' := by
  cases h with
  | null => exact ⟨_, _, rfl, by decide, by decide⟩
  | yes => exact ⟨_, _, rfl, by decide, by decide⟩
  | no => exact ⟨_, _, rfl, by decide, by decide⟩
  | count n =>
    obtain ⟨c, digits, heq⟩ := List.exists_cons_of_ne_nil (Text.ofNat_ne_nil n)
    have hdigit : c.isDigit = true := Text.isDigit_of_mem_ofNat (heq ▸ List.mem_cons_self)
    refine ⟨c, digits, heq, isSpace_of_isDigit hdigit, ?_⟩
    rintro rfl
    exact absurd hdigit (by decide)
  | text => exact ⟨_, _, rfl, by decide, by decide⟩
  | noItems => exact ⟨_, _, rfl, by decide, by decide⟩
  | items => exact ⟨_, _, rfl, by decide, by decide⟩
  | noMembers => exact ⟨_, _, rfl, by decide, by decide⟩
  | members => exact ⟨_, _, rfl, by decide, by decide⟩

lemma SpellsItems.exists_cons {text : Text} {items : List Json} (h : SpellsItems text items) :
    ∃ c tail, text = c :: tail ∧ isSpace c = false ∧ c ≠ ']' := by
  cases h with
  | last hitem =>
    obtain ⟨c, tail, rfl, hc⟩ := hitem.exists_cons
    exact ⟨c, _, rfl, hc⟩
  | more hitem =>
    obtain ⟨c, tail, rfl, hc⟩ := hitem.exists_cons
    exact ⟨c, _, rfl, hc⟩

lemma SpellsMembers.exists_cons {text : Text} {members : List (Option Text × Json)}
    (h : SpellsMembers text members) : ∃ tail, text = '"' :: tail := by
  cases h <;> exact ⟨_, rfl⟩

lemma value?_bracket (fuel : Nat) (text : Text) :
    value? (fuel + 1) ('[' :: text) =
      match skipSpace text with
      | ']' :: rest => some (array [], rest)
      | rest => (items? fuel rest).map fun parts => (array parts.1, parts.2) :=
  rfl

lemma value?_brace (fuel : Nat) (text : Text) :
    value? (fuel + 1) ('\x7b' :: text) =
      match skipSpace text with
      | '\x7d' :: rest => some (object [], rest)
      | rest => (members? fuel rest).map fun parts => (object parts.1, parts.2) :=
  rfl

lemma value?_items {gap body : Text} {items : List Json} (hgap : IsSpaces gap)
    (hitems : SpellsItems body items) (fuel : Nat) (rest : Text) :
    value? (fuel + 1) ('[' :: (gap ++ body) ++ rest) =
      (items? fuel (body ++ rest)).map fun parts => (array parts.1, parts.2) := by
  obtain ⟨c, tail, rfl, hspace, hend⟩ := hitems.exists_cons
  have hskip : skipSpace (gap ++ c :: tail ++ rest) = c :: (tail ++ rest) := by
    rw [List.append_assoc, skipSpace_append hgap, List.cons_append, skipSpace_cons hspace]
  rw [List.cons_append, value?_bracket, hskip]
  split
  · next heq => exact absurd (List.cons.inj heq).1 hend
  · rfl

lemma value?_members {gap body : Text} {members : List (Option Text × Json)} (hgap : IsSpaces gap)
    (hmembers : SpellsMembers body members) (fuel : Nat) (rest : Text) :
    value? (fuel + 1) ('\x7b' :: (gap ++ body) ++ rest) =
      (members? fuel (body ++ rest)).map fun parts => (object parts.1, parts.2) := by
  obtain ⟨tail, rfl⟩ := hmembers.exists_cons
  have hskip : skipSpace (gap ++ '"' :: tail ++ rest) = '"' :: (tail ++ rest) := by
    rw [List.append_assoc, skipSpace_append hgap, List.cons_append, skipSpace_cons (by decide)]
  rw [List.cons_append, value?_brace, hskip]
  rfl

section
variable {key colonGap rest tail : Text} {value : Json} {fuel : Nat} (hcolon : IsSpaces colonGap)
  (hvalue : value? fuel rest = some (value, tail))

include hcolon hvalue

/-- The last member is read from the quote of its key to the end of the object. -/
lemma members?_last {after : Text} (htail : skipSpace tail = '\x7d' :: after) :
    members? (fuel + 1) (quote key ++ (colonGap ++ ':' :: rest)) =
      some ([(some key, value)], after) := by
  obtain ⟨body, hquote, hbody⟩ := content?_quote key (colonGap ++ ':' :: rest)
  have hskip : skipSpace (colonGap ++ ':' :: rest) = ':' :: rest := by
    rw [skipSpace_append hcolon, skipSpace_cons (by decide)]
  rw [hquote, members?, skipSpace_cons (by decide)]
  simp only [hbody, hskip, hvalue, htail]

/-- A member is read from the quote of its key to a comma, and then the others are read. -/
lemma members?_more {after : Text} (htail : skipSpace tail = ',' :: after) :
    members? (fuel + 1) (quote key ++ (colonGap ++ ':' :: rest)) =
      (members? fuel after).map fun parts => ((some key, value) :: parts.1, parts.2) := by
  obtain ⟨body, hquote, hbody⟩ := content?_quote key (colonGap ++ ':' :: rest)
  have hskip : skipSpace (colonGap ++ ':' :: rest) = ':' :: rest := by
    rw [skipSpace_append hcolon, skipSpace_cons (by decide)]
  rw [hquote, members?, skipSpace_cons (by decide)]
  simp only [hbody, hskip, hvalue, htail]

end

mutual

/-- A value is read from a text that spells it. -/
theorem value?_of_spells {text : Text} {value : Json} (h : Spells text value) {rest : Text}
    (hrest : EndsValue rest) {fuel : Nat} (hfuel : 2 * text.length ≤ fuel) :
    value? fuel (text ++ rest) = some (value, rest) := by
  obtain ⟨fuel, rfl⟩ : ∃ n, fuel = n + 1 := by
    obtain ⟨c, tail, rfl, -⟩ := h.exists_cons
    exact Nat.exists_eq_add_one.mpr (by rw [List.length_cons] at hfuel; omega)
  cases h with
  | null => rfl
  | yes => rfl
  | no => rfl
  | count n => exact value?_ofNat fuel n hrest
  | text content => exact value?_quote fuel content rest
  | noItems => rfl
  | @items gap body items hgap hitems =>
    have hbody : 2 * body.length ≤ fuel := by
      simp only [List.length_cons, List.length_append] at hfuel
      omega
    rw [value?_items hgap hitems, items?_of_spells hitems rest hbody]
    rfl
  | noMembers => rfl
  | @members gap body members hgap hmembers =>
    have hbody : 2 * body.length ≤ fuel := by
      simp only [List.length_cons, List.length_append] at hfuel
      omega
    rw [value?_members hgap hmembers, members?_of_spells hmembers rest hbody]
    rfl

/-- Items are read up to the end of their array. -/
theorem items?_of_spells {text : Text} {items : List Json} (h : SpellsItems text items)
    (rest : Text) {fuel : Nat} (hfuel : 2 * text.length ≤ fuel) :
    items? fuel (text ++ rest) = some (items, rest) := by
  obtain ⟨fuel, rfl⟩ : ∃ n, fuel = n + 1 := by
    obtain ⟨c, tail, rfl, -⟩ := h.exists_cons
    exact Nat.exists_eq_add_one.mpr (by rw [List.length_cons] at hfuel; omega)
  cases h with
  | @last text gap item hitem hgap =>
    have htext : 2 * text.length ≤ fuel := by
      simp only [List.length_cons, List.length_append] at hfuel
      omega
    have hvalue : value? fuel (text ++ (gap ++ ']' :: rest)) = some (item, gap ++ ']' :: rest) :=
      value?_of_spells hitem (endsValue_gap_cons hgap (by decide) rest) htext
    have hskip : skipSpace (gap ++ ']' :: rest) = ']' :: rest := skipSpace_gap_cons hgap rfl rest
    have htail : text ++ (gap ++ [']']) ++ rest = text ++ (gap ++ ']' :: rest) := by simp
    rw [htail, items?]
    simp only [hvalue, hskip]
  | @more text gap gap' body item items hitem hgap hgap' hitems =>
    have hlength : 2 * text.length ≤ fuel ∧ 2 * body.length ≤ fuel := by
      simp only [List.length_cons, List.length_append] at hfuel
      omega
    have hvalue : value? fuel (text ++ (gap ++ ',' :: (gap' ++ body ++ rest))) =
        some (item, gap ++ ',' :: (gap' ++ body ++ rest)) :=
      value?_of_spells hitem (endsValue_gap_cons hgap (by decide) _) hlength.1
    have hskip : skipSpace (gap ++ ',' :: (gap' ++ body ++ rest)) = ',' :: (gap' ++ body ++ rest) :=
      skipSpace_gap_cons hgap rfl _
    have hothers : items? fuel (gap' ++ body ++ rest) = some (items, rest) := by
      rw [List.append_assoc, items?_append hgap', items?_of_spells hitems rest hlength.2]
    have htail : text ++ (gap ++ ',' :: (gap' ++ body)) ++ rest =
        text ++ (gap ++ ',' :: (gap' ++ body ++ rest)) := by simp
    rw [htail, items?]
    simp only [hvalue, hskip, hothers, Option.map_some]

/-- Members are read up to the end of their object. -/
theorem members?_of_spells {text : Text} {members : List (Option Text × Json)}
    (h : SpellsMembers text members) (rest : Text) {fuel : Nat} (hfuel : 2 * text.length ≤ fuel) :
    members? fuel (text ++ rest) = some (members, rest) := by
  obtain ⟨fuel, rfl⟩ : ∃ n, fuel = n + 1 := by
    obtain ⟨tail, rfl⟩ := h.exists_cons
    exact Nat.exists_eq_add_one.mpr (by rw [List.length_cons] at hfuel; omega)
  cases h with
  | @last key text colonGap valueGap gap value hcolon hvalueGap hvalue hgap =>
    have htext : 2 * text.length ≤ fuel := by
      simp only [List.length_cons, List.length_append] at hfuel
      omega
    have hread : value? fuel (valueGap ++ (text ++ (gap ++ '\x7d' :: rest))) =
        some (value, gap ++ '\x7d' :: rest) := by
      rw [value?_append hvalueGap,
        value?_of_spells hvalue (endsValue_gap_cons hgap (by decide) rest) htext]
    have htail :
        quote key ++ (colonGap ++ ':' :: (valueGap ++ (text ++ (gap ++ ['\x7d'])))) ++ rest =
          quote key ++ (colonGap ++ ':' :: (valueGap ++ (text ++ (gap ++ '\x7d' :: rest)))) := by
      simp
    rw [htail, members?_last hcolon hread (skipSpace_gap_cons hgap rfl rest)]
  | @more key text colonGap valueGap gap gap' body value members hcolon hvalueGap hvalue hgap hgap'
      hmembers =>
    have hlength : 2 * text.length ≤ fuel ∧ 2 * body.length ≤ fuel := by
      simp only [List.length_cons, List.length_append] at hfuel
      omega
    have hread : value? fuel (valueGap ++ (text ++ (gap ++ ',' :: (gap' ++ body ++ rest)))) =
        some (value, gap ++ ',' :: (gap' ++ body ++ rest)) := by
      rw [value?_append hvalueGap,
        value?_of_spells hvalue (endsValue_gap_cons hgap (by decide) _) hlength.1]
    have hothers : members? fuel (gap' ++ body ++ rest) = some (members, rest) := by
      rw [List.append_assoc, members?_append hgap', members?_of_spells hmembers rest hlength.2]
    have htail : quote key ++
          (colonGap ++ ':' :: (valueGap ++ (text ++ (gap ++ ',' :: (gap' ++ body))))) ++ rest =
        quote key ++
          (colonGap ++ ':' :: (valueGap ++ (text ++ (gap ++ ',' :: (gap' ++ body ++ rest))))) := by
      simp
    rw [htail, members?_more hcolon hread (skipSpace_gap_cons hgap rfl _), hothers, Option.map_some]

end

/-- A text that spells a value is read as that value, with white space around it as well. -/
theorem parse?_of_spells {text : Text} {value : Json} (h : Spells text value) {before after : Text}
    (hbefore : IsSpaces before) (hafter : IsSpaces after) :
    parse? (before ++ (text ++ after)) = some value := by
  have hends : EndsValue after := by
    have happend := endsValue_append hafter endsValue_nil
    rwa [List.append_nil] at happend
  have hfuel : 2 * text.length ≤ 2 * (before ++ (text ++ after)).length + 2 := by
    simp only [List.length_append]
    omega
  have hskip : skipSpace after = [] := by
    have happend := skipSpace_append hafter []
    rwa [List.append_nil] at happend
  rw [parse?, value?_append hbefore, value?_of_spells h hends hfuel]
  simp [hskip]

/-! ## Writing -/

/-- Whether a value is one that this library writes: its numbers are counts, and its strings and
keys denote texts. -/
inductive IsWritten : Json → Prop
  | null : IsWritten null
  | bool (value : Bool) : IsWritten (bool value)
  | count (n : Nat) : IsWritten (count n)
  | text (content : Text) : IsWritten (text content)
  | array {items : List Json} (hitems : ∀ item ∈ items, IsWritten item) : IsWritten (array items)
  | object {members : List (Option Text × Json)}
    (hkeys : ∀ member ∈ members, member.1.isSome = true)
    (hvalues : ∀ member ∈ members, IsWritten member.2) : IsWritten (object members)

lemma isSpaces_space : IsSpaces [' '] := by
  intro c hc
  rw [List.mem_singleton.mp hc]
  rfl

lemma isSpaces_newLine (level : Nat) : IsSpaces (newLine level) := by
  intro c hc
  rcases List.mem_cons.mp hc with rfl | hc
  · rfl
  · rw [List.eq_of_mem_replicate hc]
    rfl

lemma writeString_some (content : Text) : writeString (some content) = quote content := rfl

/-- The compact layout spells items if it spells each of them. -/
lemma compactItems_spells {items : List Json} (h : ∀ item ∈ items, Spells item.compact item) :
    ∀ {text : Text} {item : Json}, Spells text item →
      SpellsItems (text ++ compactItems items) (item :: items) := by
  induction items with
  | nil =>
    intro text item hitem
    have hspells := SpellsItems.last hitem isSpaces_nil
    simpa [compactItems] using hspells
  | cons other items ih =>
    intro text item hitem
    have hitems := ih (fun item hmem => h item (List.mem_cons_of_mem other hmem))
      (h other List.mem_cons_self)
    have hspells := SpellsItems.more hitem isSpaces_nil isSpaces_nil hitems
    simpa [compactItems] using hspells

/-- The compact layout spells members if it spells the value of each of them. -/
lemma compactMembers_spells {members : List (Option Text × Json)}
    (hkeys : ∀ member ∈ members, member.1.isSome = true)
    (h : ∀ member ∈ members, Spells member.2.compact member.2) :
    ∀ (key : Text) {text : Text} {value : Json}, Spells text value →
      SpellsMembers (quote key ++ ':' :: (text ++ compactMembers members))
        ((some key, value) :: members) := by
  induction members with
  | nil =>
    intro key text value hvalue
    have hspells := SpellsMembers.last key isSpaces_nil isSpaces_nil hvalue isSpaces_nil
    simpa [compactMembers] using hspells
  | cons member members ih =>
    intro key text value hvalue
    obtain ⟨name, other⟩ := member
    have hname : name.isSome = true := hkeys (name, other) List.mem_cons_self
    obtain ⟨name, rfl⟩ := Option.isSome_iff_exists.mp hname
    have hmembers := ih (fun member hmem => hkeys member (List.mem_cons_of_mem _ hmem))
      (fun member hmem => h member (List.mem_cons_of_mem _ hmem)) name (h _ List.mem_cons_self)
    have hspells := SpellsMembers.more key isSpaces_nil isSpaces_nil hvalue isSpaces_nil
      isSpaces_nil hmembers
    simpa only [compactMembers, writeString_some, List.nil_append, List.cons_append,
      List.append_assoc] using hspells

/-- The compact layout spells a value. -/
theorem compact_spells {value : Json} (h : IsWritten value) : Spells value.compact value := by
  induction h with
  | null => exact .null
  | bool value =>
    cases value
    · exact .no
    · exact .yes
  | count n =>
    rw [count, compact]
    exact .count n
  | text content =>
    rw [text, compact]
    exact .text content
  | @array items hitems ih =>
    cases items with
    | nil => exact .noItems
    | cons item items =>
      have hrest := compactItems_spells (fun item hmem => ih item (List.mem_cons_of_mem _ hmem))
        (ih item List.mem_cons_self)
      have hspells := Spells.items isSpaces_nil hrest
      simpa [compact] using hspells
  | @object members hkeys hvalues ih =>
    cases members with
    | nil => exact .noMembers
    | cons member members =>
      obtain ⟨key, value⟩ := member
      have hkey : key.isSome = true := hkeys (key, value) List.mem_cons_self
      obtain ⟨key, rfl⟩ := Option.isSome_iff_exists.mp hkey
      have hrest := compactMembers_spells
        (fun member hmem => hkeys member (List.mem_cons_of_mem _ hmem))
        (fun member hmem => ih member (List.mem_cons_of_mem _ hmem)) key (ih _ List.mem_cons_self)
      have hspells := Spells.members isSpaces_nil hrest
      simpa only [compact, writeString_some, List.nil_append, List.cons_append,
        List.append_assoc] using hspells

/-- The pretty layout spells items if it spells each of them one level further in. -/
lemma prettyItems_spells (level : Nat) {items : List Json}
    (h : ∀ item ∈ items, Spells (prettyAt (level + 1) item) item) :
    ∀ {text : Text} {item : Json}, Spells text item →
      SpellsItems (text ++ prettyItems level items) (item :: items) := by
  induction items with
  | nil =>
    intro text item hitem
    have hspells := SpellsItems.last hitem (isSpaces_newLine level)
    simpa [prettyItems] using hspells
  | cons other items ih =>
    intro text item hitem
    have hitems := ih (fun item hmem => h item (List.mem_cons_of_mem other hmem))
      (h other List.mem_cons_self)
    have hspells := SpellsItems.more hitem isSpaces_nil (isSpaces_newLine (level + 1)) hitems
    simpa [prettyItems] using hspells

/-- The pretty layout spells members if it spells the value of each of them one level further in. -/
lemma prettyMembers_spells (level : Nat) {members : List (Option Text × Json)}
    (hkeys : ∀ member ∈ members, member.1.isSome = true)
    (h : ∀ member ∈ members, Spells (prettyAt (level + 1) member.2) member.2) :
    ∀ (key : Text) {text : Text} {value : Json}, Spells text value →
      SpellsMembers (quote key ++ ':' :: ' ' :: (text ++ prettyMembers level members))
        ((some key, value) :: members) := by
  induction members with
  | nil =>
    intro key text value hvalue
    have hspells := SpellsMembers.last key isSpaces_nil isSpaces_space hvalue
      (isSpaces_newLine level)
    simpa [prettyMembers] using hspells
  | cons member members ih =>
    intro key text value hvalue
    obtain ⟨name, other⟩ := member
    have hname : name.isSome = true := hkeys (name, other) List.mem_cons_self
    obtain ⟨name, rfl⟩ := Option.isSome_iff_exists.mp hname
    have hmembers := ih (fun member hmem => hkeys member (List.mem_cons_of_mem _ hmem))
      (fun member hmem => h member (List.mem_cons_of_mem _ hmem)) name (h _ List.mem_cons_self)
    have hspells := SpellsMembers.more key isSpaces_nil isSpaces_space hvalue isSpaces_nil
      (isSpaces_newLine (level + 1)) hmembers
    simpa only [prettyMembers, writeString_some, List.nil_append, List.cons_append,
      List.append_assoc] using hspells

/-- The pretty layout spells a value at any level. -/
theorem prettyAt_spells {value : Json} (h : IsWritten value) (level : Nat) :
    Spells (prettyAt level value) value := by
  induction h generalizing level with
  | null =>
    rw [prettyAt]
    exact .null
  | bool value =>
    cases value
    · rw [prettyAt]
      exact .no
    · rw [prettyAt]
      exact .yes
  | count n =>
    rw [count, prettyAt]
    exact .count n
  | text content =>
    rw [text, prettyAt]
    exact .text content
  | @array items hitems ih =>
    cases items with
    | nil =>
      rw [prettyAt]
      exact .noItems
    | cons item items =>
      have hrest := prettyItems_spells level
        (fun item hmem => ih item (List.mem_cons_of_mem _ hmem) (level + 1))
        (ih item List.mem_cons_self (level + 1))
      have hspells := Spells.items (isSpaces_newLine (level + 1)) hrest
      simpa [prettyAt] using hspells
  | @object members hkeys hvalues ih =>
    cases members with
    | nil =>
      rw [prettyAt]
      exact .noMembers
    | cons member members =>
      obtain ⟨key, value⟩ := member
      have hkey : key.isSome = true := hkeys (key, value) List.mem_cons_self
      obtain ⟨key, rfl⟩ := Option.isSome_iff_exists.mp hkey
      have hrest := prettyMembers_spells level
        (fun member hmem => hkeys member (List.mem_cons_of_mem _ hmem))
        (fun member hmem => ih member (List.mem_cons_of_mem _ hmem) (level + 1)) key
        (ih _ List.mem_cons_self (level + 1))
      have hspells := Spells.members (isSpaces_newLine (level + 1)) hrest
      simpa only [prettyAt, writeString_some, List.nil_append, List.cons_append,
        List.append_assoc] using hspells

/-! ## Both -/

/-- A text that spells a value and nothing else is read as that value. -/
lemma Spells.parse? {text : Text} {value : Json} (h : Spells text value) :
    parse? text = some value := by
  have hparse := parse?_of_spells h isSpaces_nil isSpaces_nil
  rwa [List.nil_append, List.append_nil] at hparse

/-- A value is read back from its compact layout. -/
theorem parse?_compact {value : Json} (h : IsWritten value) : parse? value.compact = some value :=
  (compact_spells h).parse?

/-- A value is read back from its pretty layout. -/
theorem parse?_pretty {value : Json} (h : IsWritten value) : parse? value.pretty = some value :=
  (prettyAt_spells h 0).parse?

end KernelCensus.Json
