import KernelCensus.Proofs.Declaration.Removal
import KernelCensus.Proofs.Text.Offsets
import KernelCensus.Proofs.Text.Squeezed

/-!
# Erasure with a cursor

The attributes with a keyword can be erased in place: a cursor moves through the text, and at each
attribute the text is cut and put together again. All places are byte offsets. Each turn either
moves the cursor on or makes the text shorter without moving the cursor back, so the search ends.
No offset is ever behind the end of the text or within a character, whatever the text and the
keyword are, since each is the number of bytes of a front of the text.

* `Cursor.turn?`: one turn of the search, with all the offsets that it uses.
* `Cursor.InPlace.exists_turn?`: a turn is never out of place, and it makes progress.
* `Cursor.InPlace.ends_iff`, `endsAll_iff`: the whole search ends with what `eraseAll?` answers.
* `Declaration.splits_iff`: the parameter list, cut out by byte offsets.
-/

namespace KernelCensus

open Unicode Text

namespace Parentheses

/-- The byte offset of the parenthesis that closes the first one of a text. The depth counts the
open parentheses and is not taken below zero. -/
def closingOffset? : Nat → Text → Option Nat
  | _, [] => none
  | depth, c :: rest =>
    if c = '(' then (closingOffset? (depth + 1) rest).map (· + 1)
    else if c = ')' then
      if depth - 1 = 0 then some 0 else (closingOffset? (depth - 1) rest).map (· + 1)
    else (closingOffset? depth rest).map (· + c.utf8Size)

/-- Inside the first parenthesis, the closing one is found where the text is split at it. -/
lemma closingOffset?_eq (depth : Nat) (text : Text) :
    closingOffset? (depth + 1) text =
      (closing? depth text).map fun parts => byteLength parts.1 := by
  -- what the first character adds to the part inside, it adds to the offset
  have hstep (c : Char) (next : Option (Text × Text)) :
      (next.map fun parts => byteLength parts.1).map (· + c.utf8Size) =
        (next.map fun parts => (c :: parts.1, parts.2)).map fun parts => byteLength parts.1 := by
    rw [Option.map_map, Option.map_map]
    congr 1
    funext parts
    exact (Nat.add_comm _ _).trans (byteLength_cons c parts.1).symm
  -- at depth one or more, no closing parenthesis is one too many
  induction depth, text using closing?.induct with
  | case1 => rfl
  | case2 depth rest ih =>
    rw [closingOffset?, if_pos rfl, ih, closing?]
    exact hstep '(' _
  | case3 => rfl
  | case4 depth rest ih =>
    rw [closingOffset?, if_neg (by decide), if_pos rfl, Nat.add_sub_cancel, if_neg (by omega), ih,
      closing?]
    exact hstep ')' _
  | case5 depth c rest hopen hclose hclose' ih =>
    have hne : c ≠ ')' := by
      rintro rfl
      cases depth with
      | zero => exact hclose rfl rfl
      | succ depth => exact hclose' depth rfl rfl
    rw [closingOffset?, if_neg (fun h => hopen h), if_neg hne, ih, closing?_cons_of_ne hopen hne]
    exact hstep c _

/-- The parenthesis that closes the first one of a text. -/
lemma closingOffset?_open (text : Text) :
    closingOffset? 0 ('(' :: text) =
      (closing? 0 text).map fun parts => byteLength ('(' :: parts.1) := by
  rw [closingOffset?, if_pos rfl, closingOffset?_eq, Option.map_map]
  rfl

end Parentheses

namespace Attribute

/-! ## One occurrence of a keyword -/

section
variable {keyword : Text} {previous : Option Char}

/-- Text without the keyword stays as it is. -/
lemma eraseAfter?_of_cut?_eq_none {text : Text} (h : cut? keyword text = none) :
    eraseAfter? keyword previous text = some text := by
  rw [cut?_eq_none_iff] at h
  induction text generalizing previous with
  | nil => rw [eraseAfter?]
  | cons c rest ih =>
    rw [List.infix_cons_iff, not_or] at h
    rw [eraseAfter?_cons, front_of_not_isPrefix h.1]
    dsimp only
    rw [ih h.2]
    rfl

/-- The erasure starts at the first occurrence of the keyword. -/
lemma eraseAfter?_of_cut? {text before behind : Text}
    (h : cut? keyword text = some (before, behind)) :
    eraseAfter? keyword previous text =
      (eraseAfter? keyword (before.getLast?.or previous) (keyword ++ behind)).map
        (before ++ ·) := by
  induction text generalizing before previous with
  | nil =>
    rw [cut?] at h
    split at h
    · next hempty =>
      cases h
      rw [List.isEmpty_iff.mp hempty]
      exact Option.map_id'.symm
    · cases h
  | cons c rest ih =>
    rw [cut?] at h
    split at h
    · next hfront =>
      cases h
      obtain ⟨after, heq⟩ := List.isPrefixOf_iff_prefix.mp hfront
      rw [← heq, List.drop_left]
      exact Option.map_id'.symm
    · next hfront =>
      obtain ⟨⟨front, back⟩, hcut, heq⟩ := Option.map_eq_some_iff.mp h
      cases heq
      -- before the first occurrence, a character is passed on its own
      have hnot : ¬ keyword <+: c :: rest := fun h => hfront (List.isPrefixOf_iff_prefix.mpr h)
      rw [eraseAfter?_cons, front_of_not_isPrefix hnot]
      dsimp only
      rw [ih hcut, Option.map_map, getLast?_cons_or]
      rfl

variable (hne : keyword ≠ [])

include hne

/-- A keyword within a word or without arguments is passed over. -/
lemma eraseAfter?_bare {after : Text}
    (h : startsWord previous = true → ofArguments after = .bare after) :
    eraseAfter? keyword previous (keyword ++ after) =
      (eraseAfter? keyword keyword.getLast? after).map (keyword ++ ·) := by
  obtain ⟨c, rest, heq⟩ :=
    List.exists_cons_of_ne_nil (List.append_ne_nil_of_left_ne_nil hne after)
  have hfront : front keyword previous c rest = .bare after := by
    rw [front_of_append hne heq]
    split
    · next hword => exact h hword
    · rfl
  rw [heq, eraseAfter?_cons, hfront]

variable (hword : startsWord previous = true)

include hword

/-- What stands at the front of a text with a keyword that starts a word. -/
private lemma exists_front {after : Text} :
    ∃ c rest, keyword ++ after = c :: rest ∧
      front keyword previous c rest = ofArguments after := by
  obtain ⟨c, rest, heq⟩ :=
    List.exists_cons_of_ne_nil (List.append_ne_nil_of_left_ne_nil hne after)
  refine ⟨c, rest, heq, ?_⟩
  rw [front_of_append hne heq, if_pos hword]

/-- A keyword with an argument list that is not closed ends the erasure. -/
lemma eraseAfter?_of_ofArguments_unclosed {after : Text} (h : ofArguments after = .unclosed) :
    eraseAfter? keyword previous (keyword ++ after) = none := by
  obtain ⟨c, rest, heq, hfront⟩ := exists_front hne hword
  rw [heq, eraseAfter?_cons, hfront, h]

/-- An attribute turns into a space, and the erasure goes on behind it. -/
lemma eraseAfter?_of_ofArguments_closed {after remainder : Text}
    (h : ofArguments after = .closed remainder) :
    eraseAfter? keyword previous (keyword ++ after) =
      (eraseAfter? keyword (some ' ') remainder).map (' ' :: ·) := by
  obtain ⟨c, rest, heq, hfront⟩ := exists_front hne hword
  rw [heq, eraseAfter?_cons, hfront, h]

end

/-! ## The cursor -/

/-- A text, and the byte offset in it from which on a keyword is searched for. -/
structure Cursor where
  text : Text
  searchFrom : Nat
deriving Repr, DecidableEq

namespace Cursor

/-- The search goes on between two characters of the text. -/
def InPlace (cursor : Cursor) : Prop := IsBoundary cursor.text cursor.searchFrom

/-- How many bytes of the text the search has not passed yet. -/
def left (cursor : Cursor) : Nat := byteLength cursor.text - cursor.searchFrom

/-- What the erasure of a keyword makes of the text when it goes on at the cursor. -/
def erased? (keyword : Text) (cursor : Cursor) : Option Text :=
  (splitAtByte? cursor.searchFrom cursor.text).bind fun parts =>
    (eraseAfter? keyword parts.1.getLast? parts.2).map (parts.1 ++ ·)

lemma inPlace_append (front back : Text) : InPlace ⟨front ++ back, byteLength front⟩ :=
  isBoundary_of_isPrefix (List.prefix_append front back)

@[simp] lemma left_append (front back : Text) :
    left ⟨front ++ back, byteLength front⟩ = byteLength back := by
  rw [left, byteLength_append, Nat.add_sub_cancel_left]

@[simp] lemma erased?_append (keyword front back : Text) :
    erased? keyword ⟨front ++ back, byteLength front⟩ =
      (eraseAfter? keyword front.getLast? back).map (front ++ ·) := by
  rw [erased?, splitAtByte?_append]
  rfl

/-- A cursor in place stands between two parts of its text. -/
lemma InPlace.exists_append {cursor : Cursor} (h : cursor.InPlace) :
    ∃ front back, cursor = ⟨front ++ back, byteLength front⟩ := by
  obtain ⟨front, back, htext, hlength⟩ := h
  exact ⟨front, back, by rw [← htext, hlength]⟩

end Cursor

/-- What a turn of the search comes to. -/
inductive Outcome
  | finished
  | unclosed
  | again (next : Cursor)
deriving Repr, DecidableEq

/-- A turn of the search. -/
structure Turn where
  /-- The byte offsets at which the text is cut. -/
  offsets : List Nat
  outcome : Outcome
deriving Repr, DecidableEq

/-- The turn at an occurrence of the keyword, which starts at a byte offset: the occurrence is
passed over, or it is replaced by a space together with its argument list. -/
def turnAt? (keyword text : Text) (start : Nat) : Option Turn := do
  let after := start + byteLength keyword
  let before ← sliceTo? text start
  if startsWord before.getLast? then
    let behind ← sliceFrom? text after
    let opening := after + (byteLength behind - byteLength (trimStart behind))
    let arguments ← sliceFrom? text opening
    if arguments.head? = some '(' then
      match Parentheses.closingOffset? 0 arguments with
      | none => some ⟨[start, after, opening], .unclosed⟩
      | some relative =>
        let finish := opening + relative + 1
        let remainder ← sliceFrom? text finish
        some ⟨[start, after, opening, finish], .again ⟨before ++ ' ' :: remainder, start⟩⟩
    else some ⟨[start, after, opening], .again ⟨text, after⟩⟩
  else some ⟨[start, after], .again ⟨text, after⟩⟩

/-- One turn of the search. There is no answer if the text is cut out of place. -/
def Cursor.turn? (keyword : Text) (cursor : Cursor) : Option Turn := do
  let rest ← sliceFrom? cursor.text cursor.searchFrom
  match offsetOf? keyword rest with
  | none => some ⟨[cursor.searchFrom], .finished⟩
  | some relative =>
    let turn ← turnAt? keyword cursor.text (cursor.searchFrom + relative)
    some ⟨cursor.searchFrom :: turn.offsets, turn.outcome⟩

/-! ## The whole search -/

/-- The keywords that are searched for: white space around a keyword does not count, and blank
keywords are left out. -/
def searched (keywords : List Text) : List Text := (keywords.map trim).filter (!·.isEmpty)

/-- The search for a keyword goes on from a cursor until it ends, with the text that is left or with
an argument list that is not closed. No turn is out of place. -/
inductive Cursor.Ends (keyword : Text) : Cursor → Option Text → Prop
  | finished {cursor : Cursor} {offsets : List Nat}
    (hturn : cursor.turn? keyword = some ⟨offsets, .finished⟩) :
    Ends keyword cursor (some cursor.text)
  | unclosed {cursor : Cursor} {offsets : List Nat}
    (hturn : cursor.turn? keyword = some ⟨offsets, .unclosed⟩) : Ends keyword cursor none
  | again {cursor next : Cursor} {offsets : List Nat} {result : Option Text}
    (hturn : cursor.turn? keyword = some ⟨offsets, .again next⟩)
    (hnext : Ends keyword next result) : Ends keyword cursor result

/-- The search for one keyword after another, each from the start of what is left of the text. -/
inductive EndsAll : List Text → Text → Option Text → Prop
  | nil (text : Text) : EndsAll [] text (some text)
  | unclosed {keyword text : Text} (keywords : List Text)
    (hfirst : Cursor.Ends keyword ⟨text, 0⟩ none) : EndsAll (keyword :: keywords) text none
  | cons {keyword text left : Text} {keywords : List Text} {result : Option Text}
    (hfirst : Cursor.Ends keyword ⟨text, 0⟩ (some left)) (hrest : EndsAll keywords left result) :
    EndsAll (keyword :: keywords) text result

/-! ## One turn -/

/-- What a turn comes to, if it does its part of the erasure and the search gets closer to its
end. -/
def Outcome.Fits (keyword : Text) (cursor : Cursor) : Outcome → Prop
  | finished => cursor.erased? keyword = some cursor.text
  | unclosed => cursor.erased? keyword = none
  | again next =>
    next.InPlace ∧ next.left < cursor.left ∧ cursor.erased? keyword = next.erased? keyword

/-- What a turn comes to from a cursor before this one, if nothing stands between the two. -/
lemma Outcome.Fits.of_later {keyword : Text} {outcome : Outcome} {cursor later : Cursor}
    (h : outcome.Fits keyword later) (htext : later.text = cursor.text)
    (hleft : later.left ≤ cursor.left)
    (herased : cursor.erased? keyword = later.erased? keyword) : outcome.Fits keyword cursor := by
  cases outcome with
  | finished => exact herased.trans (h.trans (congrArg some htext))
  | unclosed => exact herased.trans h
  | again next => exact ⟨h.1, h.2.1.trans_le hleft, herased.trans h.2.2⟩

/-- A turn that cuts the text between characters only, and does its part of the erasure. -/
structure Turn.Fits (keyword : Text) (cursor : Cursor) (turn : Turn) : Prop where
  offsets : ∀ offset ∈ turn.offsets, IsBoundary cursor.text offset
  outcome : turn.outcome.Fits keyword cursor

section
variable {keyword : Text} (hne : keyword ≠ [])

include hne

/-- An occurrence that is passed over. -/
lemma fits_passed {front behind : Text}
    (h : startsWord front.getLast? = true → ofArguments behind = .bare behind) :
    Outcome.Fits keyword ⟨front ++ (keyword ++ behind), byteLength front⟩
      (.again ⟨front ++ (keyword ++ behind), byteLength (front ++ keyword)⟩) := by
  have hpos := byteLength_pos hne
  have hlast : (front ++ keyword).getLast? = keyword.getLast? := by
    rw [List.getLast?_append, List.getLast?_eq_some_getLast hne]
    rfl
  have hassoc : front ++ (keyword ++ behind) = front ++ keyword ++ behind :=
    (List.append_assoc ..).symm
  refine ⟨?_, ?_, ?_⟩
  · rw [hassoc]
    exact Cursor.inPlace_append _ _
  · rw [Cursor.left_append, hassoc, Cursor.left_append, byteLength_append]
    omega
  · rw [Cursor.erased?_append, eraseAfter?_bare hne h, hassoc, Cursor.erased?_append, hlast,
      Option.map_map]
    congr 1
    funext left
    exact (List.append_assoc ..).symm

/-- An attribute that is replaced by a space. The search goes on before the space, which does not
start the keyword. -/
lemma fits_replaced (hhead : ∀ c ∈ keyword.head?, ¬ isWhiteSpace c = true)
    {front behind arguments remainder : Text} (hword : startsWord front.getLast? = true)
    (hbehind : behind = arguments ++ ')' :: remainder)
    (hclosed : ofArguments behind = .closed remainder) :
    Outcome.Fits keyword ⟨front ++ (keyword ++ behind), byteLength front⟩
      (.again ⟨front ++ ' ' :: remainder, byteLength front⟩) := by
  have hpos := byteLength_pos hne
  have hnot : ¬ keyword <+: ' ' :: remainder := by
    intro h
    obtain ⟨c, tail, rfl⟩ := List.exists_cons_of_ne_nil hne
    obtain ⟨rest, heq⟩ := h
    rw [List.cons_append, List.cons.injEq] at heq
    exact hhead c rfl (heq.1 ▸ isWhiteSpace_space)
  refine ⟨Cursor.inPlace_append _ _, ?_, ?_⟩
  -- one byte takes the place of the keyword and a parenthesis at least
  · rw [Cursor.left_append, Cursor.left_append, hbehind, byteLength_append, byteLength_append,
      byteLength_cons, byteLength_cons]
    show 1 + _ < _ + (_ + (1 + _))
    omega
  · rw [Cursor.erased?_append, Cursor.erased?_append,
      eraseAfter?_of_ofArguments_closed hne hword hclosed, eraseAfter?_cons,
      front_of_not_isPrefix hnot]

end

section
variable (keyword : Text)

/-- An occurrence within a word is passed over. -/
lemma turnAt?_within {front : Text} (hword : startsWord front.getLast? = false) (behind : Text) :
    turnAt? keyword (front ++ (keyword ++ behind)) (byteLength front) =
      some ⟨[byteLength front, byteLength (front ++ keyword)],
        .again ⟨front ++ (keyword ++ behind), byteLength (front ++ keyword)⟩⟩ := by
  rw [turnAt?, sliceTo?_append]
  simp [hword]

/-- An occurrence at the start of a word goes by what follows it, white space aside. -/
lemma turnAt?_word {front : Text} (hword : startsWord front.getLast? = true) {gap arguments : Text}
    (htrim : trimStart (gap ++ arguments) = arguments) :
    turnAt? keyword (front ++ (keyword ++ (gap ++ arguments))) (byteLength front) =
      let after := byteLength (front ++ keyword)
      let opening := byteLength (front ++ keyword ++ gap)
      if arguments.head? = some '(' then
        match Parentheses.closing? 0 arguments.tail with
        | none => some ⟨[byteLength front, after, opening], .unclosed⟩
        | some (inner, remainder) =>
          some ⟨[byteLength front, after, opening,
              byteLength (front ++ keyword ++ gap ++ ('(' :: (inner ++ [')'])))],
            .again ⟨front ++ ' ' :: remainder, byteLength front⟩⟩
      else
        some ⟨[byteLength front, after, opening],
          .again ⟨front ++ (keyword ++ (gap ++ arguments)), after⟩⟩ := by
  set text := front ++ (keyword ++ (gap ++ arguments)) with htext
  have hto : sliceTo? text (byteLength front) = some front := sliceTo?_append _ _
  have hafter : byteLength front + byteLength keyword = byteLength (front ++ keyword) :=
    (byteLength_append _ _).symm
  have hbehind : sliceFrom? text (byteLength (front ++ keyword)) = some (gap ++ arguments) := by
    rw [htext, ← List.append_assoc]
    exact sliceFrom?_append _ _
  -- the white space behind the keyword may have more bytes than characters
  have hopening : byteLength (front ++ keyword) +
      (byteLength (gap ++ arguments) - byteLength arguments) =
        byteLength (front ++ keyword ++ gap) := by
    rw [byteLength_append gap, Nat.add_sub_cancel, ← byteLength_append]
  have harguments : sliceFrom? text (byteLength (front ++ keyword ++ gap)) = some arguments := by
    rw [htext, ← List.append_assoc, ← List.append_assoc]
    exact sliceFrom?_append _ _
  simp only [turnAt?, hto, hafter, hbehind, htrim, hopening, harguments, hword,
    Option.bind_eq_bind, Option.bind_some, if_true]
  by_cases hopen : arguments.head? = some '('
  · obtain ⟨inner, rfl⟩ : ∃ inner, arguments = '(' :: inner :=
      ⟨arguments.tail, (List.cons_head?_tail hopen).symm⟩
    rw [if_pos hopen, if_pos hopen, Parentheses.closingOffset?_open, List.tail_cons]
    cases hclosing : Parentheses.closing? 0 inner with
    | none => rfl
    | some parts =>
      obtain ⟨list, remainder⟩ := parts
      have hinner := Parentheses.eq_append_of_closing? hclosing
      have hfinish : byteLength (front ++ keyword ++ gap) + byteLength ('(' :: list) + 1 =
          byteLength (front ++ keyword ++ gap ++ '(' :: (list ++ [')'])) := by
        rw [byteLength_append _ ('(' :: _), ← List.cons_append, byteLength_append _ [')'],
          ← Nat.add_assoc]
        rfl
      have hremainder : sliceFrom? text
          (byteLength (front ++ keyword ++ gap ++ '(' :: (list ++ [')']))) = some remainder := by
        have hwhole : text = front ++ keyword ++ gap ++ '(' :: (list ++ [')']) ++ remainder := by
          simp [htext, hinner]
        rw [hwhole]
        exact sliceFrom?_append _ _
      simp only [Option.map_some, hfinish, hremainder, Option.bind_some]
  · rw [if_neg hopen, if_neg hopen]

end

/-- A keyword with no parenthesis behind it, white space aside, has no arguments. -/
lemma ofArguments_of_head?_ne {after : Text} (h : (trimStart after).head? ≠ some '(') :
    ofArguments after = .bare after := by
  have hnone : openArguments? after = none := by
    rw [openArguments?]
    split
    · next rest heq => exact absurd (congrArg List.head? heq) h
    · rfl
  rw [ofArguments, hnone]

/-- The offsets before a keyword, behind it and behind the white space that follows it. -/
lemma isBoundary_of_mem_offsets (keyword front gap arguments : Text) :
    ∀ offset ∈ [byteLength front, byteLength (front ++ keyword),
        byteLength (front ++ keyword ++ gap)],
      IsBoundary (front ++ (keyword ++ (gap ++ arguments))) offset := by
  simp only [List.forall_mem_cons]
  exact ⟨isBoundary_of_isPrefix ⟨_, rfl⟩, isBoundary_of_isPrefix ⟨_, List.append_assoc ..⟩,
    isBoundary_of_isPrefix ⟨arguments, by simp only [List.append_assoc]⟩, List.forall_mem_nil _⟩

section
variable {keyword : Text} (hne : keyword ≠ [])
  (hhead : ∀ c ∈ keyword.head?, ¬ isWhiteSpace c = true)

include hne hhead

/-- The turn at an occurrence that starts a word. -/
lemma exists_turnAt?_word {front gap arguments : Text} (hword : startsWord front.getLast? = true)
    (hgap : ∀ c ∈ gap, isWhiteSpace c = true)
    (htrim : trimStart (gap ++ arguments) = arguments) :
    ∃ turn, turnAt? keyword (front ++ (keyword ++ (gap ++ arguments))) (byteLength front) =
        some turn ∧
      turn.Fits keyword ⟨front ++ (keyword ++ (gap ++ arguments)), byteLength front⟩ := by
  have hturn := turnAt?_word keyword hword htrim
  have hoffsets := isBoundary_of_mem_offsets keyword front gap arguments
  by_cases hopen : arguments.head? = some '('
  · obtain ⟨inner, rfl⟩ : ∃ inner, arguments = '(' :: inner :=
      ⟨arguments.tail, (List.cons_head?_tail hopen).symm⟩
    have hof := ofArguments_gap hgap inner
    rw [if_pos hopen, List.tail_cons] at hturn
    cases hclosing : Parentheses.closing? 0 inner with
    | none =>
      rw [hclosing] at hof hturn
      refine ⟨_, hturn, hoffsets, ?_⟩
      show Cursor.erased? keyword ⟨_, byteLength front⟩ = none
      rw [Cursor.erased?_append, eraseAfter?_of_ofArguments_unclosed hne hword hof]
      rfl
    | some parts =>
      obtain ⟨list, remainder⟩ := parts
      have hinner := Parentheses.eq_append_of_closing? hclosing
      rw [hclosing] at hof hturn
      have hfinish : front ++ keyword ++ gap ++ '(' :: (list ++ [')']) <+:
          front ++ (keyword ++ (gap ++ '(' :: inner)) := ⟨remainder, by simp [hinner]⟩
      have hsplit : gap ++ '(' :: inner = gap ++ '(' :: list ++ ')' :: remainder := by
        simp [hinner]
      refine ⟨_, hturn, ?_, fits_replaced hne hhead hword hsplit hof⟩
      exact List.forall_mem_append.mpr
        ⟨hoffsets, List.forall_mem_singleton.mpr (isBoundary_of_isPrefix hfinish)⟩
  · rw [if_neg hopen] at hturn
    rw [← htrim] at hopen
    exact ⟨_, hturn, hoffsets, fits_passed hne fun _ => ofArguments_of_head?_ne hopen⟩

/-- The turn at an occurrence of the keyword. -/
lemma exists_turnAt? (front behind : Text) :
    ∃ turn, turnAt? keyword (front ++ (keyword ++ behind)) (byteLength front) = some turn ∧
      turn.Fits keyword ⟨front ++ (keyword ++ behind), byteLength front⟩ := by
  cases hword : startsWord front.getLast? with
  | false =>
    have hoffsets := isBoundary_of_mem_offsets keyword front [] behind
    refine ⟨_, turnAt?_within keyword hword behind, fun offset hmem => ?_, ?_⟩
    · exact hoffsets offset (List.mem_append_left [_] hmem)
    · exact fits_passed hne fun h => absurd (hword.symm.trans h) Bool.false_ne_true
  | true =>
    obtain ⟨gap, hbehind, hgap⟩ := exists_eq_append_trimStart behind
    have htrim : trimStart (gap ++ trimStart behind) = trimStart behind := by rw [← hbehind]
    rw [hbehind]
    exact exists_turnAt?_word hne hhead hword hgap htrim

/-- A turn from a cursor in place is in place and does its part of the erasure. -/
theorem Cursor.InPlace.exists_turn? {cursor : Cursor} (h : cursor.InPlace) :
    ∃ turn, cursor.turn? keyword = some turn ∧ turn.Fits keyword cursor := by
  obtain ⟨front, rest, rfl⟩ := h.exists_append
  have hfrom : IsBoundary (front ++ rest) (byteLength front) := h
  cases hcut : cut? keyword rest with
  | none =>
    refine ⟨⟨[byteLength front], .finished⟩, ?_, ?_, ?_⟩
    · rw [Cursor.turn?, sliceFrom?_append, Option.bind_eq_bind, Option.bind_some, offsetOf?, hcut]
      rfl
    · exact List.forall_mem_singleton.mpr hfrom
    · show Cursor.erased? keyword ⟨front ++ rest, byteLength front⟩ = some (front ++ rest)
      rw [Cursor.erased?_append, eraseAfter?_of_cut?_eq_none hcut]
      rfl
  | some parts =>
    obtain ⟨before, behind⟩ := parts
    have htext : front ++ rest = front ++ before ++ (keyword ++ behind) := by
      rw [eq_append_of_cut? hcut]
      simp only [List.append_assoc]
    obtain ⟨turn, hturn, hfits⟩ := exists_turnAt? hne hhead (front ++ before) behind
    rw [← htext] at hturn hfits
    refine ⟨⟨byteLength front :: turn.offsets, turn.outcome⟩, ?_, ?_, ?_⟩
    · rw [Cursor.turn?, sliceFrom?_append, Option.bind_eq_bind, Option.bind_some, offsetOf?, hcut]
      simp [← byteLength_append, hturn]
    · exact List.forall_mem_cons.mpr ⟨hfrom, hfits.offsets⟩
    -- what stands between the cursor and the occurrence is not touched
    · refine hfits.outcome.of_later rfl ?_ ?_
      · rw [byteLength_append]
        exact Nat.sub_le_sub_left (Nat.le_add_right _ _) _
      · rw [htext, Cursor.erased?_append, ← htext, Cursor.erased?_append,
          eraseAfter?_of_cut? hcut, Option.map_map, List.getLast?_append]
        congr 1
        funext left
        exact (List.append_assoc ..).symm

/-- The answer of a turn is the turn. -/
lemma Cursor.InPlace.fits {cursor : Cursor} (h : cursor.InPlace) {turn : Turn}
    (hturn : cursor.turn? keyword = some turn) : turn.Fits keyword cursor := by
  obtain ⟨turn', hturn', hfits⟩ := h.exists_turn? hne hhead
  rw [hturn, Option.some.injEq] at hturn'
  exact hturn' ▸ hfits

/-! ## Every turn -/

/-- The search from a cursor in place ends, and it ends with what the erasure makes of the text. -/
theorem Cursor.InPlace.ends_iff {cursor : Cursor} (h : cursor.InPlace) {result : Option Text} :
    cursor.Ends keyword result ↔ result = cursor.erased? keyword := by
  constructor
  · intro hends
    induction hends with
    | finished hturn => exact (h.fits hne hhead hturn).outcome.symm
    | unclosed hturn => exact (h.fits hne hhead hturn).outcome.symm
    | again hturn _ ih =>
      obtain ⟨hnext, -, herased⟩ := (h.fits hne hhead hturn).outcome
      exact (ih hnext).trans herased.symm
  · rintro rfl
    -- each turn leaves fewer bytes to the next one
    induction hleft : cursor.left using Nat.strongRecOn generalizing cursor with
    | _ n ih =>
      obtain ⟨⟨offsets, outcome⟩, hturn, hfits⟩ := h.exists_turn? hne hhead
      have houtcome := hfits.outcome
      cases outcome with
      | finished =>
        rw [show cursor.erased? keyword = some cursor.text from houtcome]
        exact .finished hturn
      | unclosed =>
        rw [show cursor.erased? keyword = none from houtcome]
        exact .unclosed hturn
      | again next =>
        obtain ⟨hnext, hless, herased⟩ := houtcome
        rw [herased]
        exact .again hturn (ih next.left (hleft ▸ hless) hnext rfl)

omit hne hhead in
/-- The start of a text is a place in it. -/
lemma Cursor.inPlace_start (text : Text) : InPlace ⟨text, 0⟩ :=
  isBoundary_of_isPrefix List.nil_prefix

/-- The search from the start of a text ends with what is left of it. -/
lemma ends_start_iff {text : Text} {result : Option Text} :
    Cursor.Ends keyword ⟨text, 0⟩ result ↔ result = eraseAfter? keyword none text := by
  have herased : Cursor.erased? keyword ⟨text, 0⟩ = eraseAfter? keyword none text :=
    (Cursor.erased?_append keyword [] text).trans Option.map_id'
  rw [(Cursor.inPlace_start text).ends_iff hne hhead, herased]

end

/-- What is searched for is not empty and does not start with white space. -/
lemma of_mem_searched {keywords : List Text} {keyword : Text} (h : keyword ∈ searched keywords) :
    keyword ≠ [] ∧ ∀ c ∈ keyword.head?, ¬ isWhiteSpace c = true := by
  obtain ⟨hmem, hkept⟩ := List.mem_filter.mp h
  obtain ⟨plain, -, rfl⟩ := List.mem_map.mp hmem
  exact ⟨by simpa using hkept, head?_trim⟩

/-- The searches for all keywords end, and they end with what the erasure of all attributes leaves
of the text. -/
theorem endsAll_iff (keywords : List Text) (text : Text) (result : Option Text) :
    EndsAll (searched keywords) text result ↔ result = eraseAll? keywords text := by
  rw [eraseAll?, ← searched]
  have hall : ∀ keyword ∈ searched keywords,
      keyword ≠ [] ∧ ∀ c ∈ keyword.head?, ¬ isWhiteSpace c = true := fun _ => of_mem_searched
  generalize searched keywords = words at hall ⊢
  induction words generalizing text result with
  | nil =>
    constructor
    · rintro ⟨⟩
      rfl
    · rintro rfl
      exact .nil text
  | cons keyword later ih =>
    obtain ⟨⟨hne, hhead⟩, hlater⟩ := List.forall_mem_cons.mp hall
    rw [List.foldlM_cons]
    constructor
    · intro hends
      cases hends with
      | unclosed _ hfirst =>
        rw [← (ends_start_iff hne hhead).mp hfirst]
        rfl
      | cons hfirst hrest =>
        rw [← (ends_start_iff hne hhead).mp hfirst]
        exact (ih _ _ hlater).mp hrest
    · rintro rfl
      have hfirst := (ends_start_iff hne hhead).mpr (rfl : eraseAfter? keyword none text = _)
      cases heq : eraseAfter? keyword none text with
      | none =>
        rw [heq] at hfirst
        exact .unclosed later hfirst
      | some left =>
        rw [heq] at hfirst
        exact .cons hfirst ((ih left _ hlater).mpr rfl)

end Attribute

/-! ## The parameter list -/

namespace Declaration

/-- What stands before the first parenthesis of a text and what stands in it, cut out by byte
offsets, if the parenthesis is closed. There is no answer if the text is cut out of place. -/
def split? (text : Text) : Option (Option Declaration) :=
  match offsetOf? ['('] text with
  | none => some none
  | some opening => do
    let list ← sliceFrom? text opening
    match Parentheses.closingOffset? 0 list with
    | none => some none
    | some relative =>
      let head ← sliceTo? text opening
      let whole ← sliceTo? text (opening + relative)
      let parameters ← sliceFrom? whole (opening + 1)
      some (some ⟨trimEnd head, trim parameters⟩)

/-- No cut is out of place, and they are those at the two parentheses. -/
lemma split?_eq (text : Text) :
    split? text = some ((cut? ['('] text).bind fun parts =>
      (Parentheses.closing? 0 parts.2).map fun inside =>
        ⟨trimEnd parts.1, trim inside.1⟩) := by
  rw [split?, offsetOf?]
  cases hcut : cut? ['('] text with
  | none => rfl
  | some parts =>
    obtain ⟨head, rest⟩ := parts
    have htext : text = head ++ '(' :: rest := by
      rw [eq_append_of_cut? hcut, List.append_assoc]
      rfl
    rw [Option.map_some, Option.bind_some]
    dsimp only
    rw [htext, sliceFrom?_append, Option.bind_eq_bind, Option.bind_some,
      Parentheses.closingOffset?_open]
    cases hclosing : Parentheses.closing? 0 rest with
    | none => rfl
    | some inside =>
      obtain ⟨parameters, remainder⟩ := inside
      have hopening : byteLength head + 1 = byteLength (head ++ ['(']) := by
        rw [byteLength_append]
        rfl
      have hwhole :
          sliceTo? (head ++ '(' :: rest) (byteLength head + byteLength ('(' :: parameters)) =
            some (head ++ '(' :: parameters) := by
        rw [Parentheses.eq_append_of_closing? hclosing, ← byteLength_append, ← List.cons_append,
          ← List.append_assoc]
        exact sliceTo?_append _ _
      have hparameters : sliceFrom? (head ++ '(' :: parameters) (byteLength head + 1) =
          some parameters := by
        rw [hopening, ← List.singleton_append, ← List.append_assoc]
        exact sliceFrom?_append _ _
      simp only [Option.map_some, Option.bind_some, sliceTo?_append, hwhole, hparameters]

/-- A declaration is read off the front of a text: the searches for the keywords of attributes end,
and the parameter list is cut out of what they leave, with single spaces between its words. -/
inductive Splits (keywords : List Text) (text : Text) : Option Declaration → Prop
  | unclosed (hends : Attribute.EndsAll (Attribute.searched keywords) text none) :
    Splits keywords text none
  | erased {bare : Text} {result : Option Declaration}
    (hends : Attribute.EndsAll (Attribute.searched keywords) text (some bare))
    (hsplit : split? (squeeze bare) = some result) : Splits keywords text result

/-- The reading of a declaration ends, with no cut out of place, and it comes to the declaration. -/
theorem splits_iff (keywords : List Text) (text : Text) (result : Option Declaration) :
    Splits keywords text result ↔ result = ofText? keywords text := by
  have hof : ofText? keywords text =
      (Attribute.eraseAll? keywords text).bind fun bare => (split? (squeeze bare)).join := by
    rw [ofText?]
    congr 1
    funext bare
    rw [split?_eq]
    cases cut? ['('] (squeeze bare) with
    | none => rfl
    | some parts =>
      obtain ⟨head, rest⟩ := parts
      simp only [Option.bind_eq_bind, Option.bind_some, Option.join_some]
      cases Parentheses.closing? 0 rest <;> rfl
  rw [hof]
  constructor
  · intro h
    cases h with
    | unclosed hends =>
      rw [← (Attribute.endsAll_iff keywords text none).mp hends]
      rfl
    | erased hends hsplit =>
      rw [← (Attribute.endsAll_iff keywords text _).mp hends, Option.bind_some, hsplit]
      rfl
  · rintro rfl
    have hends := (Attribute.endsAll_iff keywords text _).mpr rfl
    cases heq : Attribute.eraseAll? keywords text with
    | none =>
      rw [heq] at hends
      exact .unclosed hends
    | some bare =>
      rw [heq] at hends
      refine .erased hends ?_
      rw [Option.bind_some, split?_eq]
      rfl

end Declaration

end KernelCensus
