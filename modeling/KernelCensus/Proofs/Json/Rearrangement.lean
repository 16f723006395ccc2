import KernelCensus.Json.Decode
import KernelCensus.Proofs.Json.Spelling
import Mathlib.Data.List.Permutation

/-!
# Rearranged JSON values

A value is rearranged by giving the members of its objects, at any depth, in another order. A record
is read from every rearrangement of it if each of its fields is.

* `Rearranged`: another order of members.
* `Rearranged.isWritten`, `Rearranged.parse?_compact`: a rearranged value is read from its text.
* `Rearranged.exists_fields`: the fields of a rearranged record.
* `Reads`: a decoder does not see the order of members.
-/

namespace KernelCensus.Json

mutual

/-- Whether a value is another one with the members of its objects in another order. -/
inductive Rearranged : Json → Json → Prop
  | same (value : Json) : Rearranged value value
  | array {items items' : List Json} (h : RearrangedItems items items') :
    Rearranged (array items) (array items')
  | object {members values members' : List (Option Text × Json)}
    (h : RearrangedValues members values) (hperm : values.Perm members') :
    Rearranged (object members) (object members')

/-- Whether items are rearranged one by one. -/
inductive RearrangedItems : List Json → List Json → Prop
  | nil : RearrangedItems [] []
  | cons {item item' : Json} {items items' : List Json} (hitem : Rearranged item item')
    (hitems : RearrangedItems items items') : RearrangedItems (item :: items) (item' :: items')

/-- Whether the values of members are rearranged one by one. -/
inductive RearrangedValues : List (Option Text × Json) → List (Option Text × Json) → Prop
  | nil : RearrangedValues [] []
  | cons (key : Option Text) {value value' : Json} {members values : List (Option Text × Json)}
    (hvalue : Rearranged value value') (hvalues : RearrangedValues members values) :
    RearrangedValues ((key, value) :: members) ((key, value') :: values)

end

/-! ## Items and members -/

lemma RearrangedItems.refl (items : List Json) : RearrangedItems items items := by
  induction items with
  | nil => exact .nil
  | cons item items ih => exact .cons (.same item) ih

lemma RearrangedItems.exists_mem {items items' : List Json} (h : RearrangedItems items items')
    {item' : Json} (hmem : item' ∈ items') : ∃ item ∈ items, Rearranged item item' := by
  induction items generalizing items' with
  | nil =>
    cases h
    exact absurd hmem List.not_mem_nil
  | cons item items ih =>
    cases h with
    | cons hitem hitems =>
      rcases List.mem_cons.mp hmem with rfl | hmem
      · exact ⟨item, List.mem_cons_self, hitem⟩
      · obtain ⟨other, hother, hrearranged⟩ := ih hitems hmem
        exact ⟨other, List.mem_cons_of_mem item hother, hrearranged⟩

namespace RearrangedValues

variable {members values : List (Option Text × Json)}

lemma refl (members : List (Option Text × Json)) : RearrangedValues members members := by
  induction members with
  | nil => exact .nil
  | cons member members ih => exact .cons member.1 (.same member.2) ih

lemma map_fst (h : RearrangedValues members values) :
    values.map Prod.fst = members.map Prod.fst := by
  induction members generalizing values with
  | nil =>
    cases h
    rfl
  | cons member members ih =>
    cases h with
    | cons key hvalue hvalues => rw [List.map_cons, List.map_cons, ih hvalues]

/-- Each member keeps its key and has its value rearranged. -/
lemma exists_value (h : RearrangedValues members values) {key : Option Text} {value : Json}
    (hmem : (key, value) ∈ members) :
    ∃ value', (key, value') ∈ values ∧ Rearranged value value' := by
  induction members generalizing values with
  | nil => exact absurd hmem List.not_mem_nil
  | cons member members ih =>
    cases h with
    | cons key' hvalue hvalues =>
      rcases List.mem_cons.mp hmem with heq | hmem
      · obtain ⟨rfl, rfl⟩ := Prod.mk.inj heq
        exact ⟨_, List.mem_cons_self, hvalue⟩
      · obtain ⟨value', hmem', hrearranged⟩ := ih hvalues hmem
        exact ⟨value', List.mem_cons_of_mem _ hmem', hrearranged⟩

lemma exists_mem (h : RearrangedValues members values) {member' : Option Text × Json}
    (hmem : member' ∈ values) :
    ∃ member ∈ members, member.1 = member'.1 ∧ Rearranged member.2 member'.2 := by
  induction members generalizing values with
  | nil =>
    cases h
    exact absurd hmem List.not_mem_nil
  | cons member members ih =>
    cases h with
    | cons key hvalue hvalues =>
      rcases List.mem_cons.mp hmem with rfl | hmem
      · exact ⟨_, List.mem_cons_self, rfl, hvalue⟩
      · obtain ⟨other, hother, hrearranged⟩ := ih hvalues hmem
        exact ⟨other, List.mem_cons_of_mem _ hother, hrearranged⟩

end RearrangedValues

/-! ## Inversion -/

namespace Rearranged

variable {json : Json}

/-- The items of an array are rearranged one by one. -/
lemma exists_items {items : List Json} (h : Rearranged (Json.array items) json) :
    ∃ items', json = Json.array items' ∧ RearrangedItems items items' := by
  cases h with
  | same => exact ⟨items, rfl, .refl items⟩
  | array h => exact ⟨_, rfl, h⟩

/-- The values of an object are rearranged one by one, and then its members. -/
lemma exists_members {members : List (Option Text × Json)}
    (h : Rearranged (Json.object members) json) :
    ∃ values members', json = Json.object members' ∧ RearrangedValues members values ∧
      values.Perm members' := by
  cases h with
  | same => exact ⟨members, members, rfl, .refl members, .refl members⟩
  | object h hperm => exact ⟨_, _, rfl, h, hperm⟩

/-- A record of one field is rearranged in the field. -/
lemma exists_field {key : Text} {form : Json} (h : Rearranged (record [(key, form)]) json) :
    ∃ value, json = Json.object [(some key, value)] ∧ Rearranged form value := by
  obtain ⟨values, members', rfl, hvalues, hperm⟩ := h.exists_members
  cases hvalues with
  | cons _ hvalue hrest =>
    cases hrest
    exact ⟨_, congrArg Json.object (List.singleton_perm.mp hperm).symm, hvalue⟩

/-- A record of two fields is rearranged in either order of the fields. -/
lemma exists_pair {key other : Text} {form second : Json}
    (h : Rearranged (record [(key, form), (other, second)]) json) :
    ∃ value value', Rearranged form value ∧ Rearranged second value' ∧
      (json = Json.object [(some key, value), (some other, value')] ∨
        json = Json.object [(some other, value'), (some key, value)]) := by
  obtain ⟨values, members', rfl, hvalues, hperm⟩ := h.exists_members
  cases hvalues with
  | cons _ hvalue hrest =>
    cases hrest with
    | cons _ hvalue' hrest =>
      cases hrest
      refine ⟨_, _, hvalue, hvalue', ?_⟩
      exact (List.pair_perm.mp hperm).imp (congrArg Json.object) (congrArg Json.object)

lemma eq_text {content : Text} (h : Rearranged (text content) json) : json = text content := by
  cases h
  rfl

lemma eq_bool {value : Bool} (h : Rearranged (bool value) json) : json = bool value := by
  cases h
  rfl

lemma eq_count {n : Nat} (h : Rearranged (count n) json) : json = count n := by
  cases h
  rfl

lemma eq_null (h : Rearranged null json) : json = null := by
  cases h
  rfl

/-- A rearranged value is one that this library writes if the value is. -/
theorem isWritten {value : Json} (hvalue : IsWritten value) (h : Rearranged value json) :
    IsWritten json := by
  induction hvalue generalizing json with
  | null => exact h.eq_null ▸ .null
  | bool value => exact h.eq_bool ▸ .bool value
  | count n => exact h.eq_count ▸ .count n
  | text content => exact h.eq_text ▸ .text content
  | array hitems ih =>
    obtain ⟨items', rfl, hall⟩ := h.exists_items
    refine .array fun item' hmem => ?_
    obtain ⟨item, hitem, hrearranged⟩ := hall.exists_mem hmem
    exact ih item hitem hrearranged
  | @object members hkeys hvalues ih =>
    obtain ⟨values, members', rfl, hall, hperm⟩ := h.exists_members
    have horigin : ∀ member' ∈ members', ∃ member ∈ members, member.1 = member'.1 ∧
        Rearranged member.2 member'.2 := fun member' hmem =>
      hall.exists_mem (hperm.mem_iff.mpr hmem)
    refine .object (fun member' hmem => ?_) fun member' hmem => ?_
    · obtain ⟨member, hmember, hkey, -⟩ := horigin member' hmem
      exact hkey ▸ hkeys member hmember
    · obtain ⟨member, hmember, -, hrearranged⟩ := horigin member' hmem
      exact ih member hmember hrearranged

/-- A rearranged value is read from its compact text. -/
theorem parse?_compact {value : Json} (hvalue : IsWritten value) (h : Rearranged value json) :
    parse? json.compact = some json :=
  Json.parse?_compact (h.isWritten hvalue)

end Rearranged

/-! ## Records -/

/-- A record is written if each of its fields is. -/
lemma IsWritten.record {fields : List (Text × Json)} (h : ∀ field ∈ fields, IsWritten field.2) :
    IsWritten (Json.record fields) := by
  refine .object (fun member hmem => ?_) fun member hmem => ?_
  · obtain ⟨field, -, rfl⟩ := List.mem_map.mp hmem
    rfl
  · obtain ⟨field, hfield, rfl⟩ := List.mem_map.mp hmem
    exact h field hfield

/-- A list is written if each of its items is. -/
lemma IsWritten.list {α : Type} {form : α → Json} {values : List α}
    (h : ∀ value ∈ values, IsWritten (form value)) : IsWritten (Json.array (values.map form)) := by
  refine .array fun item hmem => ?_
  obtain ⟨value, hvalue, rfl⟩ := List.mem_map.mp hmem
  exact h value hvalue

/-- A member with a key of its own is found under the key. -/
lemma member?_of_mem {members : List (Option Text × Json)} (hnodup : (members.map Prod.fst).Nodup)
    {key : Text} {value : Json} (hmem : (some key, value) ∈ members) :
    member? members key = some value := by
  obtain ⟨before, after, rfl⟩ := List.append_of_mem hmem
  rw [List.map_append, List.map_cons] at hnodup
  refine List.lookup_eq_some_iff.mpr ⟨before, after, rfl, fun member hmember => ?_⟩
  have hne : some key ≠ member.1 := by
    rintro heq
    exact (List.nodup_append.mp hnodup).2.2 _ (List.mem_map_of_mem hmember) _ List.mem_cons_self
      heq.symm
  simpa using hne

lemma member?_eq_none {members : List (Option Text × Json)} {key : Text}
    (h : some key ∉ members.map Prod.fst) : member? members key = none := by
  refine List.lookup_eq_none_iff.mpr fun member hmember => ?_
  have hne : some key ≠ member.1 := by
    rintro heq
    exact h (heq ▸ List.mem_map_of_mem hmember)
  simpa using hne

/-- Members with keys of their own have no key twice. -/
lemma occurrences_le_one {members : List (Option Text × Json)}
    (hnodup : (members.map Prod.fst).Nodup) (key : Text) : occurrences members key ≤ 1 := by
  have hcount : occurrences members key = (members.map Prod.fst).count (some key) := by
    rw [occurrences, List.count, List.countP_map]
    rfl
  rw [hcount]
  exact List.nodup_iff_count.mp hnodup (some key)

/-- Whether the fields that are given are those of a record, rearranged. -/
structure Fields.Give (got : Fields) (fields : List (Text × Json)) : Prop where
  get : ∀ {key value}, (key, value) ∈ fields →
    ∃ value', got.get? key = some value' ∧ Rearranged value value'
  absent : ∀ {key}, key ∉ fields.map Prod.fst → got.get? key = none
  byKey : got.inOrder = false

/-- The fields of a rearranged record are given. -/
theorem Rearranged.exists_fields {fields : List (Text × Json)} {json : Json}
    (h : Rearranged (record fields) json) (keys : List Text)
    (hkeys : (fields.map Prod.fst).Sublist keys) (hnodup : keys.Nodup) :
    ∃ got, json.fields? keys = some got ∧ got.Give fields := by
  obtain ⟨values, members, rfl, hall, hperm⟩ := h.exists_members
  have hmap : values.map Prod.fst = (fields.map Prod.fst).map some := by
    rw [hall.map_fst]
    simp
  have hkeysPerm : ((fields.map Prod.fst).map some).Perm (members.map Prod.fst) :=
    hmap ▸ hperm.map Prod.fst
  have hdistinct : (members.map Prod.fst).Nodup :=
    hkeysPerm.nodup_iff.mp
      (List.Pairwise.map some (fun _ _ hne heq => hne (Option.some.inj heq)) (hnodup.sublist hkeys))
  have hsome : ∀ member ∈ members, member.1.isSome = true := by
    intro member hmember
    obtain ⟨key, -, heq⟩ := List.mem_map.mp (hkeysPerm.mem_iff.mpr (List.mem_map_of_mem hmember))
    rw [← heq]
    rfl
  refine ⟨⟨member? members, false⟩, ?_, ?_, ?_, rfl⟩
  · have hall : (members.all fun member => member.1.isSome) = true := List.all_eq_true.mpr hsome
    have honce : (keys.all fun key => decide (occurrences members key ≤ 1)) = true :=
      List.all_eq_true.mpr fun key _ => decide_eq_true (occurrences_le_one hdistinct key)
    rw [Json.fields?, hall, honce]
    rfl
  · intro key value hmem
    obtain ⟨value', hmem', hvalue⟩ := hall.exists_value (List.mem_map_of_mem hmem)
    exact ⟨value', member?_of_mem hdistinct (hperm.mem_iff.mp hmem'), hvalue⟩
  · intro key hnot
    refine member?_eq_none fun hmem => hnot ?_
    obtain ⟨other, hother, heq⟩ := List.mem_map.mp (hkeysPerm.mem_iff.mpr hmem)
    exact Option.some.inj heq ▸ hother

/-! ## Decoders -/

/-- Whether a decoder reads a value from its JSON form, however that is rearranged. -/
def Reads {α : Type} (decode : Json → Option α) (form : Json) (value : α) : Prop :=
  ∀ {json : Json}, Rearranged form json → decode json = some value

section
variable {α : Type} {decode : Json → Option α}

lemma reads_text (content : Text) : Reads text? (text content) content := by
  intro json h
  rw [h.eq_text]
  rfl

lemma reads_bool (value : Bool) : Reads bool? (bool value) value := by
  intro json h
  rw [h.eq_bool]
  rfl

/-- A count is read if it fits in a machine word. -/
lemma reads_count {n : Nat} (hn : n < countLimit) : Reads count? (count n) n := by
  intro json h
  have hdigits : (Text.ofNat n).all Char.isDigit = true :=
    List.all_eq_true.mpr fun _ => Text.isDigit_of_mem_ofNat
  rw [h.eq_count, count, count?, Text.ofDigits_ofNat, hdigits, Bool.true_and,
    if_pos (decide_eq_true hn)]

/-- A list is read if each of its items is. -/
lemma reads_list {form : α → Json} {values : List α}
    (h : ∀ value ∈ values, Reads decode (form value) value) :
    Reads (list? decode) (array (values.map form)) values := by
  intro json hjson
  obtain ⟨items, rfl, hitems⟩ := hjson.exists_items
  clear hjson
  rw [list?]
  induction values generalizing items with
  | nil =>
    cases hitems
    rfl
  | cons value values ih =>
    cases hitems with
    | cons hitem hitems =>
      have hvalue := h value List.mem_cons_self hitem
      have hvalues := ih (fun other hmem => h other (List.mem_cons_of_mem value hmem)) _ hitems
      rw [List.mapM_cons, hvalue, hvalues]
      rfl

lemma reads_texts (values : List Text) : Reads (list? text?) (texts values) values :=
  reads_list fun value _ => reads_text value

namespace Fields.Give

variable {got : Fields} {fields : List (Text × Json)} {key : Text} {form : Json} {value : α}
  (hgot : got.Give fields)

include hgot

lemma required (hmem : (key, form) ∈ fields) (h : Reads decode form value) :
    got.required key decode = some value := by
  obtain ⟨json, hget, hjson⟩ := hgot.get hmem
  rw [Fields.required, hget, Option.bind_some, h hjson]

lemma withDefault (default : α) (hmem : (key, form) ∈ fields) (h : Reads decode form value) :
    got.withDefault key default decode = some value := by
  obtain ⟨json, hget, hjson⟩ := hgot.get hmem
  rw [Fields.withDefault, hget]
  exact h hjson

lemma withDefault_absent (default : α) (hkey : key ∉ fields.map Prod.fst) :
    got.withDefault key default decode = some default := by
  rw [Fields.withDefault, hgot.absent hkey]

lemma optional {value : Option α} (hmem : (key, form) ∈ fields)
    (h : Reads (nullable? decode) form value) : got.optional key decode = some value := by
  obtain ⟨json, hget, hjson⟩ := hgot.get hmem
  rw [Fields.optional, hget]
  exact h hjson

end Fields.Give

end

end KernelCensus.Json
