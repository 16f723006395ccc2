import KernelCensus.Proofs.Json.Rearrangement
import KernelCensus.Proofs.Number.Binary64

/-!
# Attributions read back

An attribution is read from its JSON form whichever of its case and its contents comes first, and
whichever of the reason and the count of an unknown one comes first in the contents. Contents that
come before their case can be kept until it is known.

* `Unresolved.reads`: reasons.
* `Attribution.reads`: attributions.
-/

namespace KernelCensus

open Json (Rearranged Reads)

/-! ## Reasons -/

namespace Unresolved

/-- Whether the count of a reason fits in a machine word. -/
def Fits : Unresolved → Prop
  | ambiguous candidates => candidates < Json.countLimit
  | _ => True

lemma isWritten_toJson (reason : Unresolved) : reason.toJson.IsWritten := by
  cases reason with
  | noContext => exact .record (by simpa using .text _)
  | noKernels => exact .record (by simpa using .text _)
  | ambiguous candidates => exact .record (by simpa using ⟨.text _, .count _⟩)

section
variable {outer : Nat} {members : List (Option Text × Json)} {reason : Unresolved}

/-- A reason is read from its members, wherever its case stands among them. -/
lemma ofJson?_object (kept : Bool) (kind : Case) (others : List (Option Text × Json))
    (hothers : (members.filter fun member => !Json.hasKey "reason" member) = others)
    (honce : Json.occurrences members "reason" = 1)
    (hcase : (Json.member? members "reason").bind (case? kept) = some kind)
    (hkept : ∀ member ∈ others, member.1.isSome = true ∧ member.2.canBeKept (outer + 1) = true)
    (hread : ofMembers? others kind = some reason) :
    ofJson? outer kept (.object members) = some reason := by
  have hall : (others.all fun member => member.1.isSome && member.2.canBeKept (outer + 1)) = true :=
    List.all_eq_true.mpr fun member hmem => Bool.and_eq_true_iff.mpr (hkept member hmem)
  simp only [ofJson?, hothers, honce, hall, hcase, decide_true, Bool.and_self, if_true,
    Option.bind_some, hread]

end

section
variable {n : Nat} (hn : n < Json.countLimit)

include hn

lemma canBeKept_count {outer : Nat} (houter : outer ≤ Json.depthLimit) :
    (Json.count n).canBeKept outer = true := by
  simp [Json.canBeKept, Json.count, Json.isPlain, Json.isFinite_ofNat hn, Json.depth, houter]

lemma ofMembers?_candidates :
    ofMembers? [(some "candidates".toList, .count n)] .ambiguous = some (ambiguous n) := by
  have hcount : (Json.count n).count? = some n := Json.reads_count hn (.same _)
  show ((Json.count n).count?).map ambiguous = _
  rw [hcount, Option.map_some]

end

variable {outer : Nat} (houter : outer < Json.depthLimit) {reason : Unresolved} (h : reason.Fits)

include houter h

/-- A reason is read from its JSON form, kept or not. -/
theorem reads (kept : Bool) : Reads (ofJson? outer kept) reason.toJson reason := by
  intro json hjson
  cases reason with
  | noContext =>
    obtain ⟨value, rfl, hvalue⟩ := hjson.exists_field
    rw [hvalue.eq_text]
    exact ofJson?_object kept .noContext [] rfl rfl rfl (List.forall_mem_nil _) rfl
  | noKernels =>
    obtain ⟨value, rfl, hvalue⟩ := hjson.exists_field
    rw [hvalue.eq_text]
    exact ofJson?_object kept .noKernels [] rfl rfl rfl (List.forall_mem_nil _) rfl
  | ambiguous n =>
    obtain ⟨value, value', hvalue, hvalue', hjson⟩ := hjson.exists_pair
    rw [hvalue.eq_text, hvalue'.eq_count] at hjson
    have hkept : ∀ member ∈ [(some "candidates".toList, Json.count n)],
        member.1.isSome = true ∧ member.2.canBeKept (outer + 1) = true := by
      intro member hmem
      rw [List.mem_singleton.mp hmem]
      exact ⟨rfl, canBeKept_count h houter⟩
    rcases hjson with rfl | rfl
    · exact ofJson?_object kept .ambiguous _ rfl rfl rfl hkept (ofMembers?_candidates h)
    · exact ofJson?_object kept .ambiguous _ rfl rfl rfl hkept (ofMembers?_candidates h)

lemma canBeKept_of_rearranged {json : Json} (hjson : Rearranged reason.toJson json) :
    json.canBeKept outer = true := by
  have hdepth : outer + 1 ≤ Json.depthLimit := houter
  cases reason with
  | noContext =>
    obtain ⟨value, rfl, hvalue⟩ := hjson.exists_field
    rw [hvalue.eq_text]
    simp [Json.canBeKept, Json.text, Json.isPlain, Json.membersArePlain, Json.depth,
      Json.membersDepth, hdepth]
  | noKernels =>
    obtain ⟨value, rfl, hvalue⟩ := hjson.exists_field
    rw [hvalue.eq_text]
    simp [Json.canBeKept, Json.text, Json.isPlain, Json.membersArePlain, Json.depth,
      Json.membersDepth, hdepth]
  | ambiguous n =>
    obtain ⟨value, value', hvalue, hvalue', hjson⟩ := hjson.exists_pair
    rw [hvalue.eq_text, hvalue'.eq_count] at hjson
    have hfinite := Json.isFinite_ofNat h
    rcases hjson with rfl | rfl <;>
      simp [Json.canBeKept, Json.text, Json.count, Json.isPlain, Json.membersArePlain, Json.depth,
        Json.membersDepth, hdepth, hfinite]

end Unresolved

/-! ## Attributions -/

namespace Attribution

/-- Whether the count in an attribution fits in a machine word. -/
def Fits : Attribution → Prop
  | unknown reason => reason.Fits
  | _ => True

/-- The contents of an attribution. -/
def contents : Attribution → Json
  | logged kernel => .text kernel
  | inferred kernel => .text kernel
  | unknown reason => reason.toJson

/-- The name of the case of an attribution. -/
def caseName : Attribution → Text
  | logged _ => "logged"
  | inferred _ => "inferred"
  | unknown _ => "unknown"

/-- The form of an attribution has its case and its contents. -/
lemma toJson_eq (attribution : Attribution) :
    attribution.toJson =
      .record [("kind", .text attribution.caseName), ("value", attribution.contents)] := by
  cases attribution <;> rfl

lemma isWritten_toJson (attribution : Attribution) : attribution.toJson.IsWritten := by
  have hcontents : attribution.contents.IsWritten := by
    cases attribution with
    | logged kernel => exact .text kernel
    | inferred kernel => exact .text kernel
    | unknown reason => exact reason.isWritten_toJson
  rw [toJson_eq]
  exact .record (by simpa using ⟨.text _, hcontents⟩)

variable {outer : Nat} (houter : outer + 1 < Json.depthLimit) {attribution : Attribution}
  (h : attribution.Fits)

include houter h

/-- The contents of an attribution are read under its case. -/
lemma ofCase?_contents (kept : Bool) :
    Reads (ofCase? (outer + 1) kept attribution.caseName) attribution.contents attribution := by
  intro json hjson
  cases attribution with
  | logged kernel =>
    rw [Rearranged.eq_text hjson]
    rfl
  | inferred kernel =>
    rw [Rearranged.eq_text hjson]
    rfl
  | unknown reason =>
    have hread := Unresolved.reads houter h kept hjson
    show ((Unresolved.ofJson? (outer + 1) kept json).map unknown) = _
    rw [hread, Option.map_some]

/-- The contents of an attribution can be kept until its case is known. -/
lemma canBeKept_contents {json : Json} (hjson : Rearranged attribution.contents json) :
    json.canBeKept (outer + 1) = true := by
  have hdepth : outer + 1 ≤ Json.depthLimit := Nat.le_of_lt houter
  cases attribution with
  | logged kernel =>
    rw [Rearranged.eq_text hjson]
    simp [Json.canBeKept, Json.text, Json.isPlain, Json.depth, hdepth]
  | inferred kernel =>
    rw [Rearranged.eq_text hjson]
    simp [Json.canBeKept, Json.text, Json.isPlain, Json.depth, hdepth]
  | unknown reason => exact Unresolved.canBeKept_of_rearranged houter h hjson

/-- An attribution is read from its JSON form, whichever of its case and its contents comes
first. -/
theorem reads : Reads (ofJson? outer) attribution.toJson attribution := by
  intro json hjson
  rw [toJson_eq] at hjson
  obtain ⟨name, contents, hname, hcontents, hjson⟩ := hjson.exists_pair
  rw [hname.eq_text] at hjson
  rcases hjson with rfl | rfl
  · show ofCase? (outer + 1) false attribution.caseName contents = _
    exact ofCase?_contents houter h false hcontents
  · have hkept := canBeKept_contents houter h hcontents
    show (if contents.canBeKept (outer + 1) then
      ofCase? (outer + 1) true attribution.caseName contents else none) = _
    rw [if_pos hkept]
    exact ofCase?_contents houter h true hcontents

end Attribution

end KernelCensus
