import KernelCensus.Proofs.Log.Metrics

/-!
# Keys that give a metric

A metric can be read from a line only if a token can have one of its keys. The key of a token is an
identifier, so a key with other characters in it is never met; and a key goes to the first metric
that has it, so one that an earlier metric has as well is lost. If every key of a metric is of one
kind or the other, the metric stays empty on each line. Markers may be valid all the same, since
that asks of the keys of a metric only that one of them is not blank.

* `givenBy?_eq_some_iff`: which metric a key gives.
* `exists_line_iff`: which metrics a line can give.
* `metric_read_iff`: the same for markers, and what valid markers need to give every metric.
-/

namespace KernelCensus

open Text Name

/-- The metrics that come before a metric. -/
def Metric.earlier (metric : Metric) : List Metric := Metric.all.takeWhile (· != metric)

/-- An element is the first with a property just if it has it and none before it does. -/
private lemma find?_eq_some_iff_takeWhile {α : Type} [DecidableEq α] {p : α → Bool} {xs : List α}
    {x : α} (hx : x ∈ xs) :
    xs.find? p = some x ↔ p x = true ∧ ∀ y ∈ xs.takeWhile (· != x), p y = false := by
  induction xs with
  | nil => cases hx
  | cons y ys ih =>
    by_cases hyx : y = x
    · subst hyx
      constructor
      · intro h
        have hp := List.find?_some h
        simpa using hp
      · intro h
        rw [List.find?_cons_of_pos h.1]
    · have hrest : x ∈ ys := by
        rcases List.mem_cons.mp hx with heq | hmem
        · exact absurd heq.symm hyx
        · exact hmem
      have htake : (y :: ys).takeWhile (· != x) = y :: ys.takeWhile (· != x) := by
        rw [List.takeWhile_cons, if_pos (by simpa using hyx)]
      rw [htake, List.forall_mem_cons]
      by_cases hy : p y = true
      · rw [List.find?_cons_of_pos hy, hy]
        simp [hyx]
      · rw [List.find?_cons_of_neg hy, ih hrest]
        simp [hy]

namespace Log

/-! ## Keys -/

/-- Texts that are the same in lower case are identifiers together. -/
lemma isIdentifier_of_lowerAscii {text other : Text} (h : lowerAscii text = lowerAscii other)
    (hother : IsIdentifier other) : IsIdentifier text := by
  obtain ⟨d, rest, rfl, hd, hrest⟩ := hother
  obtain ⟨c, tail, rfl, hc, htail⟩ := List.map_eq_cons_iff.mp h
  refine ⟨c, tail, rfl, ?_, ?_⟩
  · rw [← isStart_toLower, hc, isStart_toLower]
    exact hd
  · intro e he
    have hmem : e.toLower ∈ rest.map Char.toLower := htail ▸ List.mem_map_of_mem he
    obtain ⟨f, hf, heq⟩ := List.mem_map.mp hmem
    rw [← isPart_toLower, ← heq, isPart_toLower]
    exact hrest f hf

/-- A key gives a metric that has it, in some case, unless an earlier metric has it too. -/
theorem givenBy?_eq_some_iff {aliases : PerMetric (List Text)} {key : Text} {metric : Metric} :
    givenBy? aliases key = some metric ↔
      (∃ name ∈ aliases.get metric, lowerAscii (trim name) = lowerAscii key) ∧
        ∀ other ∈ metric.earlier, ∀ name ∈ aliases.get other,
          lowerAscii (trim name) ≠ lowerAscii key := by
  have hall : metric ∈ Metric.all := by cases metric <;> decide
  unfold givenBy? Metric.earlier
  rw [find?_eq_some_iff_takeWhile hall]
  simp

/-! ## Lines -/

/-- One of the keys of the metric is an identifier that no earlier metric has as a key. -/
def HasKey (aliases : PerMetric (List Text)) (metric : Metric) : Prop :=
  ∃ name ∈ aliases.get metric, IsIdentifier (trim name) ∧
    ∀ other ∈ metric.earlier, ∀ key ∈ aliases.get other,
      lowerAscii (trim key) ≠ lowerAscii (trim name)

instance (aliases : PerMetric (List Text)) (metric : Metric) : Decidable (HasKey aliases metric) :=
  inferInstanceAs (Decidable (∃ name ∈ aliases.get metric, _ ∧ ∀ other ∈ metric.earlier, _))

/-- A line gives a metric just if one of the keys of the metric can be met there. -/
theorem exists_line_iff {aliases : PerMetric (List Text)} {metric : Metric} :
    (∃ line, (metrics aliases line).get metric ≠ none) ↔ HasKey aliases metric := by
  constructor
  · intro h
    obtain ⟨line, hvalue⟩ := h
    obtain ⟨value, hvalue⟩ := Option.ne_none_iff_exists'.mp hvalue
    rw [get_metrics, firstValue?, Option.map_eq_some_iff] at hvalue
    obtain ⟨token, hfind, -⟩ := hvalue
    have hkey := isIdentifier_of_mem_tokens (List.mem_of_find?_eq_some hfind)
    have hgiven : givenBy? aliases token.key = some metric := by
      simpa using List.find?_some hfind
    obtain ⟨⟨name, hname, heq⟩, hearlier⟩ := givenBy?_eq_some_iff.mp hgiven
    refine ⟨name, hname, isIdentifier_of_lowerAscii heq hkey, ?_⟩
    rw [heq]
    exact hearlier
  · intro h
    obtain ⟨name, hname, hidentifier, hearlier⟩ := h
    have hdigit : ∀ c ∈ ['1'], isValueChar c = true := List.forall_mem_singleton.mpr (by decide)
    have hwritten : Written [⟨trim name, ['1']⟩]
        ([] ++ (trim name ++ ([] ++ '=' :: ([] ++ (['1'] ++ []))))) := by
      refine .token (by simp) nofun hidentifier nofun nofun (by simp) hdigit nofun ?_
      exact .rest (by simp)
    have hgiven := givenBy?_eq_some_iff.mpr ⟨⟨name, hname, rfl⟩, hearlier⟩
    -- the line has the key and any value at all
    refine ⟨trim name ++ ['=', '1'], ?_⟩
    have htokens : tokens (trim name ++ ['=', '1']) = [⟨trim name, ['1']⟩] :=
      tokens_of_written hwritten
    rw [get_metrics, htokens, firstValue?_cons, if_pos hgiven]
    simp

/-! ## Valid markers -/

/-- In valid markers, each metric has a key that is not blank. -/
lemma exists_key_of_validate {markers : Markers} (h : markers.validate = .ok markers)
    (metric : Metric) : ∃ name ∈ markers.aliases.get metric, trim name ≠ [] := by
  have hfault : markers.fault? = none := by
    unfold Markers.validate at h
    split at h
    · cases h
    · assumption
  have hfind : (Metric.all.find? fun metric => (markers.aliases.get metric).all isBlank) = none := by
    unfold Markers.fault? at hfault
    split at hfault
    · cases hfault
    · simpa using hfault
  rw [List.find?_eq_none] at hfind
  have hmetric := hfind metric (by cases metric <;> decide)
  obtain ⟨name, hname, hblank⟩ : ∃ name ∈ markers.aliases.get metric, ¬ isBlank name = true := by
    simpa using hmetric
  refine ⟨name, hname, ?_⟩
  intro htrim
  obtain ⟨before, after, heq, hbefore, hafter⟩ := exists_eq_append_trim name
  apply hblank
  -- what trimming takes away is white space, and here that is all of the name
  rw [htrim] at heq
  rw [heq, isBlank, List.all_append, List.nil_append, List.all_eq_true.mpr hbefore,
    List.all_eq_true.mpr hafter]
  rfl

/-- A metric can be read from some line just if one of its keys is an identifier that no earlier
metric has. Valid markers give every metric if their keys, blank ones aside, are identifiers and no
two metrics have the same one. -/
theorem metric_read_iff (markers : Markers) :
    (∀ metric, (∃ line, (metrics markers.aliases line).get metric ≠ none) ↔
      HasKey markers.aliases metric) ∧
    (markers.validate = .ok markers →
      (∀ metric, ∀ name ∈ markers.aliases.get metric, trim name ≠ [] → IsIdentifier (trim name)) →
      (∀ metric, ∀ other ∈ metric.earlier, ∀ name ∈ markers.aliases.get metric,
        ∀ key ∈ markers.aliases.get other, trim name ≠ [] →
          lowerAscii (trim key) ≠ lowerAscii (trim name)) →
      ∀ metric, ∃ line, (metrics markers.aliases line).get metric ≠ none) := by
  refine ⟨fun metric => exists_line_iff, ?_⟩
  intro hvalid hidentifiers hdistinct metric
  obtain ⟨name, hname, hne⟩ := exists_key_of_validate hvalid metric
  apply exists_line_iff.mpr
  refine ⟨name, hname, hidentifiers metric name hname hne, ?_⟩
  intro other hother key hkey
  exact hdistinct metric other hother name hname key hkey hne

/-- Markers that are used by default can give every metric. -/
theorem metric_read_iff_default :
    Markers.default.validate = .ok Markers.default ∧
      ∀ metric, ∃ line, (metrics Markers.default.aliases line).get metric ≠ none := by
  have hvalid : Markers.default.validate = .ok Markers.default := by decide +kernel
  refine ⟨hvalid, (metric_read_iff Markers.default).2 hvalid ?_ ?_⟩
  · intro metric
    cases metric <;> decide +kernel
  · intro metric
    cases metric <;> decide +kernel

/-- Valid markers under which a metric stays empty on every line: its only key has a space in it, or
an earlier metric has the same key. -/
theorem validate_accepts_lost_metric :
    let spaced := { Markers.default with
      aliases := { Markers.defaultAliases with blockX := ["block x".toList] } }
    let shadowed := { Markers.default with
      aliases := { Markers.defaultAliases with blockY := ["BX".toList] } }
    spaced.validate = .ok spaced ∧ (∀ line, (metrics spaced.aliases line).get .blockX = none) ∧
      shadowed.validate = .ok shadowed ∧
      ∀ line, (metrics shadowed.aliases line).get .blockY = none := by
  intro spaced shadowed
  have hempty {aliases : PerMetric (List Text)} {metric : Metric} (h : ¬ HasKey aliases metric)
      (line : Text) : (metrics aliases line).get metric = none := by
    by_contra hsome
    exact h (exists_line_iff.mp ⟨line, hsome⟩)
  refine ⟨by decide +kernel, hempty ?_, by decide +kernel, hempty ?_⟩
  · decide +kernel
  · decide +kernel

end Log

end KernelCensus
