import KernelCensus.Proofs.Log.Tokens
import Mathlib.Data.List.Nodup
import Mathlib.Data.List.Perm.Basic

/-!
# Metrics of a line

For each metric the first token counts whose key gives it. A key gives the first metric, in the
order of the metrics, that has it among its keys. So the metrics of a line depend on the order of
its tokens only as far as several of them give the same metric.

* `get_metrics`: a metric is the value of the first token that gives it.
* `metricOf?_keyTable`: which metric a key gives.
* `metrics_of_written`: the metrics of a line by the tokens that are written in it.
-/

namespace KernelCensus

lemma PerMetric.eq_of_get_eq {α : Type} {values others : PerMetric α}
    (h : ∀ metric, values.get metric = others.get metric) : values = others := by
  cases values
  cases others
  rw [PerMetric.mk.injEq]
  exact ⟨h .blockX, h .blockY, h .throughput, h .bandwidth, h .timeMs⟩

/-- Filling a metric changes just that one, and only if it is absent. -/
theorem Metrics.get_fill (metrics : Metrics) (metric : Metric) (value : Text) (other : Metric) :
    (metrics.fill metric value).get other =
      (metrics.get other).or (if metric = other then some value else none) := by
  unfold fill
  by_cases h : metric = other
  · rw [if_pos h, h]
    split
    · next found hfound => rw [hfound, Option.some_or]
    · next hnone => rw [hnone, PerMetric.get_set_self, Option.none_or]
  · rw [if_neg h, Option.or_none]
    split
    · rfl
    · exact PerMetric.get_set_of_ne metrics _ fun heq => h heq.symm

namespace Log

/-! ## The first token that gives a metric -/

/-- The value for a metric in tokens whose keys give metrics by `given?`. -/
def firstValue? (given? : Text → Option Metric) (metric : Metric) (written : List Token) :
    Option Text :=
  (written.find? fun token => given? token.key == some metric).map Token.value

section
variable (given? : Text → Option Metric) (metric : Metric)

lemma firstValue?_cons (token : Token) (written : List Token) :
    firstValue? given? metric (token :: written) =
      (if given? token.key = some metric then some token.value else none).or
        (firstValue? given? metric written) := by
  unfold firstValue?
  by_cases h : given? token.key = some metric
  · rw [List.find?_cons_of_pos (by simpa using h), if_pos h]
    rfl
  · rw [List.find?_cons_of_neg (by simpa using h), if_neg h, Option.none_or]

/-- The first token counts, in a list or else in what follows it. -/
lemma firstValue?_append (written more : List Token) :
    firstValue? given? metric (written ++ more) =
      (firstValue? given? metric written).or (firstValue? given? metric more) := by
  unfold firstValue?
  rw [List.find?_append, Option.map_or]

/-- The order of tokens does not count if no two of them give the same metric. -/
theorem firstValue?_perm {written moved : List Token} (hperm : written.Perm moved)
    (hnodup : (written.filterMap fun token => given? token.key).Nodup) :
    firstValue? given? metric written = firstValue? given? metric moved := by
  induction hperm with
  | nil => rfl
  | cons token _ ih =>
    have hrest := ih (hnodup.sublist ((List.sublist_cons_self token _).filterMap _))
    rw [firstValue?_cons, firstValue?_cons, hrest]
  | swap first second rest =>
    rw [firstValue?_cons, firstValue?_cons, firstValue?_cons, firstValue?_cons,
      ← Option.or_assoc, ← Option.or_assoc]
    congr 1
    by_cases hfirst : given? first.key = some metric
    · by_cases hsecond : given? second.key = some metric
      · -- both would give the metric
        simp [hfirst, hsecond] at hnodup
      · rw [if_neg hsecond, Option.none_or, Option.or_none]
    · rw [if_neg hfirst, Option.none_or, Option.or_none]
  | trans hfirst _ ih ih' => rw [ih hnodup, ih' ((hfirst.filterMap _).nodup hnodup)]

end

/-! ## Keys -/

/-- The metric that a key gives: the first one that has the key, in any case, among its own. -/
def givenBy? (aliases : PerMetric (List Text)) (key : Text) : Option Metric :=
  Metric.all.find? fun metric =>
    (aliases.get metric).any fun name => Text.lowerAscii (Text.trim name) == Text.lowerAscii key

/-- In a table of groups of keys, a key is looked up in one group after another. -/
private lemma lookup_flatMap {α : Type} (groups : List α) (keys : α → List Text) (key : Text) :
    (groups.flatMap fun group => (keys group).map fun name => (name, group)).lookup key =
      groups.find? fun group => (keys group).contains key := by
  have hgroup (names : List Text) (group : α) :
      (names.map fun name => (name, group)).lookup key =
        if names.contains key then some group else none := by
    induction names with
    | nil => rfl
    | cons name names ih =>
      rw [List.map_cons, List.lookup_cons, List.contains_cons, ih]
      cases key == name <;> rfl
  induction groups with
  | nil => rfl
  | cons group groups ih =>
    rw [List.flatMap_cons, List.lookup_append, hgroup, ih, List.find?_cons]
    cases (keys group).contains key <;> rfl

/-- A key gives the first metric that has it. -/
theorem metricOf?_keyTable (aliases : PerMetric (List Text)) {key : Text} (hkey : key ≠ []) :
    metricOf? (keyTable aliases) key = givenBy? aliases key := by
  have htable : keyTable aliases = Metric.all.flatMap fun metric =>
      ((((aliases.get metric).map Text.trim).filter (!·.isEmpty)).map Text.lowerAscii).map
        fun name => (name, metric) := by
    unfold keyTable
    congr 1
    funext metric
    rw [List.map_map]
    rfl
  have hcontains (names : List Text) :
      (((names.map Text.trim).filter (!·.isEmpty)).map Text.lowerAscii).contains
          (Text.lowerAscii key) =
        names.any fun name => Text.lowerAscii (Text.trim name) == Text.lowerAscii key := by
    rw [Bool.eq_iff_iff, List.contains_iff_mem, List.any_eq_true]
    simp only [List.mem_map, List.mem_filter, beq_iff_eq]
    constructor
    · rintro ⟨_, ⟨⟨name, hname, rfl⟩, -⟩, heq⟩
      exact ⟨name, hname, heq⟩
    · rintro ⟨name, hname, heq⟩
      refine ⟨Text.trim name, ⟨⟨name, hname, rfl⟩, ?_⟩, heq⟩
      -- a blank name would have to be the key
      cases htrim : Text.trim name with
      | nil =>
        rw [htrim] at heq
        exact absurd (List.map_eq_nil_iff.mp heq.symm) hkey
      | cons => rfl
  unfold metricOf? givenBy?
  rw [htable, lookup_flatMap]
  congr 1
  funext metric
  exact hcontains (aliases.get metric)

lemma key_ne_nil_of_mem_tokens {line : Text} {token : Token} (h : token ∈ tokens line) :
    token.key ≠ [] := by
  obtain ⟨c, rest, heq, -⟩ := isIdentifier_of_mem_tokens h
  rw [heq]
  exact List.cons_ne_nil c rest

/-! ## Lines -/

/-- If each token fills the metric that its key gives, the first token that gives a metric has the
say in a row of them. -/
lemma get_foldl (given? : Text → Option Metric) {metric : Metric}
    {step : Metrics → Token → Metrics} {written : List Token}
    (hstep : ∀ token ∈ written, ∀ metrics, (step metrics token).get metric =
      (metrics.get metric).or (if given? token.key = some metric then some token.value else none))
    (start : Metrics) :
    (written.foldl step start).get metric =
      (start.get metric).or (firstValue? given? metric written) := by
  induction written generalizing start with
  | nil => exact Option.or_none.symm
  | cons token written ih =>
    obtain ⟨htoken, hrest⟩ := List.forall_mem_cons.mp hstep
    rw [List.foldl_cons, ih hrest, htoken, firstValue?_cons, Option.or_assoc]

/-- A metric of a line is the value of the first token whose key gives it. -/
theorem get_metrics (aliases : PerMetric (List Text)) (line : Text) (metric : Metric) :
    (metrics aliases line).get metric = firstValue? (givenBy? aliases) metric (tokens line) := by
  have hstart : Metrics.empty.get metric = none := PerMetric.get_ofFn _ metric
  unfold metrics
  rw [get_foldl (givenBy? aliases) ?_ Metrics.empty, hstart, Option.none_or]
  intro token htoken metrics
  rw [metricOf?_keyTable aliases (key_ne_nil_of_mem_tokens htoken)]
  cases givenBy? aliases token.key with
  | none => exact Option.or_none.symm
  | some found => simp [Metrics.get_fill]

/-- Each metric of a line is the value of the first of its tokens that gives it, and is absent if
there is none. So tokens that give different metrics may change places with each other. -/
theorem metrics_of_written (aliases : PerMetric (List Text)) {written : List Token} {line : Text}
    (h : Written written line) :
    (∀ metric, (metrics aliases line).get metric =
      firstValue? (givenBy? aliases) metric written) ∧
    ∀ {front moved moved' back : List Token} {other : Text},
      written = front ++ (moved ++ back) → moved.Perm moved' →
      (moved.filterMap fun token => givenBy? aliases token.key).Nodup →
      Written (front ++ (moved' ++ back)) other → metrics aliases other = metrics aliases line := by
  have hget {written : List Token} {line : Text} (h : Written written line) (metric : Metric) :
      (metrics aliases line).get metric = firstValue? (givenBy? aliases) metric written := by
    rw [get_metrics, tokens_of_written h]
  refine ⟨hget h, ?_⟩
  rintro front moved moved' back other rfl hperm hnodup hother
  refine PerMetric.eq_of_get_eq fun metric => ?_
  rw [hget h, hget hother, firstValue?_append, firstValue?_append, firstValue?_append,
    firstValue?_append, firstValue?_perm (givenBy? aliases) metric hperm hnodup]

/-- Two tokens in either order before a third one, with an equals sign in a value, white space
around a sign, an upper-case key and a second key for the same metric. -/
theorem metrics_of_written_swapped :
    let width : Token := ⟨"bx".toList, "8=x".toList⟩
    let rate : Token := ⟨"BW".toList, "2.5".toList⟩
    let later : Token := ⟨"block_x".toList, "16".toList⟩
    let line := "[BEST] bx = 8=x, BW=2.5|block_x=16".toList
    let other := "BW= 2.5;bx=8=x block_x=16)".toList
    Written ([] ++ ([width, rate] ++ [later])) line ∧
      Written ([] ++ ([rate, width] ++ [later])) other ∧
      metrics Markers.defaultAliases other = metrics Markers.defaultAliases line ∧
      (metrics Markers.defaultAliases line).get .blockX = some "8=x".toList := by
  intro width rate later line other
  have hline : Written ([] ++ ([width, rate] ++ [later]))
      ("[BEST] ".toList ++ (width.key ++ ([' '] ++ '=' :: ([' '] ++ (width.value ++
        (", ".toList ++ (rate.key ++ ([] ++ '=' :: ([] ++ (rate.value ++
          (['|'] ++ (later.key ++ ([] ++ '=' :: ([] ++ (later.value ++ []))))))))))))))) := by
    refine .of_checks ?_ (.of_checks ?_ (.of_checks ?_ (.rest ?_))) <;> decide +kernel
  have hother : Written ([] ++ ([rate, width] ++ [later]))
      ([] ++ (rate.key ++ ([] ++ '=' :: ([' '] ++ (rate.value ++
        ([';'] ++ (width.key ++ ([] ++ '=' :: ([] ++ (width.value ++
          ([' '] ++ (later.key ++ ([] ++ '=' :: ([] ++ (later.value ++ [')']))))))))))))))) := by
    refine .of_checks ?_ (.of_checks ?_ (.of_checks ?_ (.rest ?_))) <;> decide +kernel
  have hnodup : ([width, rate].filterMap fun token =>
      givenBy? Markers.defaultAliases token.key).Nodup := by decide +kernel
  obtain ⟨hmetrics, hmoved⟩ := metrics_of_written Markers.defaultAliases hline
  have hsame := hmoved rfl (List.Perm.swap rate width []) hnodup hother
  have hwidth : firstValue? (givenBy? Markers.defaultAliases) .blockX
      ([] ++ ([width, rate] ++ [later])) = some "8=x".toList := by decide +kernel
  exact ⟨hline, hother, hsame, (hmetrics .blockX).trans hwidth⟩

end Log

end KernelCensus
