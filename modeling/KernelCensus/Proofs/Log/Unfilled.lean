import KernelCensus.Proofs.Log.Metrics

/-!
# Keys without value

White space may follow the equals sign of a token, so a key that nothing is set for takes its value
from behind the white space: the next entry of the line, key and all. That entry is lost. A line of
entries is read as the tokens that come of this, and only the metrics of a key without value and of
the entry behind it can differ from what the line says. So the order of the entries counts: at the
end of a line a key without value does no harm.

* `tokens_of_listed`: the tokens of a line of entries.
* `metrics_of_listed`: the metrics, and when they are those of the entries with a value.
-/

namespace KernelCensus.Log

open Unicode Text Name

/-- What a line sets a key to, which may be nothing. -/
structure Entry where
  key : Text
  /-- The value, which may be empty. -/
  value : Text
deriving Repr, DecidableEq

namespace Entry

/-- The entry as a line has it. -/
def text (entry : Entry) : Text := entry.key ++ '=' :: entry.value

/-- The token that an entry with a value is. -/
def token (entry : Entry) : Token := ⟨entry.key, entry.value⟩

end Entry

/-- A line of entries with white space around them. -/
inductive Listed : List Entry → Text → Prop
  | nil {gap : Text} (hgap : ∀ c ∈ gap, isWhiteSpace c = true) : Listed [] gap
  | cons {gap rest : Text} {entry : Entry} {entries : List Entry}
    (hgap : ∀ c ∈ gap, isWhiteSpace c = true) (hkey : IsIdentifier entry.key)
    (hvalue : ∀ c ∈ entry.value, isValueChar c = true)
    (hstop : ∀ c ∈ rest.head?, isWhiteSpace c = true) (hrest : Listed entries rest) :
    Listed (entry :: entries) (gap ++ (entry.text ++ rest))

/-- An entry stands in a line if all that is asked of the parts of the line is checked. -/
lemma Listed.of_checks {gap rest : Text} {entry : Entry} {entries : List Entry}
    (h : (gap.all isWhiteSpace && decide (IsIdentifier entry.key) && entry.value.all isValueChar &&
      rest.head?.all isWhiteSpace) = true)
    (hrest : Listed entries rest) : Listed (entry :: entries) (gap ++ (entry.text ++ rest)) := by
  simp only [Bool.and_eq_true, Option.all_eq_true, List.all_eq_true, decide_eq_true_eq] at h
  obtain ⟨⟨⟨hgap, hkey⟩, hvalue⟩, hstop⟩ := h
  exact .cons hgap hkey hvalue hstop hrest

/-- The entries that have a value. -/
def filled (entries : List Entry) : List Entry := entries.filter fun entry => !entry.value.isEmpty

/-- The tokens that entries are read as: a key without value takes the next entry for its value. -/
def readAs : List Entry → List Token
  | [] => []
  | ⟨key, c :: value⟩ :: entries => ⟨key, c :: value⟩ :: readAs entries
  | [⟨_, []⟩] => []
  | ⟨key, []⟩ :: next :: entries => ⟨key, next.text⟩ :: readAs entries

/-- The keys without value that take an entry, each with that entry. -/
def taken : List Entry → List (Text × Entry)
  | [] => []
  | ⟨_, _ :: _⟩ :: entries => taken entries
  | [⟨_, []⟩] => []
  | ⟨key, []⟩ :: next :: entries => (key, next) :: taken entries

/-! ## Reading -/

lemma not_isValueChar_of_blank {c : Char} (hc : isWhiteSpace c = true) : isValueChar c = false := by
  rw [isValueChar, hc, Bool.true_or, Bool.not_true]

/-- White space has no equals sign, and no identifier goes on behind it. -/
lemma lead_of_blank {gap : Text} (hgap : ∀ c ∈ gap, isWhiteSpace c = true) :
    '=' ∉ gap ∧ ∀ c ∈ gap.getLast?, isPart c = false :=
  ⟨fun hmem => absurd (hgap '=' hmem) (by decide),
    fun c hc => not_isPart_of_blank (hgap c (List.mem_of_getLast? hc))⟩

/-- An entry may stand in the place of a value. -/
lemma isValueChar_of_mem_text {entry : Entry} (hkey : IsIdentifier entry.key)
    (hvalue : ∀ c ∈ entry.value, isValueChar c = true) :
    ∀ c ∈ entry.text, isValueChar c = true := by
  intro c hc
  rcases List.mem_append.mp hc with hmem | hmem
  · exact isValueChar_of_isPart (hkey.parts c hmem)
  · rcases List.mem_cons.mp hmem with rfl | hmem
    · decide
    · exact hvalue c hmem

/-- A key has no value if white space is all that follows its sign. -/
lemma tokens_key_blank {lead key gap : Text} (hlead : ∀ c ∈ lead, isWhiteSpace c = true)
    (hkey : IsIdentifier key) (hgap : ∀ c ∈ gap, isWhiteSpace c = true) :
    tokens (lead ++ (key ++ '=' :: gap)) = [] := by
  obtain ⟨hequals, hend⟩ := lead_of_blank hlead
  have hblank : trimStart gap = [] := by
    have htrim := trimStart_append_blank hgap []
    rw [List.append_nil] at htrim
    exact htrim
  have hnone : valueAfterKey? ('=' :: gap) = none := by
    have hvalue := valueAfterKey?_append_equals (List.forall_mem_nil _) gap
    rw [hblank] at hvalue
    exact hvalue
  have hsign : ∀ c ∈ ('=' :: gap).head?, isPart c = false :=
    not_isPart_head?_sign (List.forall_mem_nil _) gap
  rw [tokens_lead hequals hend hkey, tokens_identifier hkey hsign, hnone]
  dsimp only
  rw [tokens_cons_of_not_isStart (by decide), tokens_of_not_mem (lead_of_blank hgap).1]

/-- Entries are read as tokens, and a key without value takes the entry behind it. -/
theorem tokens_of_listed {entries : List Entry} {line : Text} (h : Listed entries line) :
    tokens line = readAs entries := by
  fun_induction readAs entries generalizing line with
  | case1 =>
    cases h with
    | nil hgap => exact tokens_of_not_mem (lead_of_blank hgap).1
  | case2 key c value entries ih =>
    cases h with
    | @cons gap rest _ _ hgap hkey hvalue hstop hrest =>
      obtain ⟨hequals, hend⟩ := lead_of_blank hgap
      have htoken := @tokens_token gap [] [] rest ⟨key, c :: value⟩ hequals hend hkey
        (List.forall_mem_nil _) (List.forall_mem_nil _) (List.cons_ne_nil c value) hvalue
        fun d hd => not_isValueChar_of_blank (hstop d hd)
      rw [ih hrest] at htoken
      rw [← htoken, Entry.text, List.append_assoc]
      rfl
  | case3 key =>
    cases h with
    | cons hgap hkey _ _ hrest =>
      cases hrest with
      | nil hrest =>
        rw [Entry.text, List.append_assoc]
        exact tokens_key_blank hgap hkey hrest
  | case4 key next entries ih =>
    cases h with
    | @cons lead _ _ _ hlead hkey _ _ hrest =>
      cases hrest with
      | @cons gap rest _ _ hgap hnext hvalue hstop hrest =>
        obtain ⟨hequals, hend⟩ := lead_of_blank hlead
        have hne : next.text ≠ [] := List.append_ne_nil_of_right_ne_nil _ (List.cons_ne_nil _ _)
        -- the white space behind the sign is passed over, and the next entry stands there
        have htoken := @tokens_token lead [] gap rest ⟨key, next.text⟩ hequals hend hkey
          (List.forall_mem_nil _) hgap hne (isValueChar_of_mem_text hnext hvalue)
          fun d hd => not_isValueChar_of_blank (hstop d hd)
        rw [ih hrest] at htoken
        rw [← htoken, Entry.text, List.append_assoc]
        rfl

/-- If all entries have a value, they are the tokens. -/
lemma readAs_filled (entries : List Entry) :
    readAs (filled entries) = (filled entries).map Entry.token := by
  induction entries with
  | nil => rfl
  | cons entry entries ih =>
    obtain ⟨key, value⟩ := entry
    cases value with
    | nil => exact ih
    | cons c value => exact congrArg (List.cons ⟨key, c :: value⟩) ih

/-! ## Metrics -/

/-- A metric is read from the entries with a value, unless one of them is taken that gives it, or
the key that takes it gives the metric. -/
theorem firstValue?_readAs (given? : Text → Option Metric) (metric : Metric) {entries : List Entry}
    (h : ∀ pair ∈ taken entries, given? pair.1 ≠ some metric ∧
      (given? pair.2.key = some metric → pair.2.value = [])) :
    firstValue? given? metric (readAs entries) =
      firstValue? given? metric ((filled entries).map Entry.token) := by
  fun_induction taken entries with
  | case1 => rfl
  | case2 key c value entries ih =>
    have hfilled : filled (⟨key, c :: value⟩ :: entries) =
        ⟨key, c :: value⟩ :: filled entries := rfl
    rw [readAs, hfilled, List.map_cons, firstValue?_cons, firstValue?_cons, ih h]
    rfl
  | case3 => rfl
  | case4 key next entries ih =>
    obtain ⟨⟨hkey, hnext⟩, hrest⟩ := List.forall_mem_cons.mp h
    rw [readAs, firstValue?_cons, if_neg hkey, Option.none_or, ih hrest]
    obtain ⟨nextKey, value⟩ := next
    cases value with
    | nil => rfl
    | cons c value =>
      -- the entry that is taken does not give the metric, so it is not missed
      have hfilled : filled (⟨key, []⟩ :: ⟨nextKey, c :: value⟩ :: entries) =
          ⟨nextKey, c :: value⟩ :: filled entries := rfl
      have hother : ¬ given? nextKey = some metric := fun hgives =>
        absurd (hnext hgives) (List.cons_ne_nil c value)
      rw [hfilled, List.map_cons, firstValue?_cons]
      show _ = (if given? nextKey = some metric then _ else none).or _
      rw [if_neg hother, Option.none_or]

/-- The metrics of a line of entries are those of the tokens that the entries are read as. They are
those of the line without the keys that have no value if and only if the tokens give the same
metrics as the entries with a value. This holds for each metric that is given neither by a key
without value before another entry, nor by the entry behind such a key. -/
theorem metrics_of_listed (aliases : PerMetric (List Text)) {entries : List Entry}
    {line without : Text} (h : Listed entries line) (hwithout : Listed (filled entries) without) :
    (∀ metric, (metrics aliases line).get metric =
      firstValue? (givenBy? aliases) metric (readAs entries)) ∧
    (metrics aliases line = metrics aliases without ↔
      ∀ metric, firstValue? (givenBy? aliases) metric (readAs entries) =
        firstValue? (givenBy? aliases) metric ((filled entries).map Entry.token)) ∧
    ∀ metric, (∀ pair ∈ taken entries, givenBy? aliases pair.1 ≠ some metric ∧
        (givenBy? aliases pair.2.key = some metric → pair.2.value = [])) →
      (metrics aliases line).get metric = (metrics aliases without).get metric := by
  have hget (metric : Metric) : (metrics aliases line).get metric =
      firstValue? (givenBy? aliases) metric (readAs entries) := by
    rw [get_metrics, tokens_of_listed h]
  have hget' (metric : Metric) : (metrics aliases without).get metric =
      firstValue? (givenBy? aliases) metric ((filled entries).map Entry.token) := by
    rw [get_metrics, tokens_of_listed hwithout, readAs_filled]
  refine ⟨hget, ⟨?_, ?_⟩, ?_⟩
  · intro hsame metric
    rw [← hget, ← hget', hsame]
  · intro hsame
    refine PerMetric.eq_of_get_eq fun metric => ?_
    rw [hget, hget', hsame]
  · intro metric hapart
    rw [hget, hget', firstValue?_readAs (givenBy? aliases) metric hapart]

/-- Behind a key that takes an entry, the other entries count as they should. -/
theorem metrics_of_listed_width :
    let rate : Entry := ⟨"bw".toList, []⟩
    let time : Entry := ⟨"time_ms".toList, "1.2".toList⟩
    let width : Entry := ⟨"bx".toList, "8".toList⟩
    let line := "bw= time_ms=1.2\tbx=8 ".toList
    let without := "time_ms=1.2 bx=8".toList
    Listed [rate, time, width] line ∧ Listed (filled [rate, time, width]) without ∧
      (metrics Markers.defaultAliases line).get .blockX =
        (metrics Markers.defaultAliases without).get .blockX ∧
      (metrics Markers.defaultAliases line).get .bandwidth = some "time_ms=1.2".toList := by
  intro rate time width line without
  have hline : Listed [rate, time, width]
      ([] ++ (rate.text ++ ([' '] ++ (time.text ++ (['\t'] ++ (width.text ++ [' '])))))) := by
    refine .of_checks ?_ (.of_checks ?_ (.of_checks ?_ (.nil ?_)))
    · decide +kernel
    · decide +kernel
    · decide +kernel
    · exact List.all_eq_true.mp (by decide +kernel)
  have hwithout : Listed (filled [rate, time, width])
      ([] ++ (time.text ++ ([' '] ++ (width.text ++ [])))) := by
    refine .of_checks ?_ (.of_checks ?_ (.nil (List.forall_mem_nil _))) <;> decide +kernel
  have hapart : ∀ pair ∈ taken [rate, time, width],
      givenBy? Markers.defaultAliases pair.1 ≠ some .blockX ∧
        (givenBy? Markers.defaultAliases pair.2.key = some .blockX → pair.2.value = []) := by
    decide +kernel
  have hrate : firstValue? (givenBy? Markers.defaultAliases) .bandwidth
      (readAs [rate, time, width]) = some "time_ms=1.2".toList := by decide +kernel
  obtain ⟨hget, -, hsame⟩ := metrics_of_listed Markers.defaultAliases hline hwithout
  exact ⟨hline, hwithout, hsame .blockX hapart, (hget .bandwidth).trans hrate⟩

/-- A bandwidth without value before a time takes the time for its value, so that the line has a
bandwidth and no time. Without the bandwidth, or with it at the end, the line has the time. -/
theorem time_lost_behind_bandwidth :
    let rate : Entry := ⟨"bw".toList, []⟩
    let time : Entry := ⟨"time_ms".toList, "1.2".toList⟩
    let timed := Metrics.empty.set .timeMs (some "1.2".toList)
    Listed [rate, time] "bw= time_ms=1.2".toList ∧
      Listed (filled [rate, time]) "time_ms=1.2".toList ∧
      metrics Markers.defaultAliases "bw= time_ms=1.2".toList =
        Metrics.empty.set .bandwidth (some "time_ms=1.2".toList) ∧
      metrics Markers.defaultAliases "time_ms=1.2".toList = timed ∧
      metrics Markers.defaultAliases "time_ms=1.2 bw=".toList = timed ∧
      metrics Markers.defaultAliases "bw= time_ms=1.2".toList ≠
        metrics Markers.defaultAliases "time_ms=1.2".toList := by
  intro rate time timed
  have hline : Listed [rate, time] ([] ++ (rate.text ++ ([' '] ++ (time.text ++ [])))) := by
    refine .of_checks ?_ (.of_checks ?_ (.nil (List.forall_mem_nil _))) <;> decide +kernel
  have hwithout : Listed (filled [rate, time]) ([] ++ (time.text ++ [])) := by
    exact .of_checks (by decide +kernel) (.nil (List.forall_mem_nil _))
  refine ⟨hline, hwithout, ?_, ?_, ?_, ?_⟩ <;> decide +kernel

end KernelCensus.Log
