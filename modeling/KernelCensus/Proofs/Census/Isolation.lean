import KernelCensus.Proofs.Census.Sources

/-!
# Files that cannot be read

A file that cannot be read costs a run what it would have found in that file, and nothing else. The
run goes on as if the file had not been among its inputs, and the failure is recorded with the kind
and the path of the file. A log that does not exist is left out without a record, since a benchmark
need not have been run.

* `scanSources_filter`, `flatMap_measurementsOfLog_filter`: the two scans pass over such files.
* `map_fileOf_failures`, `eq_ofError_of_mem_failures`: what is recorded about them.
* `run_readable`: the whole run beside the run on the files that can be read.
-/

namespace KernelCensus

namespace Census

variable (read : ReadFile) (markers : Markers)

/-- Whether a file can be read. -/
def canRead (path : Path) : Bool := (read path).isOk

/-- Whether reading a file fails, and not for want of the file. -/
def isBroken (path : Path) : Bool :=
  match read path with
  | .ok _ => false
  | .error error => error != .notFound

/-- The inputs without the files that cannot be read. -/
def readable (inputs : Inputs) : Inputs where
  sources := inputs.sources.filter (canRead read)
  logs := inputs.logs.filter fun log => canRead read log.path

/-! ## The scans -/

lemma readText_of_not_canRead {path : Path} (h : canRead read path = false) :
    ∃ error, readText read path = .error error := by
  unfold canRead at h
  unfold readText
  cases hbytes : read path with
  | ok bytes =>
    rw [hbytes] at h
    cases h
  | error error => exact ⟨error, rfl⟩

/-- A source that cannot be read leaves the registry as it is. -/
lemma scanSource_of_not_canRead {path : Path} (h : canRead read path = false)
    (registry : Registry) : scanSource read markers registry path = registry := by
  obtain ⟨error, htext⟩ := readText_of_not_canRead read h
  unfold scanSource
  rw [htext]

/-- Sources that cannot be read change nothing, wherever they stand among the others. -/
theorem scanSources_filter (paths : List Path) :
    scanSources read markers (paths.filter (canRead read)) = scanSources read markers paths := by
  unfold scanSources
  rw [List.foldl_filter]
  congr 1
  funext registry path
  cases hread : canRead read path with
  | true => rw [if_pos rfl]
  | false => rw [if_neg Bool.false_ne_true, scanSource_of_not_canRead read markers hread]

lemma measurementsOfLog_of_not_canRead {log : LogFile} (h : canRead read log.path = false) :
    measurementsOfLog read markers log = [] := by
  obtain ⟨error, htext⟩ := readText_of_not_canRead read h
  unfold measurementsOfLog
  rw [htext]

/-- Logs that cannot be read add no measurements between those of the others. -/
theorem flatMap_measurementsOfLog_filter (logs : List LogFile) :
    (logs.filter fun log => canRead read log.path).flatMap (measurementsOfLog read markers) =
      logs.flatMap (measurementsOfLog read markers) := by
  induction logs with
  | nil => rfl
  | cons log logs ih =>
    rw [List.filter_cons, List.flatMap_cons, ← ih]
    cases hread : canRead read log.path with
    | true => rw [if_pos rfl, List.flatMap_cons]
    | false =>
      rw [if_neg Bool.false_ne_true, measurementsOfLog_of_not_canRead read markers hread,
        List.nil_append]

/-! ## The failures -/

/-- The kind and the path of the file that could not be read. -/
def fileOf (failure : Failure) : FileKind × Path := (failure.kind, failure.path)

/-- A source fails if and only if it cannot be read. -/
lemma map_fileOf_sourceFailure? (path : Path) :
    (sourceFailure? read path).map fileOf =
      if !canRead read path then some (.source, path) else none := by
  unfold sourceFailure? canRead readText
  cases read path <;> rfl

/-- A log fails if and only if it is broken, so not if there is no such file. -/
lemma map_fileOf_logFailure? (log : LogFile) :
    (logFailure? read log).map fileOf =
      if isBroken read log.path then some (.log, log.path) else none := by
  unfold logFailure? isBroken readText
  cases read log.path with
  | ok bytes => rfl
  | error error => cases error <;> rfl

/-- The values of what a search finds in a list, if a test decides what the search finds. -/
private lemma map_filterMap_eq_map_filter {α β γ : Type} {find? : α → Option β} {value : β → γ}
    {test : α → Bool} {expected : α → γ}
    (h : ∀ x, (find? x).map value = if test x then some (expected x) else none) (xs : List α) :
    (xs.filterMap find?).map value = (xs.filter test).map expected := by
  rw [List.map_filterMap, ← List.filterMap_eq_map, List.filterMap_filter]
  apply List.filterMap_congr
  intro x _
  exact h x

/-- The failures of a run are its sources that cannot be read and then its broken logs, in order. -/
theorem map_fileOf_failures (inputs : Inputs) :
    (outcome read markers inputs).failures.map fileOf =
      (inputs.sources.filter fun path => !canRead read path).map (fun path => (.source, path)) ++
        (inputs.logs.filter fun log => isBroken read log.path).map fun log => (.log, log.path) := by
  have hsources := map_filterMap_eq_map_filter (map_fileOf_sourceFailure? read) inputs.sources
  have hlogs := map_filterMap_eq_map_filter (map_fileOf_logFailure? read) inputs.logs
  unfold outcome
  rw [List.map_append, hsources, hlogs]

/-- A failure says what went wrong with its own file. -/
theorem eq_ofError_of_mem_failures {inputs : Inputs} {failure : Failure}
    (h : failure ∈ (outcome read markers inputs).failures) :
    ∃ error, read failure.path = .error error ∧
      failure = .ofError failure.kind failure.path error := by
  unfold outcome at h
  rcases List.mem_append.mp h with hsource | hlog
  · obtain ⟨path, -, hfailure⟩ := List.mem_filterMap.mp hsource
    unfold sourceFailure? readText at hfailure
    cases hbytes : read path with
    | ok bytes =>
      rw [hbytes] at hfailure
      cases hfailure
    | error error =>
      rw [hbytes] at hfailure
      cases hfailure
      exact ⟨error, hbytes, rfl⟩
  · obtain ⟨log, -, hfailure⟩ := List.mem_filterMap.mp hlog
    unfold logFailure? readText at hfailure
    cases hbytes : read log.path with
    | ok bytes =>
      rw [hbytes] at hfailure
      cases hfailure
    | error error =>
      rw [hbytes] at hfailure
      -- a missing log is no failure, and each other cause is recorded
      cases error <;> cases hfailure <;> exact ⟨_, hbytes, rfl⟩

lemma failures_readable (inputs : Inputs) :
    (outcome read markers (readable read inputs)).failures = [] := by
  have hsources : (inputs.sources.filter (canRead read)).filter (fun path => !canRead read path) =
      [] := by
    rw [List.filter_eq_nil_iff]
    intro path hpath
    rw [(List.mem_filter.mp hpath).2]
    exact Bool.false_ne_true
  have hlogs : (inputs.logs.filter fun log => canRead read log.path).filter
      (fun log => isBroken read log.path) = [] := by
    rw [List.filter_eq_nil_iff]
    intro log hlog
    have hread := (List.mem_filter.mp hlog).2
    unfold canRead at hread
    unfold isBroken
    cases hbytes : read log.path with
    | ok bytes => exact Bool.false_ne_true
    | error error =>
      rw [hbytes] at hread
      cases hread
  have hfailures := map_fileOf_failures read markers (readable read inputs)
  unfold readable at hfailures ⊢
  rw [hsources, hlogs] at hfailures
  exact List.map_eq_nil_iff.mp hfailures

/-! ## The whole run -/

/-- The outcome of a run, with the notice that it is complete. -/
def completed (inputs : Inputs) : Outcome :=
  let outcome := outcome read markers inputs
  { outcome with notices := outcome.notices ++ [.complete outcome.tally] }

/-- A run comes to its outcome if and only if the markers are valid, whatever its files are. -/
theorem run_eq_ok_iff (config : Config) (inputs : Inputs) (result : Outcome) :
    run read config inputs = .ok result ↔
      config.markers.fault? = none ∧ result = completed read config.markers inputs := by
  unfold run Markers.validate
  cases config.markers.fault? with
  | some fault => simp [Except.map]
  | none => simp [Except.map, completed, eq_comm]

/-- A run fails if and only if the markers do, whatever its files are. -/
theorem run_eq_error_iff (config : Config) (inputs : Inputs) (fault : Markers.Fault) :
    run read config inputs = .error fault ↔ config.markers.fault? = some fault := by
  unfold run Markers.validate
  cases config.markers.fault? with
  | some other => simp [Except.map]
  | none => simp [Except.map]

/-- With valid markers a run has an outcome whatever files can be read. What it finds is what the
run on the files that can be read finds, and its failures are the sources that cannot be read and
then the logs that cannot be read although they exist, each with its own cause. -/
theorem run_readable (config : Config) (inputs : Inputs)
    (hmarkers : config.markers.fault? = none) :
    ∃ whole rest, run read config inputs = .ok whole ∧
      run read config (readable read inputs) = .ok rest ∧
      whole.registry = rest.registry ∧ whole.measurements = rest.measurements ∧
      whole.report = rest.report ∧ whole.report.totals = rest.report.totals ∧
      whole.failures.map fileOf =
        (inputs.sources.filter fun path => !canRead read path).map (fun path => (.source, path)) ++
          (inputs.logs.filter fun log => isBroken read log.path).map
            (fun log => (.log, log.path)) ∧
      (∀ failure ∈ whole.failures, ∃ error, read failure.path = .error error ∧
        failure = .ofError failure.kind failure.path error) ∧
      rest.failures = [] := by
  have hregistry : (completed read config.markers inputs).registry =
      (completed read config.markers (readable read inputs)).registry :=
    (scanSources_filter read config.markers inputs.sources).symm
  have hmeasurements : (completed read config.markers inputs).measurements =
      (completed read config.markers (readable read inputs)).measurements := by
    show repair _ _ = repair _ (List.flatMap _ (List.filter _ _))
    rw [flatMap_measurementsOfLog_filter]
    exact congrArg (repair · _) hregistry
  -- the report is built from these two, and from nothing else
  have hreport : (completed read config.markers inputs).report =
      (completed read config.markers (readable read inputs)).report :=
    congrArg₂ Report.build hregistry hmeasurements
  refine ⟨completed read config.markers inputs, completed read config.markers (readable read inputs),
    (run_eq_ok_iff read config _ _).mpr ⟨hmarkers, rfl⟩,
    (run_eq_ok_iff read config _ _).mpr ⟨hmarkers, rfl⟩,
    hregistry, hmeasurements, hreport, congrArg Report.totals hreport, ?_, ?_, ?_⟩
  · exact map_fileOf_failures read config.markers inputs
  · intro failure hfailure
    exact eq_ofError_of_mem_failures read config.markers hfailure
  · exact failures_readable read config.markers inputs

/-- A source that cannot be read is not merged with the source of its base name after it, and of two
logs that cannot be read only the one that exists is a failure. -/
theorem run_readable_same_name :
    let read : ReadFile := fun path =>
      if path.text = "a/x.cu".toList then
        .ok (Utf8.encode "// @kernel\n__global__ void f(int n)\n".toList)
      else if path.text = "1.log".toList then .ok (Utf8.encode "[BEST] bx=1\n".toList)
      else if path.text = "2.log".toList then .error .notFound
      else .error .isDirectory
    let log (path : Text) : LogFile := ⟨"x.cu".toList, .float, ⟨path⟩⟩
    let inputs : Inputs := ⟨[⟨"b/x.cu".toList⟩, ⟨"a/x.cu".toList⟩],
      [log "3.log".toList, log "2.log".toList, log "1.log".toList]⟩
    ∃ whole rest, run read (.ofName []) inputs = .ok whole ∧
      run read (.ofName []) ⟨[⟨"a/x.cu".toList⟩], [log "1.log".toList]⟩ = .ok rest ∧
      whole.report = rest.report ∧
      whole.failures.map fileOf =
        [(.source, ⟨"b/x.cu".toList⟩), (.log, ⟨"3.log".toList⟩)] := by
  intro read log inputs
  obtain ⟨whole, rest, hwhole, hrest, -, -, hreport, -, hfailures, -, -⟩ :=
    run_readable read (.ofName []) inputs (by decide +kernel)
  have hreadable : readable read inputs = ⟨[⟨"a/x.cu".toList⟩], [log "1.log".toList]⟩ := by
    decide +kernel
  have hfiles : (inputs.sources.filter fun path => !canRead read path).map
        (fun path => (FileKind.source, path)) ++
      (inputs.logs.filter fun log => isBroken read log.path).map
        (fun log => (FileKind.log, log.path)) =
      [(.source, ⟨"b/x.cu".toList⟩), (.log, ⟨"3.log".toList⟩)] := by decide +kernel
  rw [hreadable] at hrest
  rw [hfiles] at hfailures
  exact ⟨whole, rest, hwhole, hrest, hreport, hfailures⟩

end Census

end KernelCensus
