import KernelCensus.Command.Run
import KernelCensus.Proofs.Project.Loading
import KernelCensus.Proofs.Project.Work

/-!
# Before a report is written

A report is prepared by finding the root, the configuration, the sources and the logs. All that can
reject a report is in there, and no file other than the configuration is read. The run after it
never fails, whatever comes of reading sources and logs.

* `Command.prepare`, `Command.planReport_eq`: the preparation.
* `Command.ensures_prepare`, `Command.ensures_runCensus`: what the steps come to.
* `Command.ensures_prepare_of_rejected`: logs that are rejected.
-/

namespace KernelCensus

/-- Whether a problem rejects what is given, such as a configuration, a source that cannot be listed
or the specification of a log. The other problems are those of changes. -/
def Problem.IsRejection : Problem → Prop
  | .change _ _ _ => False
  | _ => True

/-- Whether the specification of a log is malformed or its precision is none. -/
def LogFile.IsRejected (spec : Text) : Prop :=
  match specParts? spec with
  | none => True
  | some (_, precision, _) => Precision.ofText? precision = none

open Project (Opened)

/-! ## Opening -/

namespace Project

variable (disk : Disk Id)

lemma ensures_currentPath :
    Work.Ensures (currentPath disk) (fun _ => True) Problem.IsRejection := by
  refine (Work.ensures_look _).bind fun found _ => ?_
  exact (Work.ensures_check_of_forall found fun _ => trivial).imp (fun _ _ => trivial) fun _ => id

lemma ensures_root (path : Path) :
    Work.Ensures (root disk path) (fun _ => True) Problem.IsRejection := by
  unfold root
  split
  · exact ensures_currentPath disk
  · refine (Work.ensures_look _).bind fun found _ => ?_
    split
    · exact Work.ensures_pure trivial
    · exact (ensures_currentPath disk).bind fun _ _ => Work.ensures_pure trivial

/-- The configuration of a project is rejected for what is in its file. -/
lemma isRejection_of_configOf {file : Path} {contents : Except FileError Bytes} {problem : Problem}
    (h : configOf file contents = .error problem) : problem.IsRejection := by
  unfold configOf at h
  split at h
  · cases h
    trivial
  · split at h
    · cases h
      trivial
    · split at h
      · cases h
        trivial
      · split at h
        · cases h
        · cases h
          trivial

/-- A project is opened under a configuration with valid markers, or a configuration is rejected. -/
lemma ensures_openWith (layout : Layout) (configFile : Option Text) :
    Work.Ensures (openWith disk layout configFile)
      (fun project => ∃ config : Config, config.markers.validate = .ok config.markers ∧
        project = .ofConfig layout config) Problem.IsRejection := by
  unfold openWith
  cases configFile with
  | some file =>
    refine (Work.ensures_look _).bind fun contents _ => ?_
    refine (Work.ensures_check_of_forall _ fun _ => trivial).bind fun config hconfig => ?_
    exact Work.ensures_pure ⟨config, Config.validate_of_ofFile hconfig, rfl⟩
  | none =>
    refine (Work.ensures_look _).bind fun isFile _ => ?_
    split
    · refine (Work.ensures_look _).bind fun contents _ => ?_
      refine ((Work.ensures_check _ _).imp (fun _ h => h) ?_).bind fun config hconfig => ?_
      · rintro _ ⟨problem, hproblem, rfl⟩
        exact isRejection_of_configOf hproblem
      · exact Work.ensures_pure ⟨config, Config.validate_of_configOf hconfig, rfl⟩
    · refine (Work.ensures_note _).bind fun _ _ => ?_
      exact Work.ensures_pure ⟨_, rfl, rfl⟩

/-- Where the configuration of a project is read, if it has one. -/
def configPath (layout : Layout) (configFile : Option Text) : Path :=
  match configFile with
  | some file => layout.resolve file
  | none => layout.configFile

/-- No file but the configuration is read to open a project. -/
lemma openWith_of_read {layout : Layout} {configFile : Option Text}
    {read : Path → Id (Except FileError Bytes)}
    (h : read (configPath layout configFile) = disk.read (configPath layout configFile)) :
    openWith { disk with read } layout configFile = openWith disk layout configFile := by
  cases configFile with
  | some file =>
    replace h : read (layout.resolve file) = disk.read (layout.resolve file) := h
    simp only [openWith, h]
  | none =>
    replace h : read layout.configFile = disk.read layout.configFile := h
    simp only [openWith, openOwn, h]

lemma ensures_sources (layout : Layout) (entries extensions : List Text) :
    Work.Ensures (sources disk layout entries extensions) (fun _ => True) Problem.IsRejection := by
  have hentry : ∀ entry ∈ entries, Work.Ensures (entryAt disk (entryPath layout entry))
      (fun _ => True) Problem.IsRejection := by
    intro entry _
    unfold entryAt
    refine (Work.ensures_look _).bind fun isDirectory _ => ?_
    split
    · refine (Work.ensures_look _).bind fun listed _ => ?_
      exact (Work.ensures_check_of_forall listed fun _ => trivial).bind
        fun names _ => Work.ensures_pure trivial
    · exact Work.ensures_pure trivial
  exact (Work.Ensures.mapM hentry).bind fun _ _ => Work.ensures_pure trivial

end Project

/-! ## Logs -/

/-- A specification that is rejected is rejected in every project. -/
lemma LogFile.exists_error_of_isRejected {spec : Text} (h : IsRejected spec) (layout : Layout)
    (sources : List Path) : ∃ error, ofSpec layout sources spec = .error error := by
  cases hparts : specParts? spec with
  | none => exact ⟨.malformed spec, by rw [ofSpec, hparts]⟩
  | some parts =>
    obtain ⟨source, precision, path⟩ := parts
    have hnone : Precision.ofText? precision = none := by
      rwa [IsRejected, hparts] at h
    refine ⟨.precision ⟨precision⟩, ?_⟩
    rw [ofSpec, hparts]
    simp only [Precision.parse, hnone]

/-- A list with a rejected specification is rejected, wherever it stands. -/
lemma LogFile.mapM_ofSpec_error {specs : List Text} (layout : Layout) (sources : List Path)
    (h : ∃ spec ∈ specs, IsRejected spec) :
    ∃ error, specs.mapM (ofSpec layout sources) = .error error := by
  induction specs with
  | nil =>
    obtain ⟨spec, hmem, -⟩ := h
    exact absurd hmem List.not_mem_nil
  | cons spec specs ih =>
    rw [List.mapM_cons]
    cases hspec : ofSpec layout sources spec with
    | error error => exact ⟨error, rfl⟩
    | ok log =>
      obtain ⟨other, hmem, hother⟩ := h
      have hrest : ∃ spec ∈ specs, IsRejected spec := by
        rcases List.mem_cons.mp hmem with rfl | hmem
        · obtain ⟨error, herror⟩ := exists_error_of_isRejected hother layout sources
          rw [herror] at hspec
          cases hspec
        · exact ⟨other, hmem, hother⟩
      obtain ⟨error, herror⟩ := ih hrest
      exact ⟨error, by rw [herror]; rfl⟩

namespace Command

lemma ensures_logFiles (project : Opened) (sources : List Path) (given : List Text) :
    Work.Ensures (logFiles project sources given : Work Id (List LogFile)) (fun _ => True)
      Problem.IsRejection := by
  unfold logFiles
  split
  · exact (Work.ensures_note _).bind fun _ _ => Work.ensures_pure trivial
  · exact (Work.ensures_check_of_forall _ fun _ => trivial).imp (fun _ _ => trivial) fun _ => id

/-- There are no logs if the specification of one is rejected. -/
lemma ensures_logFiles_of_rejected (project : Opened) (sources : List Path) {given : List Text}
    (h : ∃ spec ∈ given, LogFile.IsRejected spec) :
    Work.Ensures (logFiles project sources given : Work Id (List LogFile)) (fun _ => False)
      Problem.IsRejection := by
  obtain ⟨error, herror⟩ := LogFile.mapM_ofSpec_error project.layout sources h
  have hgiven : given.isEmpty = false := by
    obtain ⟨spec, hmem, -⟩ := h
    cases given with
    | nil => exact absurd hmem List.not_mem_nil
    | cons _ _ => rfl
  unfold logFiles
  rw [hgiven, if_neg Bool.false_ne_true, herror]
  exact (Work.ensures_check_of_forall _ fun _ => trivial).imp (fun _ h => nomatch h) fun _ => id

/-! ## The preparation -/

/-- The project of a report and what its run is to read. -/
def prepare {m : Type → Type} [Monad m] (disk : Disk m) (options : ReportOptions) :
    Work m (Opened × Inputs) := do
  let root ← Project.root disk ⟨options.root⟩
  let project ← Project.openWith disk (.ofRoot root) options.config
  let sources ← sourcePaths disk project options.sources
  let logs ← logFiles project sources options.logs
  return (project, ⟨sources, logs⟩)

variable (disk : Disk Id) (options : ReportOptions)

/-- A report is prepared, and then the census is run. -/
lemma planReport_eq :
    planReport disk options = (do
      let prepared ← prepare disk options
      let run ← runCensus disk prepared.1 prepared.2
      return reportPlan run options.json) := by
  simp only [planReport, prepare, bind_assoc, pure_bind]

/-- A prepared project has valid markers, and a report that cannot be prepared is rejected. -/
theorem ensures_prepare :
    Work.Ensures (prepare disk options)
      (fun prepared => prepared.1.config.markers.validate = .ok prepared.1.config.markers)
      Problem.IsRejection := by
  refine (Project.ensures_root disk _).bind fun root _ => ?_
  refine (Project.ensures_openWith disk _ _).bind fun project hproject => ?_
  refine (Project.ensures_sources disk _ _ _).bind fun sources _ => ?_
  refine (ensures_logFiles project sources _).bind fun logs _ => Work.ensures_pure ?_
  obtain ⟨config, hvalid, rfl⟩ := hproject
  exact hvalid

/-- No file but the configuration is read to prepare a report. -/
theorem answer_prepare_of_read {project : Opened} {inputs : Inputs} {notices after : List Notice}
    {read : Path → Id (Except FileError Bytes)}
    (h : Work.answer (prepare disk options) notices = (.ok (project, inputs), after))
    (hread : read (Project.configPath project.layout options.config) =
      disk.read (Project.configPath project.layout options.config)) :
    Work.answer (prepare { disk with read } options) notices = (.ok (project, inputs), after) := by
  obtain ⟨root, rooted, hroot, hafter⟩ := Work.answer_bind_eq_ok h
  obtain ⟨opened, _, hopen, hrest⟩ := Work.answer_bind_eq_ok hafter
  obtain ⟨config, -, rfl⟩ := (Project.ensures_openWith disk _ _).of_ok hopen
  obtain rfl : project = .ofConfig (.ofRoot root) config := by
    obtain ⟨sources, _, -, hlogs⟩ := Work.answer_bind_eq_ok hrest
    obtain ⟨logs, _, -, hpure⟩ := Work.answer_bind_eq_ok hlogs
    cases hpure
    rfl
  have hsame : Project.openWith { disk with read } (.ofRoot root) options.config =
      Project.openWith disk (.ofRoot root) options.config := Project.openWith_of_read disk hread
  -- nothing is read to find the root, nor behind the opening
  have hroot' : Work.answer (Project.root { disk with read } ⟨options.root⟩) notices =
      (.ok root, rooted) := hroot
  rw [prepare, Work.answer_bind, hroot']
  simp only [hsame]
  exact hafter

/-- No report is prepared if the specification of one of its logs is rejected. -/
lemma ensures_prepare_of_rejected (h : ∃ spec ∈ options.logs, LogFile.IsRejected spec) :
    Work.Ensures (prepare disk options) (fun _ => False) Problem.IsRejection := by
  refine (Project.ensures_root disk _).bind fun root _ => ?_
  refine (Project.ensures_openWith disk _ _).bind fun project _ => ?_
  refine (Project.ensures_sources disk _ _ _).bind fun sources _ => ?_
  exact (ensures_logFiles_of_rejected project sources h).bind fun _ => False.elim

/-! ## The run -/

/-- Whether a run is the census of prepared inputs on the files of a disk, whatever comes of reading
them. -/
structure Finished.IsRunOf (run : Finished) (disk : Disk Id) (opened : Opened) (given : Inputs) :
    Prop where
  project : run.project = opened
  inputs : run.inputs = given
  outcome : ∃ read : Census.ReadFile,
    (∀ path ∈ given.sources ++ given.logs.map LogFile.path, read path = disk.read path) ∧
      Census.run read opened.config given = .ok run.outcome
  metadata : run.metadata = Census.metadata opened.config run.outcome disk.now disk.now

/-- The files that are read are those of the disk. -/
lemma ensures_readAll (paths : List Path) :
    Work.Ensures (readAll disk paths) (fun read => ∀ path ∈ paths, read path = disk.read path)
      (fun _ => False) := by
  have hread : ∀ path ∈ paths, Work.Ensures
      (do return (path, ← Work.look (disk.read path)) : Work Id (Path × Except FileError Bytes))
      (fun entry => entry = (path, disk.read path)) (fun _ => False) := by
    intro path _
    refine (Work.ensures_look _).bind fun contents hcontents => ?_
    exact Work.ensures_pure (by rw [hcontents])
  refine (Work.Ensures.mapM hread).bind fun contents hcontents => Work.ensures_pure ?_
  clear hread
  intro path hmem
  induction hcontents with
  | nil => exact absurd hmem List.not_mem_nil
  | @cons first entry paths entries hentry hentries ih =>
    show (List.lookup path (entry :: entries)).getD _ = _
    rw [hentry, List.lookup_cons]
    split
    · next heq => rw [eq_of_beq heq, Option.getD_some]
    · next hne =>
      refine ih ((List.mem_cons.mp hmem).resolve_left fun heq => ?_)
      rw [heq, beq_self_eq_true] at hne
      cases hne

/-- The census never fails under valid markers. -/
theorem ensures_runCensus {project : Opened} (inputs : Inputs)
    (hvalid : project.config.markers.validate = .ok project.config.markers) :
    Work.Ensures (runCensus disk project inputs) (fun run => run.IsRunOf disk project inputs)
      (fun _ => False) := by
  refine (Work.ensures_look _).bind fun startedAt hstarted => ?_
  refine (ensures_readAll disk _).bind fun read hread => ?_
  refine ((Work.ensures_check _ _).imp (fun _ h => h) ?_).bind fun outcome houtcome => ?_
  · -- the run rejects nothing but markers, and these are valid
    rintro _ ⟨fault, hfault, rfl⟩
    rw [Census.run, hvalid] at hfault
    cases hfault
  · refine (Work.ensures_note _).bind fun _ _ => ?_
    refine (Work.ensures_look _).bind fun finishedAt hfinished => Work.ensures_pure ?_
    exact ⟨rfl, rfl, ⟨read, hread, houtcome⟩, by rw [hstarted, hfinished]⟩

end Command

end KernelCensus
