import KernelCensus.Command.Run
import KernelCensus.Proofs.Command.Preparation
import KernelCensus.Proofs.Files.Contents
import KernelCensus.Proofs.Text.Utf8
import Mathlib

/-!
# What a report changes

A report that is rejected has changed nothing, since all that can reject it comes before its first
change. A report that is written has changed its directory and its five files and nothing else, if
none of these files is a symbolic link. A file that is one is written where the link leads.

* `Command.WritesReport`: the changes of a report.
* `Command.reportOn_changes`: what a report comes to.
* `Command.reportOn_link`: a file of a report that is a symbolic link.
-/

namespace KernelCensus.Command

open Project (Opened)

/-! ## Running -/

/-- Writes a report in a tree, for what there is on a disk to look at. -/
def reportOn (disk : Disk Id) (tree : Tree) (options : ReportOptions) :
    Except Problem Plan × Tree :=
  complete Tree.perform (plan disk (.report options)).run.1 tree

/-- A report on a tree looks at the tree that it changes. -/
lemma runOn_report (tree : Tree) (now : Text) (options : ReportOptions) :
    runOn tree now (.report options) =
      (((reportOn (tree.disk now) tree options).1, (planOn tree now (.report options)).2),
        (reportOn (tree.disk now) tree options).2) :=
  rfl

section
variable (disk : Disk Id) (options : ReportOptions)

/-- Whether a report is prepared with a project and with what its run is to read. -/
def IsPrepared (opened : Opened) (given : Inputs) : Prop :=
  ∃ notices, Work.answer (prepare disk options) [] = (.ok (opened, given), notices)

variable {disk options} {tree : Tree}

/-- A report is prepared in one way. -/
lemma IsPrepared.unique {opened other : Opened} {given others : Inputs}
    (h : IsPrepared disk options opened given) (h' : IsPrepared disk options other others) :
    opened = other ∧ given = others := by
  obtain ⟨_, hanswer⟩ := h
  obtain ⟨_, hanswer'⟩ := h'
  rw [hanswer] at hanswer'
  cases hanswer'
  exact ⟨rfl, rfl⟩

/-- A report is planned from what was prepared for it. -/
lemma run_plan :
    (plan disk (.report options)).run =
      match Work.answer (prepare disk options) [] with
      | (.ok prepared, notices) =>
        Work.answer (do
          let run ← runCensus disk prepared.1 prepared.2
          return reportPlan run options.json) notices
      | (.error failure, notices) => (.error failure, notices) := by
  show Work.answer (planReport disk options) [] = _
  rw [planReport_eq, Work.answer_bind]
  rcases Work.answer (prepare disk options) [] with ⟨failure | prepared, notices⟩
  · rfl
  · rfl

/-- A report that is prepared is planned, after a run on what was prepared. -/
lemma exists_run {opened : Opened} {given : Inputs} (h : IsPrepared disk options opened given) :
    ∃ run, run.IsRunOf disk opened given ∧
      (plan disk (.report options)).run.1 = .ok (reportPlan run options.json) := by
  obtain ⟨notices, hprepared⟩ := h
  have hrun := ensures_runCensus disk given ((ensures_prepare disk options).of_ok hprepared)
  rw [run_plan, hprepared]
  dsimp only
  rw [Work.answer_bind]
  rcases hanswer : Work.answer (runCensus disk opened given) notices with ⟨failure | run, _⟩
  · exact (hrun.of_error hanswer).elim
  · exact ⟨run, hrun.of_ok hanswer, rfl⟩

/-- A report is prepared, or it is rejected without a plan. -/
lemma isPrepared_or_rejected (disk : Disk Id) (options : ReportOptions) :
    (∃ opened given, IsPrepared disk options opened given) ∨
      ∃ problem, problem.IsRejection ∧ (plan disk (.report options)).run.1 = .error problem := by
  rcases hanswer : Work.answer (prepare disk options) [] with ⟨problem | ⟨opened, given⟩, notices⟩
  · refine Or.inr ⟨problem, (ensures_prepare disk options).of_error hanswer, ?_⟩
    rw [run_plan, hanswer]
  · exact Or.inl ⟨opened, given, notices, hanswer⟩

/-- Without a plan nothing is changed. -/
lemma reportOn_of_plan_eq_error {problem : Problem}
    (h : (plan disk (.report options)).run.1 = .error problem) :
    reportOn disk tree options = (.error problem, tree) := by
  rw [reportOn, h]
  rfl

section
variable {planned written : Plan} {after : Tree}

/-- With a plan its changes are made. -/
lemma reportOn_of_plan_eq_ok (h : (plan disk (.report options)).run.1 = .ok planned) :
    reportOn disk tree options =
      ((Change.performAll Tree.perform planned.changes tree).1.map fun _ => planned,
        (Change.performAll Tree.perform planned.changes tree).2) := by
  rw [reportOn, h, complete, StateM.bind_apply]
  rcases Change.performAll Tree.perform planned.changes tree with ⟨problem | ⟨⟩, made⟩
  · rfl
  · rfl

/-- A report with a plan is written if all changes of the plan are made. -/
lemma reportOn_eq_ok (h : (plan disk (.report options)).run.1 = .ok planned)
    (hanswer : reportOn disk tree options = (.ok written, after)) :
    written = planned ∧
      Change.performAll Tree.perform planned.changes tree = (.ok (), after) := by
  rw [reportOn_of_plan_eq_ok h] at hanswer
  rcases hperform : Change.performAll Tree.perform planned.changes tree with ⟨failure | ⟨⟩, made⟩
  · rw [hperform] at hanswer
    cases hanswer
  · rw [hperform] at hanswer
    cases hanswer
    exact ⟨rfl, rfl⟩

/-- A report with a plan fails in a change of the plan. -/
lemma reportOn_eq_error {problem : Problem}
    (h : (plan disk (.report options)).run.1 = .ok planned)
    (hanswer : reportOn disk tree options = (.error problem, after)) :
    ∃ purpose path error, problem = .change purpose path error := by
  rw [reportOn_of_plan_eq_ok h] at hanswer
  rcases hperform : Change.performAll Tree.perform planned.changes tree with ⟨failure | ⟨⟩, made⟩
  · rw [hperform] at hanswer
    cases hanswer
    exact Change.performAll_eq_error hperform
  · rw [hperform] at hanswer
    cases hanswer

end

end

/-! ## Writing -/

/-- The names of the files of a report. -/
def artifactNames : List Text :=
  ["summary.txt", "kernels.csv", "best_results.csv", "report.json", "run_metadata.json"]

/-- Whether the changes of a tree are those of the report of a run: the directory of reports is
there, with those above it, and it has the files of the report. -/
structure WritesReport (before after : Tree) (run : Finished) (home : Location) : Prop where
  current : after.current = before.current
  reached : after.walk true Tree.linkLimit after.current run.project.layout.reportsDir.parts =
    .ok home
  directory : after.node? home = some .directory
  contents : ∀ artifact ∈ artifacts run, after.read artifact.1 = .ok (Utf8.encode artifact.2)
  /-- What is new elsewhere is a directory on the way to the directory of reports. -/
  node? : ∀ location, (∀ name ∈ artifactNames, location ≠ home ++ [name]) →
    after.node? location = before.node? location ∨
      before.node? location = none ∧ after.node? location = some .directory ∧
        ∃ front, front <+: run.project.layout.reportsDir.parts ∧
          after.walk true Tree.linkLimit after.current front = .ok location

/-- The files of a report by their names, with their contents. -/
def artifactEntries (run : Finished) : List (Text × Bytes) :=
  artifactNames.zip ((artifacts run).map fun artifact => Utf8.encode artifact.2)

/-- The changes of a report are its directory and the entries in there. -/
lemma changes_reportPlan (run : Finished) (json : Bool) :
    (reportPlan run json).changes =
      .directory .reportHome run.project.layout.reportsDir ::
        (artifactEntries run).map fun entry =>
          .file .artifact (run.project.layout.reportsDir.join ⟨entry.1⟩) entry.2 :=
  rfl

/-- The changes of a report in a directory, with nothing in its files. -/
def blankChanges (reportsDir : Path) : List Change :=
  .directory .reportHome reportsDir ::
    artifactNames.map fun name => .file .artifact (reportsDir.join ⟨name⟩) []

/-- Whether a report can be written does not depend on what is in its files. -/
lemma performAll_reportPlan (run : Finished) (json : Bool) (tree : Tree) :
    (Change.performAll Tree.perform (reportPlan run json).changes tree).1 =
      (Change.performAll Tree.perform (blankChanges run.project.layout.reportsDir) tree).1 := by
  have hblank : (reportPlan run json).changes.map Change.hollow =
      (blankChanges run.project.layout.reportsDir).map Change.hollow := rfl
  exact Change.performAll_congr hblank tree

/-- The files of a report are the entries in its directory. -/
lemma artifacts_eq (run : Finished) :
    ((artifacts run).map fun artifact => (artifact.1, Utf8.encode artifact.2)) =
      (artifactEntries run).map fun entry =>
        (run.project.layout.reportsDir.join ⟨entry.1⟩, entry.2) :=
  rfl

lemma isPlain_of_mem_artifactNames {name : Text} (h : name ∈ artifactNames) :
    Tree.IsPlain name := by
  have hplain : ∀ name ∈ artifactNames,
      '/' ∉ name ∧ Path.Part.ofPiece? name = some (.entry name) := by
    decide
  exact hplain name h

lemma nodup_artifactNames : artifactNames.Nodup := by decide

lemma mem_artifactNames_of_mem {run : Finished} {entry : Text × Bytes}
    (h : entry ∈ artifactEntries run) : entry.1 ∈ artifactNames := by
  have hnames : (artifactEntries run).map Prod.fst = artifactNames := rfl
  exact hnames ▸ List.mem_map_of_mem h

section
variable {tree made after : Tree} {run : Finished} {home : Location}

/-- The report is there once its directory is made and the entries are written in there. -/
lemma writesReport_of_writesEntries
    (hadds : Tree.AddsDirectories tree made run.project.layout.reportsDir.parts)
    (hwalk : made.walk true Tree.linkLimit made.current run.project.layout.reportsDir.parts =
      .ok home)
    (hdirectory : made.node? home = some .directory)
    (hentries : Tree.WritesEntries made after run.project.layout.reportsDir home
      (artifactEntries run)) : WritesReport tree after run home := by
  have hcurrent : after.current = made.current := hentries.grows.current
  refine ⟨hcurrent.trans hadds.current, ?_, hentries.grows.directory hdirectory, ?_, ?_⟩
  · rw [hcurrent]
    exact hentries.grows.walk hwalk
  · intro artifact hmem
    have hentry : (artifact.1, Utf8.encode artifact.2) ∈ (artifactEntries run).map fun entry =>
        (run.project.layout.reportsDir.join ⟨entry.1⟩, entry.2) :=
      artifacts_eq run ▸ List.mem_map_of_mem hmem
    obtain ⟨entry, hmem, heq⟩ := List.mem_map.mp hentry
    obtain ⟨hpath, hcontents⟩ := Prod.mk.inj heq
    rw [← hpath, ← hcontents]
    exact hentries.contents entry hmem
  · intro location hlocation
    rw [hentries.node? location fun entry hmem =>
      hlocation entry.1 (mem_artifactNames_of_mem hmem)]
    rcases hadds.node? location with heq | ⟨hnone, hnew, front, hfront, hreach⟩
    · exact Or.inl heq
    · refine Or.inr ⟨hnone, hnew, front, hfront, ?_⟩
      rw [hcurrent]
      exact hentries.grows.walk hreach

/-- The changes of a report are made in the directory that its path leads to once it is there. They
are as they should be if none of its files is a symbolic link. -/
theorem writesReport_of_performAll {json : Bool}
    (h : Change.performAll Tree.perform (reportPlan run json).changes tree = (.ok (), after)) :
    ∃ home, (tree.makeDirs run.project.layout.reportsDir).2.walk true Tree.linkLimit tree.current
        run.project.layout.reportsDir.parts = .ok home ∧
      ((∀ name ∈ artifactNames, ∀ target, tree.node? (home ++ [name]) ≠ some (.link target)) →
        WritesReport tree after run home) := by
  rw [changes_reportPlan] at h
  obtain ⟨made, hmade, hwrites⟩ := Change.performAll_cons_eq_ok h
  replace hmade : tree.makeDirs run.project.layout.reportsDir = (.ok (), made) := hmade
  have hadds := tree.addsDirectories_makeDirs run.project.layout.reportsDir
  rw [hmade] at hadds ⊢
  -- the way to the first file goes through the directory
  obtain ⟨next, hfirst, -⟩ := Change.performAll_cons_eq_ok hwrites
  obtain ⟨place, hlocate, -⟩ := Tree.write_eq_ok hfirst
  obtain ⟨home, hwalk, hdirectory, -⟩ := Tree.home_of_locate
    (isPlain_of_mem_artifactNames List.mem_cons_self) hlocate
  rw [← hadds.current]
  refine ⟨home, hwalk, fun hlink => writesReport_of_writesEntries hadds hwalk hdirectory ?_⟩
  refine Tree.writesEntries_of_performAll (fun entry hmem => ?_) nodup_artifactNames hwalk
    (fun entry hmem target hnode => ?_) hwrites
  · exact isPlain_of_mem_artifactNames (mem_artifactNames_of_mem hmem)
  · exact hlink _ (mem_artifactNames_of_mem hmem) target (hadds.grows.link.mp hnode)

end

/-! ## What a report comes to -/

/-- A report that is prepared is the one on a run, and the tree alone decides whether it can be
written in its directory. -/
lemma exists_run_reportOn {disk : Disk Id} {options : ReportOptions} {opened : Opened}
    {given : Inputs} (h : IsPrepared disk options opened given) (tree : Tree) :
    ∃ run, run.IsRunOf disk opened given ∧
      (reportOn disk tree options).1 =
        (Change.performAll Tree.perform (blankChanges opened.layout.reportsDir) tree).1.map
          fun _ => reportPlan run options.json := by
  obtain ⟨run, hrun, hplan⟩ := exists_run h
  refine ⟨run, hrun, ?_⟩
  rw [reportOn_of_plan_eq_ok hplan, performAll_reportPlan, hrun.project]

/-- A report that is rejected leaves the tree as it is, and one with a rejected log is rejected
wherever that log stands. A report that is written is that of the run on what was prepared, and it
changes its directory and its files only, if none of these is a symbolic link. A report that is
prepared is written, or fails in a change, whatever comes of reading other files than the
configuration: it comes to the same as before, and to the same as five empty files would. -/
theorem reportOn_changes (disk : Disk Id) (tree : Tree) (options : ReportOptions) :
    (∀ problem after, reportOn disk tree options = (.error problem, after) →
      problem.IsRejection → after = tree) ∧
    ((∃ spec ∈ options.logs, LogFile.IsRejected spec) →
      ∃ problem, problem.IsRejection ∧ reportOn disk tree options = (.error problem, tree)) ∧
    (∀ written after, reportOn disk tree options = (.ok written, after) →
      ∃ opened given run home, IsPrepared disk options opened given ∧
        run.IsRunOf disk opened given ∧ written = reportPlan run options.json ∧
        (tree.makeDirs opened.layout.reportsDir).2.walk true Tree.linkLimit tree.current
          opened.layout.reportsDir.parts = .ok home ∧
        ((∀ name ∈ artifactNames, ∀ target, tree.node? (home ++ [name]) ≠ some (.link target)) →
          WritesReport tree after run home)) ∧
    ∀ opened given read, IsPrepared disk options opened given →
      read (Project.configPath opened.layout options.config) =
        disk.read (Project.configPath opened.layout options.config) →
      ∃ run, run.IsRunOf { disk with read } opened given ∧
        (reportOn { disk with read } tree options).1 =
          (reportOn disk tree options).1.map (fun _ => reportPlan run options.json) ∧
        (reportOn { disk with read } tree options).1.map (fun _ => ()) =
          (Change.performAll Tree.perform (blankChanges opened.layout.reportsDir) tree).1 := by
  refine ⟨?_, ?_, ?_, ?_⟩
  · -- changes are tried only after a preparation that succeeded, and they reject nothing
    intro problem after h hrejection
    rcases isPrepared_or_rejected disk options with ⟨opened, given, hprepared⟩ | ⟨_, -, hplan⟩
    · obtain ⟨run, -, hplan⟩ := exists_run hprepared
      obtain ⟨_, _, _, rfl⟩ := reportOn_eq_error hplan h
      exact hrejection.elim
    · rw [reportOn_of_plan_eq_error hplan] at h
      exact (congrArg Prod.snd h).symm
  · intro hspec
    rcases isPrepared_or_rejected disk options with
      ⟨_, _, _, hprepared⟩ | ⟨problem, hproblem, hplan⟩
    · exact ((ensures_prepare_of_rejected disk options hspec).of_ok hprepared).elim
    · exact ⟨problem, hproblem, reportOn_of_plan_eq_error hplan⟩
  · intro written after h
    rcases isPrepared_or_rejected disk options with ⟨opened, given, hprepared⟩ | ⟨_, -, hplan⟩
    · obtain ⟨run, hrun, hplan⟩ := exists_run hprepared
      obtain ⟨rfl, hperform⟩ := reportOn_eq_ok hplan h
      obtain ⟨home, hhome, hwrites⟩ := writesReport_of_performAll hperform
      rw [hrun.project] at hhome
      exact ⟨opened, given, run, home, hprepared, hrun, rfl, hhome, hwrites⟩
    · rw [reportOn_of_plan_eq_error hplan] at h
      cases h
  · -- the preparation is the same, since it reads the configuration only
    rintro opened given read ⟨notices, hprepared⟩ hread
    obtain ⟨_, -, hbefore⟩ := exists_run_reportOn ⟨notices, hprepared⟩ tree
    obtain ⟨run, hrun, hafter⟩ := exists_run_reportOn
      ⟨notices, answer_prepare_of_read disk options hprepared hread⟩ tree
    refine ⟨run, hrun, ?_, ?_⟩
    · rw [hbefore, hafter]
      cases (Change.performAll Tree.perform (blankChanges opened.layout.reportsDir) tree).1 <;> rfl
    · rw [hafter]
      cases (Change.performAll Tree.perform (blankChanges opened.layout.reportsDir) tree).1 <;> rfl

/-! ### A report with files that cannot be read -/

/-- The project of a directory without a configuration. -/
def plainProject : Opened := .ofConfig (.ofRoot ⟨"/work"⟩) (.ofName "work")

/-- A tree with a source, a log, and a file that is neither. -/
def plainTree : Tree :=
  ⟨[(["work"], .directory), (["work", "notes.txt"], .file (Utf8.encode "to do")),
    (["work", "a.cu"], .file (Utf8.encode "// @kernel\n__global__ void f(int n)\n")),
    (["work", "a.log"], .file (Utf8.encode "[BEST] bx=1\n"))], [("work" : Text)]⟩

/-- The options of a report on that source and that log, and on a source and a log that are not
there. -/
def lostOptions : ReportOptions :=
  ⟨".", none, ["a.cu", "gone.cu"], ["a.cu:float:a.log", "gone.cu:half:gone.log"], false⟩

/-- What a report with these options is to read. -/
def lostInputs : Inputs :=
  ⟨[⟨"/work/a.cu"⟩, ⟨"/work/gone.cu"⟩],
    [⟨"a.cu", .float, ⟨"/work/a.log"⟩⟩, ⟨"gone.cu", .half, ⟨"/work/gone.log"⟩⟩]⟩

/-- A report on files of which some cannot be read is written, and leaves another file as it is. It
is written even if none can be read. With one more log, of an unknown precision, it is rejected. -/
theorem reportOn_changes_lostFiles :
    plainTree.read ⟨"/work/gone.cu"⟩ = .error .notFound ∧
    plainTree.read ⟨"/work/gone.log"⟩ = .error .notFound ∧
    (∃ after run, run.IsRunOf (plainTree.disk []) plainProject lostInputs ∧
      reportOn (plainTree.disk []) plainTree lostOptions = (.ok (reportPlan run false), after) ∧
      WritesReport plainTree after run ["work", "reports"] ∧
      after.node? ["work", "notes.txt"] = some (.file (Utf8.encode "to do"))) ∧
    (∃ run, run.IsRunOf { plainTree.disk [] with read := fun _ => .error .notFound } plainProject
        lostInputs ∧
      (reportOn { plainTree.disk [] with read := fun _ => .error .notFound } plainTree
        lostOptions).1 = .ok (reportPlan run false)) ∧
    ∃ problem, problem.IsRejection ∧
      reportOn (plainTree.disk []) plainTree
          { lostOptions with logs := lostOptions.logs ++ ["a.cu:quad:a.log".toList] } =
        (.error problem, plainTree) := by
  have hprepared : IsPrepared (plainTree.disk []) lostOptions plainProject lostInputs :=
    ⟨[.noConfiguration ⟨"/work"⟩], by cbv⟩
  have hdone : (Change.performAll Tree.perform (blankChanges plainProject.layout.reportsDir)
      plainTree).1 = .ok () := by
    cbv
  obtain ⟨planned, after, hanswer⟩ : ∃ planned after,
      reportOn (plainTree.disk []) plainTree lostOptions = (.ok planned, after) := by
    obtain ⟨_, -, hok⟩ := exists_run_reportOn hprepared plainTree
    rw [hdone] at hok
    exact ⟨_, _, Prod.ext hok rfl⟩
  obtain ⟨-, -, hwritten, hread⟩ := reportOn_changes (plainTree.disk []) plainTree lostOptions
  refine ⟨by cbv, by cbv, ?_, ?_, ?_⟩
  · obtain ⟨opened, given, run, home, hopened, hrun, rfl, hhome, hwrites⟩ :=
      hwritten planned after hanswer
    obtain ⟨rfl, rfl⟩ := hprepared.unique hopened
    have hreports : (plainTree.makeDirs plainProject.layout.reportsDir).2.walk true Tree.linkLimit
        plainTree.current plainProject.layout.reportsDir.parts = .ok ["work", "reports"] := by
      cbv
    obtain rfl := Except.ok.inj (hreports.symm.trans hhome)
    have hnone : ∀ name ∈ artifactNames, plainTree.node? ["work", "reports", name] = none := by
      decide +kernel
    have hreport : WritesReport plainTree after run ["work", "reports"] := by
      apply hwrites
      intro name hname target hlink
      cases (hnone name hname).symm.trans hlink
    have hnotes : plainTree.node? ["work", "notes.txt"] = some (.file (Utf8.encode "to do")) := by
      decide +kernel
    refine ⟨after, run, hrun, hanswer, hreport, ?_⟩
    rcases hreport.node? ["work", "notes.txt"] (by decide +kernel) with hsame | ⟨hnew, -⟩
    · rw [hsame, hnotes]
    · cases hnotes.symm.trans hnew
  · obtain ⟨run, hrun, hsame, -⟩ :=
      hread plainProject lostInputs (fun _ => .error .notFound) hprepared (by cbv)
    rw [hanswer] at hsame
    exact ⟨run, hrun, hsame⟩
  · apply (reportOn_changes (plainTree.disk []) plainTree _).2.1
    exact ⟨"a.cu:quad:a.log".toList, List.mem_append_right _ (List.mem_singleton_self _),
      by cbv⟩

/-! ### A report with a symbolic link for a file -/

/-- The options of a report on the project in the current directory. -/
def plainOptions : ReportOptions := ⟨".", none, [], [], false⟩

/-- A tree whose directory of reports has a symbolic link for the summary, to the export of the
kernels. -/
def linkedTree : Tree :=
  ⟨[(["work"], .directory), (["work", "reports"], .directory),
    (["work", "reports", "summary.txt"], .link ⟨"kernels.csv"⟩)], [("work" : Text)]⟩

/-- The changes of a report on the project, with the contents of its files. -/
def plainChanges (contents : List Bytes) : List Change :=
  .directory .reportHome plainProject.layout.reportsDir ::
    (artifactNames.zip contents).map fun entry =>
      .file .artifact (plainProject.layout.reportsDir.join ⟨entry.1⟩) entry.2

/-- The changes of a run on the project. -/
lemma changes_of_plainProject {run : Finished} (h : run.project = plainProject) (json : Bool) :
    (reportPlan run json).changes =
      plainChanges ((artifacts run).map fun artifact => Utf8.encode artifact.2) := by
  rw [changes_reportPlan, h]
  rfl

/-- A file of a report that is a symbolic link is written where the link leads, even if neither the
directory of reports nor one above it is a link. So what is read as the summary is not the summary
of the run. -/
theorem reportOn_link :
    (∀ location ∈ ([[], ["work"], ["work", "reports"]] : List Location),
      linkedTree.node? location = some .directory) ∧
    ∃ run, run.IsRunOf (linkedTree.disk []) plainProject ⟨[], []⟩ ∧
      (runOn linkedTree [] (.report plainOptions)).1.1 = .ok (reportPlan run false) ∧
      ¬ ∀ artifact ∈ artifacts run, (runOn linkedTree [] (.report plainOptions)).2.read artifact.1 =
        .ok (Utf8.encode artifact.2) := by
  have hprepared : IsPrepared (linkedTree.disk []) plainOptions plainProject ⟨[], []⟩ :=
    ⟨[.noConfiguration ⟨"/work"⟩], by cbv⟩
  have hperform (a b c d e : Bytes) :
      (Change.performAll Tree.perform (plainChanges [a, b, c, d, e]) linkedTree).1 = .ok () ∧
      (Change.performAll Tree.perform (plainChanges [a, b, c, d, e]) linkedTree).2.read
        plainProject.layout.summary = .ok b := by
    cbv
  refine ⟨by decide, ?_⟩
  obtain ⟨run, hrun, hplan⟩ := exists_run hprepared
  have hchanges := changes_of_plainProject hrun.project plainOptions.json
  have hanswer : reportOn (linkedTree.disk []) linkedTree plainOptions = _ :=
    reportOn_of_plan_eq_ok hplan
  rw [hchanges] at hanswer
  obtain ⟨hdone, hread⟩ := hperform (Utf8.encode (Summary.render run.outcome.report))
    (Utf8.encode (Csv.writeKernels run.outcome.registry)) _ _ _
  rw [runOn_report, hanswer]
  refine ⟨run, hrun, congrArg (Except.map fun _ => _) hdone, fun hartifacts => ?_⟩
  have hsummary := hartifacts _ List.mem_cons_self
  rw [hrun.project] at hsummary
  have hencoded := Except.ok.inj (hread.symm.trans hsummary)
  -- the two texts differ in their first character already
  have hhead := congrArg List.head? (Utf8.encode_injective hencoded)
  cases hhead

end KernelCensus.Command
