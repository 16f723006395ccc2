import KernelCensus.Proofs.Files.Join
import KernelCensus.Proofs.Project.Discovery
import KernelCensus.Proofs.Text.Cut

/-!
# Logs named by the user

A log that is found by name can be given by a specification as well: by the name of its source or
by the stem of that. The first source of a stem is also the first that claims the logs of the stem,
so both ways lead to the same log.

* `LogFile.same_named_iff`: when two sources ask for one log.
* `LogFile.specParts?_specOf`, `LogFile.specSource_of_name`, `LogFile.specSource_of_stem`: the parts
  of a specification and what its source means.
* `LogFile.ofSpec_discovered`: specifications of logs that are found by name.
-/

namespace KernelCensus

lemma Path.not_isBlank_of_isAbsolute {path : Path} (h : path.isAbsolute = true) :
    Text.isBlank path.text = false := by
  cases htext : path.text with
  | nil => simp [isAbsolute, htext] at h
  | cons c rest =>
    have hslash : c = '/' := by simpa [isAbsolute, htext] using h
    have hletter : Unicode.isWhiteSpace '/' = false := by decide
    rw [hslash, Text.isBlank, List.all_cons, hletter, Bool.false_and]

namespace LogFile

/-! ## Logs at one path -/

/-- The name of the log of a stem under a precision. -/
def logName (stem : Text) (precision : Precision) : Text :=
  stem ++ Text.concat [".", precision.name, ".log"]

/-- Names of logs are different if their stems or their precisions are. -/
lemma logName_injective {stem stem' : Text} {precision precision' : Precision}
    (h : logName stem precision = logName stem' precision') :
    stem = stem' ∧ precision = precision' := by
  unfold logName at h
  -- no precision with what stands around it ends in another one
  have hsuffix := List.suffix_or_suffix_of_suffix ⟨stem, h⟩ (List.suffix_append stem' _)
  have hprecision : precision = precision' := by
    revert hsuffix
    cases precision <;> cases precision' <;> decide
  rw [hprecision] at h
  exact ⟨List.append_cancel_right h, hprecision⟩

/-- The name of a log is that of an entry, if there is no slash in its stem. -/
lemma isPlain_logName {stem : Text} (h : '/' ∉ stem) (precision : Precision) :
    '/' ∉ logName stem precision ∧
      Path.Part.ofPiece? (logName stem precision) = some (.entry (logName stem precision)) := by
  have hrest : '/' ∉ Text.concat [".", precision.name, ".log"] := by cases precision <;> decide
  have hlength : 2 < (Text.concat [".", precision.name, ".log"]).length := by
    cases precision <;> decide
  have hshort {piece : Text} (hpiece : piece.length ≤ 2) : logName stem precision ≠ piece := by
    rintro rfl
    rw [logName, List.length_append] at hpiece
    omega
  refine ⟨fun hmem => (List.mem_append.mp hmem).elim h hrest, ?_⟩
  rw [Path.Part.ofPiece?, if_neg (not_or.mpr ⟨hshort (by decide), hshort (by decide)⟩),
    if_neg (hshort (by decide))]

/-- Two sources whose stems have no slash ask for one log only if they have one stem, and only under
one precision. -/
theorem same_named_iff (logsDir : Path) {source source' : SourceFile} (hsource : '/' ∉ source.stem)
    (hsource' : '/' ∉ source'.stem) (precision precision' : Precision) :
    (named logsDir source precision).path.same (named logsDir source' precision').path = true ↔
      source.stem = source'.stem ∧ precision = precision' := by
  have hparts {source : SourceFile} (h : '/' ∉ source.stem) (precision : Precision) :
      (named logsDir source precision).path.parts =
        logsDir.parts ++ [.entry (logName source.stem precision)] :=
    Path.parts_join_entry logsDir (isPlain_logName h precision).1 (isPlain_logName h precision).2
  rw [Path.same, beq_iff_eq, hparts hsource, hparts hsource']
  constructor
  · intro h
    have hlast := List.singleton_inj.mp (List.append_cancel_left h)
    exact logName_injective (Path.Part.entry.inj hlast)
  · rintro ⟨hstem, rfl⟩
    rw [hstem]

/-- Looking for a pair by either part finds the first with these parts. -/
lemma find?_product {α β : Type} {p : α × β → Bool} {f : α → Bool} {g : β → Bool} {xs : List α}
    (ys : List β) (h : ∀ x ∈ xs, ∀ y, p (x, y) = (f x && g y)) :
    (xs ×ˢ ys).find? p = (xs.find? f).bind fun x => (ys.find? g).map (Prod.mk x) := by
  induction xs with
  | nil => rfl
  | cons x xs ih =>
    obtain ⟨hx, hxs⟩ := List.forall_mem_cons.mp h
    have hrow : (ys.map (Prod.mk x)).find? p =
        if f x then (ys.find? g).map (Prod.mk x) else none := by
      have hp : (p ∘ Prod.mk x) = fun y => f x && g y := funext hx
      rw [List.find?_map, hp]
      cases f x with
      | true => simp
      | false => simp
    rw [List.product_cons, List.find?_append, hrow, ih hxs, List.find?_cons]
    cases f x with
    | false => rfl
    | true =>
      cases ys.find? g with
      | none => simp
      | some y => simp

/-- Of the sources with one stem the first has the logs that are found by name. -/
lemma find?_stem_of_mem_discover {logsDir : Path} {sources : List Path}
    (hnames : ∀ path ∈ sources, path.fileName? ≠ none) {precisions : List Precision}
    {log : LogFile} (h : log ∈ discover logsDir sources precisions) :
    ∃ path, sources.find? (fun other =>
        (SourceFile.ofPath other).stem == (SourceFile.ofPath path).stem) = some path ∧
      log = named logsDir (SourceFile.ofPath path) log.precision := by
  have hslash : ∀ path ∈ sources, '/' ∉ (SourceFile.ofPath path).stem := fun path hpath hmem =>
    SourceFile.slash_not_mem_name (hnames path hpath)
      ((SourceFile.stem_isPrefix _).subset hmem)
  obtain ⟨⟨path, precision⟩, hfind, rfl⟩ := exists_claimant_of_mem_discover _ _ _ h
  have hpath : path ∈ sources :=
    (List.mem_product.mp (List.mem_of_find?_eq_some hfind)).1
  have hsame : ∀ other ∈ sources, ∀ precision',
      (ofPair logsDir (other, precision')).path.same (ofPair logsDir (path, precision)).path =
        ((SourceFile.ofPath other).stem == (SourceFile.ofPath path).stem &&
          precision' == precision) := by
    intro other hother precision'
    rw [Bool.eq_iff_iff, Bool.and_eq_true, beq_iff_eq, beq_iff_eq]
    exact same_named_iff logsDir (hslash other hother) (hslash path hpath) precision' precision
  rw [find?_product precisions hsame, Option.bind_eq_some_iff] at hfind
  obtain ⟨first, hfirst, hpair⟩ := hfind
  obtain ⟨precision', -, heq⟩ := Option.map_eq_some_iff.mp hpair
  cases heq
  exact ⟨path, hfirst, rfl⟩

/-! ## Specifications -/

/-- The specification of a log, with its source given by name or by stem. -/
def specOf (source : Text) (log : LogFile) : Text :=
  Text.concat [source, ":", log.precision.name, ":", log.path.text]

/-- A specification has the parts it is made of, whatever colons are in the path. -/
lemma specParts?_specOf {source : Text} {log : LogFile} (hblank : Text.isBlank source = false)
    (hcolon : ':' ∉ source) (hpath : Text.isBlank log.path.text = false) :
    specParts? (specOf source log) = some (source, log.precision.name, log.path.text) := by
  have hspec : specOf source log =
      source ++ ':' :: (log.precision.name ++ ':' :: log.path.text) := by
    simp [specOf, Text.concat]
  have hprecision : ':' ∉ log.precision.name := by cases log.precision <;> decide
  simp only [specParts?, hspec, Text.cut?_singleton_append hcolon,
    Text.cut?_singleton_append hprecision, Option.bind_eq_bind, Option.bind_some, hblank, hpath,
    Bool.or_self, if_neg Bool.false_ne_true]

/-- A specification with an absolute path is read as its log, under the source that is meant. -/
lemma ofSpec_specOf (layout : Layout) (sources : List Path) {source : Text} {log : LogFile}
    (hblank : Text.isBlank source = false) (hcolon : ':' ∉ source)
    (habsolute : log.path.isAbsolute = true) :
    ofSpec layout sources (specOf source log) =
      .ok { log with source := specSource sources source } := by
  have hparts := specParts?_specOf hblank hcolon (Path.not_isBlank_of_isAbsolute habsolute)
  have hprecision : Precision.parse log.precision.name = .ok log.precision := by
    cases log.precision <;> rfl
  have hpath : layout.resolve log.path.text = log.path := by
    rw [Layout.resolve, Path.join, if_pos habsolute]
  rw [ofSpec, hparts]
  simp only [hprecision, hpath]

lemma specSource_of_name {sources : List Path} {path : Path} (h : path ∈ sources) :
    specSource sources (SourceFile.ofPath path).name = (SourceFile.ofPath path).name := by
  unfold specSource
  dsimp only
  split
  · next source hfind =>
    have hname := List.find?_some hfind
    exact eq_of_beq hname
  · next hfind =>
    rw [List.find?_eq_none] at hfind
    exact absurd (beq_self_eq_true _) (hfind _ (List.mem_map_of_mem h))

/-- A stem that is not the name of a listed source means the first source of this stem. -/
lemma specSource_of_stem {sources : List Path} {path : Path} {stem : Text}
    (hnone : ∀ other ∈ sources, (SourceFile.ofPath other).name ≠ stem)
    (hfirst : sources.find? (fun other => (SourceFile.ofPath other).stem == stem) = some path) :
    specSource sources stem = (SourceFile.ofPath path).name := by
  have hname : (sources.map SourceFile.ofPath).find? (fun source => source.name == stem) = none := by
    rw [List.find?_eq_none]
    intro source hsource heq
    obtain ⟨other, hother, rfl⟩ := List.mem_map.mp hsource
    exact hnone other hother (eq_of_beq heq)
  have hstem : (sources.map SourceFile.ofPath).find? (fun source => source.stem == stem) =
      some (SourceFile.ofPath path) := by
    rw [List.find?_map, Option.map_eq_some_iff]
    exact ⟨path, hfirst, rfl⟩
  simp only [specSource, hname, hstem]

/-! ## Both ways -/

/-- A log that is found by name in an absolute directory belongs to a listed source. If the name of
this source can stand in a specification, the specification with the name is read as just that log.
So is the one with the stem of the source, unless that is blank or the name of a listed source. -/
theorem ofSpec_discovered (layout : Layout) {logsDir : Path} (habsolute : logsDir.isAbsolute = true)
    {sources : List Path} (hnames : ∀ path ∈ sources, path.fileName? ≠ none)
    {precisions : List Precision} {log : LogFile}
    (hlog : log ∈ discover logsDir sources precisions)
    (hblank : Text.isBlank log.source = false) (hcolon : ':' ∉ log.source) :
    ofSpec layout sources (specOf log.source log) = .ok log ∧
    (∃ path ∈ sources, (SourceFile.ofPath path).name = log.source) ∧
    ∀ path ∈ sources, (SourceFile.ofPath path).name = log.source →
      Text.isBlank (SourceFile.ofPath path).stem = false →
      (∀ other ∈ sources, (SourceFile.ofPath other).name ≠ (SourceFile.ofPath path).stem) →
        ofSpec layout sources (specOf (SourceFile.ofPath path).stem log) = .ok log := by
  obtain ⟨first, hfirst, hnamed⟩ := find?_stem_of_mem_discover hnames hlog
  have hmem : first ∈ sources := List.mem_of_find?_eq_some hfirst
  have hsource : (SourceFile.ofPath first).name = log.source := (congrArg source hnamed).symm
  have hpath : log.path.isAbsolute = true := by
    rw [hnamed]
    exact Path.isAbsolute_join habsolute _
  refine ⟨?_, ⟨first, hmem, hsource⟩, ?_⟩
  · rw [ofSpec_specOf layout sources hblank hcolon hpath, ← hsource, specSource_of_name hmem,
      hsource]
  · intro path hlisted hname hstem hnone
    -- sources of one name have one stem, and no character of the stem is a colon
    have hstems : (SourceFile.ofPath path).stem = (SourceFile.ofPath first).stem := by
      rw [SourceFile.stem, SourceFile.stem, hname, hsource]
    have hcolon' : ':' ∉ (SourceFile.ofPath path).stem := fun hmem =>
      hcolon (hname ▸ (SourceFile.stem_isPrefix _).subset hmem)
    rw [ofSpec_specOf layout sources hstem hcolon' hpath,
      specSource_of_stem hnone (hstems ▸ hfirst), hsource]

/-- A source that shares its stem with a later one, and a directory with a colon in its path. -/
theorem ofSpec_discovered_colon :
    let layout := Layout.ofRoot ⟨"/p".toList⟩
    let sources : List Path := [⟨"x/reduce.v2.cu".toList⟩, ⟨"y/reduce.v2.cuh".toList⟩]
    let log : LogFile :=
      ⟨"reduce.v2.cu".toList, .float, ⟨"/logs:1/reduce.v2.float.log".toList⟩⟩
    log ∈ discover ⟨"/logs:1".toList⟩ sources [.float] ∧
      ofSpec layout sources "reduce.v2.cu:float:/logs:1/reduce.v2.float.log".toList = .ok log ∧
      ofSpec layout sources "reduce.v2:float:/logs:1/reduce.v2.float.log".toList = .ok log := by
  intro layout sources log
  have hnames : ∀ path ∈ sources, path.fileName? ≠ none := by decide +kernel
  have hlog : log ∈ discover ⟨"/logs:1".toList⟩ sources [.float] := by decide +kernel
  have hspec : specOf log.source log = "reduce.v2.cu:float:/logs:1/reduce.v2.float.log".toList := by
    decide +kernel
  have hstemSpec : specOf (SourceFile.ofPath ⟨"x/reduce.v2.cu".toList⟩).stem log =
      "reduce.v2:float:/logs:1/reduce.v2.float.log".toList := by decide +kernel
  obtain ⟨hname, -, hstem⟩ := ofSpec_discovered layout (by decide) hnames hlog (by decide +kernel)
    (by decide)
  have hfirst := hstem ⟨"x/reduce.v2.cu".toList⟩ (by decide) (by decide +kernel)
    (by decide +kernel) (by decide +kernel)
  rw [hspec] at hname
  rw [hstemSpec] at hfirst
  exact ⟨hlog, hname, hfirst⟩

end LogFile

end KernelCensus
