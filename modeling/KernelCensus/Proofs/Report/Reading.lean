import KernelCensus.Proofs.Number.Decimal
import KernelCensus.Proofs.Report.Summary

/-!
# Reading a summary back

A summary is cut into blocks by its empty lines, and the first line of a block is its heading. In
the block of a source the result lines are indented up to a bracket; under the heading of the
sources that were not scanned every line is a result line. A reader who knows no more than this
finds the result lines of the report, provided that no newline in a name breaks a line of the
summary in two.

* `Summary.resultLines`: the result lines that stand in a text.
* `Summary.resultLines_render`: those of a summary.
-/

namespace KernelCensus

/-- No name and no path that the summary of a report shows has a newline. -/
structure Report.NamesUnbroken (report : Report) : Prop where
  sources : ∀ part ∈ report.sections, '\n' ∉ part.source.name
  merges : ∀ merge ∈ report.merges,
    '\n' ∉ merge.name ∧ '\n' ∉ merge.kept.text ∧ '\n' ∉ merge.merged.text
  orphaned : ∀ m ∈ report.orphaned, '\n' ∉ m.source

/-- What the summary of a report shows of kernels and measurements is free of newlines. -/
structure Report.Tidy (report : Report) : Prop where
  kernels : ∀ part ∈ report.sections, ∀ kernel ∈ part.kernels,
    '\n' ∉ kernel.signature.name ∧ '\n' ∉ kernel.signature.parameters
  records : ∀ record ∈ report.records, record.2.Tidy

namespace Summary

/-! ## The reader -/

/-- Whether a line in the block of a source is indented as its result lines are. -/
def isIndented (line : Text) : Bool := "      [".toList.isPrefixOf line

/-- The result lines of a block. -/
def resultsOfBlock : List Text → List Text
  | [] => []
  | heading :: body =>
    if heading = "Results for unscanned sources:".toList then body else body.filter isIndented

/-- The result lines that stand in a text. -/
def resultLines (text : Text) : List Text :=
  ((text.splitOn '\n').splitOn []).flatMap resultsOfBlock

/-! ## Cutting -/

lemma splitOn_append_cons {α : Type} [BEq α] [LawfulBEq α] {x : α} {front : List α}
    (h : x ∉ front) (back : List α) :
    (front ++ x :: back).splitOn x = front :: back.splitOn x := by
  have hfront : front.splitOn x = [front] := List.splitOn_eq_singleton h
  unfold List.splitOn at hfront ⊢
  have hcut := List.splitOnP_append_cons (p := (· == x)) front back (beq_self_eq_true x)
  rw [hcut, hfront, List.singleton_append]

/-- A text is cut at its newlines into the lines that it is made of, and nothing behind them. -/
lemma splitOn_unlines {lines : List Text} (h : ∀ line ∈ lines, '\n' ∉ line) :
    (Text.unlines lines).splitOn '\n' = lines ++ [[]] := by
  induction lines with
  | nil => rfl
  | cons line lines ih =>
    have hrest := ih fun other hother => h other (List.mem_cons_of_mem line hother)
    show ((line ++ ['\n']) ++ Text.unlines lines).splitOn '\n' = _
    rw [List.append_assoc, List.singleton_append,
      splitOn_append_cons (h line List.mem_cons_self), hrest, List.cons_append]

/-- Lines are cut at empty lines into the blocks that they are made of. -/
lemma splitOn_blocks {front : List Text} {blocks : List (List Text)} (hfront : [] ∉ front)
    (h : ∀ block ∈ blocks, [] ∉ block) :
    (front ++ blocks.flatMap ([] :: ·)).splitOn [] = front :: blocks := by
  induction blocks generalizing front with
  | nil =>
    rw [List.flatMap_nil, List.append_nil]
    exact List.splitOn_eq_singleton hfront
  | cons block blocks ih =>
    have hrest := ih (h block List.mem_cons_self)
      fun other hother => h other (List.mem_cons_of_mem block hother)
    rw [List.flatMap_cons, List.cons_append, splitOn_append_cons hfront, hrest]

/-! ## Blocks -/

/-- The lines for a source below its heading. -/
def sourceBody (part : SourceSection) : List Text :=
  (if part.kernels.isEmpty then ["  (no tagged kernels)".toList]
    else part.kernels.flatMap kernelLines) ++
    titled ["  Unattributed results:"] (part.unattributed.map unattributedLine) ++
    titled ["  Results for unregistered kernels:"] (part.unmatched.map unmatchedLine)

/-- The block of a title and its lines, or nothing if there are no lines. -/
def titledBlock (heading : Text) (lines : List Text) : List (List Text) :=
  if lines.isEmpty then [] else [heading :: lines]

/-- The blocks of a summary behind its title. -/
def blocks (report : Report) : List (List Text) :=
  report.sections.map (fun part => sourceHeading part :: sourceBody part) ++
    titledBlock "Results for unscanned sources:" (report.orphaned.map orphanLine) ++
    titledBlock "Sources merged by base name:" (report.merges.map mergeLine) ++
    [(totalsLines report.totals).tail]

lemma titled_eq_flatMap (heading : Text) (lines : List Text) :
    titled [[], heading] lines = (titledBlock heading lines).flatMap ([] :: ·) := by
  unfold titled titledBlock
  cases lines with
  | nil => rfl
  | cons line lines => exact (List.append_nil _).symm

/-- The lines of a summary are its title and its blocks. -/
lemma lines_eq_blocks (report : Report) :
    lines report = title ++ (blocks report).flatMap ([] :: ·) := by
  unfold lines blocks
  have hsections : report.sections.flatMap sourceLines =
      (report.sections.map fun part => sourceHeading part :: sourceBody part).flatMap
        ([] :: ·) := by
    rw [List.flatMap_map]
    exact List.flatMap_congr fun part _ => rfl
  rw [titled_eq_flatMap, titled_eq_flatMap, hsections]
  simp only [List.flatMap_append, List.append_assoc, List.flatMap_singleton]
  rfl

/-! ### No block has an empty line -/

lemma nil_not_mem_map {α : Type} {print : α → Text} (h : ∀ x, print x ≠ []) (xs : List α) :
    [] ∉ xs.map print := by
  intro hmem
  obtain ⟨x, -, hx⟩ := List.mem_map.mp hmem
  exact h x hx

lemma nil_not_mem_titled {title lines : List Text} (htitle : [] ∉ title) (h : [] ∉ lines) :
    [] ∉ titled title lines := by
  unfold titled
  split
  · exact List.not_mem_nil
  · exact List.not_mem_append htitle h

lemma nil_not_mem_kernelLines (kernel : KernelSection) : [] ∉ kernelLines kernel := by
  unfold kernelLines
  apply List.not_mem_cons_of_ne_of_not_mem (by simp [Text.concat])
  split
  · decide
  · exact nil_not_mem_map (by simp [Text.concat]) kernel.measurements

lemma nil_not_mem_sourceBody (part : SourceSection) : [] ∉ sourceBody part := by
  unfold sourceBody
  refine List.not_mem_append (List.not_mem_append ?_ ?_) ?_
  · split
    · decide
    · intro hmem
      obtain ⟨kernel, -, hkernel⟩ := List.mem_flatMap.mp hmem
      exact nil_not_mem_kernelLines kernel hkernel
  · exact nil_not_mem_titled (by decide)
      (nil_not_mem_map (by simp [unattributedLine, Text.concat]) part.unattributed)
  · exact nil_not_mem_titled (by decide)
      (nil_not_mem_map (by simp [unmatchedLine, Text.concat]) part.unmatched)

lemma nil_not_mem_of_mem_titledBlock {heading : Text} {lines : List Text} (hheading : heading ≠ [])
    (h : [] ∉ lines) : ∀ block ∈ titledBlock heading lines, [] ∉ block := by
  unfold titledBlock
  split
  · exact List.forall_mem_nil _
  · rw [List.forall_mem_singleton]
    exact List.not_mem_cons_of_ne_of_not_mem hheading.symm h

lemma getLast?_sourceHeading (part : SourceSection) : (sourceHeading part).getLast? = some ')' := by
  unfold sourceHeading Text.concat
  rw [List.flatten_cons, List.flatten_cons, List.flatten_cons, List.flatten_singleton]
  split <;> simp only [List.getLast?_append] <;> rfl

/-- The heading of a source is no text without a parenthesis at its end. -/
lemma sourceHeading_ne (part : SourceSection) {text : Text} (h : text.getLast? ≠ some ')') :
    sourceHeading part ≠ text := by
  rintro rfl
  exact h (getLast?_sourceHeading part)

lemma nil_not_mem_blocks (report : Report) : ∀ block ∈ blocks report, [] ∉ block := by
  unfold blocks
  simp only [List.forall_mem_append, List.forall_mem_map, List.forall_mem_singleton]
  refine ⟨⟨⟨?_, ?_⟩, ?_⟩, ?_⟩
  · intro part _
    exact List.not_mem_cons_of_ne_of_not_mem (sourceHeading_ne part (by decide)).symm
      (nil_not_mem_sourceBody part)
  · exact nil_not_mem_of_mem_titledBlock (by decide)
      (nil_not_mem_map (by simp [orphanLine, Text.concat]) report.orphaned)
  · exact nil_not_mem_of_mem_titledBlock (by decide)
      (nil_not_mem_map (by simp [mergeLine, Text.concat]) report.merges)
  · unfold totalsLines mergedLines
    split <;> simp [measurementsLine, Text.concat]

/-! ### The result lines of a block -/

lemma resultsOfBlock_cons_of_ne {heading : Text}
    (h : heading ≠ "Results for unscanned sources:".toList) (body : List Text) :
    resultsOfBlock (heading :: body) = body.filter isIndented := if_neg h

lemma flatMap_titledBlock (heading : Text) (lines : List Text) :
    (titledBlock heading lines).flatMap resultsOfBlock = resultsOfBlock (heading :: lines) := by
  unfold titledBlock
  cases lines with
  | nil =>
    show [] = if _ then [] else _
    split <;> rfl
  | cons line lines => exact List.flatMap_singleton ..

lemma isIndented_kernelLine (m : Measurement) :
    isIndented (Text.concat ["      ", measurementText m]) = true := by
  simp [isIndented, measurementText, Text.concat]

lemma filter_map_of_indented {α : Type} {print : α → Text} (h : ∀ x, isIndented (print x) = true)
    (xs : List α) : (xs.map print).filter isIndented = xs.map print := by
  rw [List.filter_eq_self, List.forall_mem_map]
  exact fun x _ => h x

lemma filter_titled {title lines : List Text} (h : title.filter isIndented = []) :
    (titled title lines).filter isIndented = lines.filter isIndented := by
  unfold titled
  cases lines with
  | nil => rfl
  | cons line lines =>
    show (title ++ line :: lines).filter isIndented = _
    rw [List.filter_append, h, List.nil_append]

/-- The indented lines for a kernel are those for its measurements. -/
lemma filter_kernelLines (source : Text) (kernel : KernelSection) :
    (kernelLines kernel).filter isIndented =
      kernel.measurements.map (lineAt (.kernel source kernel.signature.name)) := by
  unfold kernelLines
  rw [List.filter_cons_of_neg (by simp [isIndented, Text.concat])]
  cases kernel.measurements with
  | nil => rfl
  | cons m ms =>
    rw [if_neg (by simp), filter_map_of_indented fun m => isIndented_kernelLine m]
    exact List.map_congr_left fun m _ => kernelLine_eq source kernel.signature.name m

/-- The indented lines in the block of a source are those for its measurements, in order. -/
lemma filter_sourceBody (part : SourceSection) :
    (sourceBody part).filter isIndented = part.records.map fun r => lineAt r.1 r.2 := by
  have hkernels : (if part.kernels.isEmpty then ["  (no tagged kernels)".toList]
      else part.kernels.flatMap kernelLines).filter isIndented =
        part.kernels.flatMap fun kernel =>
          kernel.measurements.map (lineAt (.kernel part.source.name kernel.signature.name)) := by
    cases part.kernels with
    | nil => rfl
    | cons kernel kernels =>
      show ((kernel :: kernels).flatMap kernelLines).filter isIndented = _
      rw [List.filter_flatMap]
      exact List.flatMap_congr fun kernel _ => filter_kernelLines part.source.name kernel
  have hunattributed := funext (unattributedLine_eq part.source.name)
  have hunmatched := funext (unmatchedLine_eq part.source.name)
  unfold sourceBody
  rw [List.filter_append, List.filter_append, hkernels, filter_titled rfl, filter_titled rfl,
    filter_map_of_indented (by simp [isIndented, unattributedLine, measurementText, Text.concat]),
    filter_map_of_indented (by simp [isIndented, unmatchedLine, measurementText, Text.concat]),
    part.records_eq, hunattributed, hunmatched]
  simp only [List.map_append, List.map_flatMap, List.map_map, Function.comp_def]

/-- The result lines in the block of a source are those for its measurements. -/
lemma resultsOfBlock_source (part : SourceSection) :
    resultsOfBlock (sourceHeading part :: sourceBody part) =
      part.records.map fun r => lineAt r.1 r.2 := by
  rw [resultsOfBlock_cons_of_ne (sourceHeading_ne part (by decide)), filter_sourceBody]

/-- The blocks of a summary have one result line for each measurement, in the order of the
report. -/
lemma resultsOfBlock_blocks (report : Report) :
    (blocks report).flatMap resultsOfBlock = report.records.map fun r => lineAt r.1 r.2 := by
  have hsections : (report.sections.map fun part =>
      sourceHeading part :: sourceBody part).flatMap resultsOfBlock =
        (report.sections.flatMap SourceSection.records).map fun r => lineAt r.1 r.2 := by
    rw [List.flatMap_map, List.map_flatMap]
    exact List.flatMap_congr fun part _ => resultsOfBlock_source part
  have horphaned : (titledBlock "Results for unscanned sources:"
      (report.orphaned.map orphanLine)).flatMap resultsOfBlock =
        report.orphaned.map (lineAt .orphaned) := by
    rw [flatMap_titledBlock]
    exact List.map_congr_left fun m _ => orphanLine_eq m
  have hmerges : (titledBlock "Sources merged by base name:"
      (report.merges.map mergeLine)).flatMap resultsOfBlock = [] := by
    rw [flatMap_titledBlock, resultsOfBlock_cons_of_ne (by decide), List.filter_eq_nil_iff,
      List.forall_mem_map]
    simp [isIndented, mergeLine, Text.concat]
  have htotals : [(totalsLines report.totals).tail].flatMap resultsOfBlock = [] := by
    rw [List.flatMap_singleton, totalsLines, List.cons_append, List.tail_cons]
    unfold mergedLines
    split <;> simp [resultsOfBlock, isIndented, measurementsLine, Text.concat]
  unfold blocks
  rw [List.flatMap_append, List.flatMap_append, List.flatMap_append, hsections, horphaned, hmerges,
    htotals, report.records_eq]
  simp only [List.append_nil, List.map_append, List.map_map, Function.comp_def]

/-! ## Newlines -/

lemma newline_not_mem_ofNat (n : Nat) : '\n' ∉ Text.ofNat n :=
  fun h => absurd (Text.isDigit_of_mem_ofNat h) (by decide)

lemma newline_not_mem_totalsLines (totals : Totals) :
    ∀ line ∈ totalsLines totals, '\n' ∉ line := by
  have hcount (n : Nat) : ('\n' ∈ Text.ofNat n) = False := eq_false (newline_not_mem_ofNat n)
  unfold totalsLines mergedLines measurementsLine
  split <;> simp [Text.concat, hcount]

section
variable {report : Report} (hnames : report.NamesUnbroken) (htidy : report.Tidy)

include hnames htidy

lemma newline_not_mem_frame {line : Text} (h : Frame report line) : '\n' ∉ line := by
  cases h with
  | fixed h => exact (by decide : ∀ line ∈ fixedLines, '\n' ∉ line) line h
  | @heading part hpart =>
    have hname := hnames.sources part hpart
    have hcount := newline_not_mem_ofNat part.kernelCount
    unfold sourceHeading
    split <;> simp [Text.concat, hname, hcount]
  | @kernel part hpart kernel hkernel =>
    obtain ⟨hname, hparameters⟩ := htidy.kernels part hpart kernel hkernel
    unfold signatureText
    split <;> simp [Text.concat, hname, hparameters]
  | @merge merge hmerge =>
    obtain ⟨hname, hkept, hmerged⟩ := hnames.merges merge hmerge
    simp [mergeLine, Text.concat, hname, hkept, hmerged]
  | totals h => exact newline_not_mem_totalsLines report.totals line h

lemma newline_not_mem_lines : ∀ line ∈ lines report, '\n' ∉ line := by
  apply (shows_lines report).forall_mem (p := fun line => '\n' ∉ line)
  · intro line hline
    exact newline_not_mem_frame hnames htidy hline
  · intro record hrecord hline
    obtain ⟨hplace, hsource⟩ := orphaned_of_newline_mem_lineAt (htidy.records record hrecord) hline
    exact hnames.orphaned record.2 (report.mem_orphaned_of_mem_records hrecord hplace) hsource

/-! ## The whole summary -/

/-- The result lines that stand in the summary of a report are those for its measurements, one each
and in the order of the report. -/
theorem resultLines_render :
    resultLines (render report) = report.records.map fun r => lineAt r.1 r.2 := by
  have hblocks : lines report ++ [[]] = title ++ (blocks report ++ [[]]).flatMap ([] :: ·) := by
    rw [List.flatMap_append, ← List.append_assoc, ← lines_eq_blocks]
    rfl
  have hnil : ∀ block ∈ blocks report ++ [[]], [] ∉ block := by
    rw [List.forall_mem_append, List.forall_mem_singleton]
    exact ⟨nil_not_mem_blocks report, List.not_mem_nil⟩
  unfold resultLines render
  rw [splitOn_unlines (newline_not_mem_lines hnames htidy), hblocks, splitOn_blocks (by decide) hnil,
    List.flatMap_cons, List.flatMap_append, resultsOfBlock_blocks]
  simp [title, resultsOfBlock, isIndented]

end

end Summary

end KernelCensus
