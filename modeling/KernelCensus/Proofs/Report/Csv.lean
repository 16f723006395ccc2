import KernelCensus.Report.Csv
import Mathlib.Tactic.Common

/-!
# Reading exports back

A reader of comma-separated values that knows about quotes: a comma ends a field and a newline ends
a record, except within a quoted field, where two quotes stand for one. It goes through a text once
and remembers where in a field it stands, what it has read of the field, and which fields of the
record are complete. What the exports write is read back as it was, whatever text is in the fields.

* `readFrom_writeField`: a written field is read up to the separator behind it.
* `read_write`, `read_write_map`: a written table is read back.
* `read_exports`: both exports.
-/

namespace KernelCensus.Csv

/-! ## Reader -/

/-- Where a reader stands in a field. -/
inductive Position
  | start
  | bare
  | quoted
  /-- Behind a quote in a quoted field, which ends the field unless another one follows. -/
  | closed
deriving Repr, DecidableEq

/-- The records of a text, for a reader that stands at a position in a field, has read the text
`field` of it, and has completed the fields `record` before it. -/
def readFrom (position : Position) (field : Text) (record : List Text) : Text → List (List Text)
  | [] => if position = .start ∧ record = [] then [] else [record ++ [field]]
  | c :: rest =>
    match position, c with
    | .quoted, '"' => readFrom .closed field record rest
    | .quoted, _ => readFrom .quoted (field ++ [c]) record rest
    | .closed, '"' => readFrom .quoted (field ++ [c]) record rest
    | .start, '"' => readFrom .quoted field record rest
    | _, ',' => readFrom .start [] (record ++ [field]) rest
    | _, '\n' => (record ++ [field]) :: readFrom .start [] [] rest
    | _, _ => readFrom .bare (field ++ [c]) record rest

/-- The records of a text. -/
def read (text : Text) : List (List Text) := readFrom .start [] [] text

/-! ## Fields -/

/-- Outside of quotes a character that is no separator and no quote is read as it is. -/
lemma readFrom_plain_cons {c : Char} (hcomma : c ≠ ',') (hquote : c ≠ '"') (hnewline : c ≠ '\n')
    {position : Position} (hposition : position = .start ∨ position = .bare) (field : Text)
    (record : List Text) (rest : Text) :
    readFrom position field record (c :: rest) = readFrom .bare (field ++ [c]) record rest := by
  have hbare : position ≠ .quoted := by
    rcases hposition with rfl | rfl <;> decide
  rw [readFrom]
  exacts [hbare, hcomma, hnewline, fun _ => hquote, fun _ => hquote, fun _ => hquote]

/-- Within quotes a character that is no quote is read as it is. -/
lemma readFrom_quoted_cons {c : Char} (hquote : c ≠ '"') (field : Text) (record : List Text)
    (rest : Text) :
    readFrom .quoted field record (c :: rest) = readFrom .quoted (field ++ [c]) record rest := by
  rw [readFrom]
  exact hquote

/-- Text without separators and quotes is read as it is. -/
lemma readFrom_plain {text : Text} (h : needsQuotes text = false) {position : Position}
    (hposition : position = .start ∨ position = .bare) (field : Text) (record : List Text)
    {separator : Char} (hseparator : separator = ',' ∨ separator = '\n') (rest : Text) :
    readFrom position field record (text ++ separator :: rest) =
      readFrom .bare (field ++ text) record (separator :: rest) := by
  induction text generalizing position field with
  | nil =>
    rw [List.append_nil]
    rcases hposition with rfl | rfl <;> rcases hseparator with rfl | rfl <;> rfl
  | cons c text ih =>
    unfold needsQuotes at h
    rw [List.any_cons, Bool.or_eq_false_iff] at h
    obtain ⟨hc, htext⟩ := h
    simp only [Bool.or_eq_false_iff, beq_eq_false_iff_ne] at hc
    have hstep := readFrom_plain_cons hc.1.1 hc.1.2 hc.2 hposition field record
    rw [List.cons_append, hstep, ih htext (Or.inr rfl), List.append_assoc]
    rfl

/-- Text with each quote written twice is read as it was within quotes. -/
lemma readFrom_doubleQuotes (text field : Text) (record : List Text) (rest : Text) :
    readFrom .quoted field record (doubleQuotes text ++ rest) =
      readFrom .quoted (field ++ text) record rest := by
  induction text generalizing field with
  | nil =>
    rw [List.append_nil]
    rfl
  | cons c text ih =>
    have hsplit : doubleQuotes (c :: text) =
        (if c = '"' then ['"', '"'] else [c]) ++ doubleQuotes text := List.flatMap_cons ..
    have hstep : readFrom .quoted field record
          ((if c = '"' then ['"', '"'] else [c]) ++ (doubleQuotes text ++ rest)) =
        readFrom .quoted (field ++ [c]) record (doubleQuotes text ++ rest) := by
      by_cases hc : c = '"'
      · rw [hc]
        rfl
      · rw [if_neg hc]
        exact readFrom_quoted_cons hc field record _
    rw [hsplit, List.append_assoc, hstep, ih, List.append_assoc]
    rfl

/-- A written field is read back, up to the separator behind it. -/
theorem readFrom_writeField (field : Text) (record : List Text) {separator : Char}
    (hseparator : separator = ',' ∨ separator = '\n') (rest : Text) :
    readFrom .start [] record (writeField field ++ separator :: rest) =
      readFrom .bare field record (separator :: rest) := by
  unfold writeField
  cases hquotes : needsQuotes field with
  | false =>
    rw [if_neg Bool.false_ne_true]
    exact readFrom_plain hquotes (Or.inl rfl) [] record hseparator rest
  | true =>
    have hbody := readFrom_doubleQuotes field [] record ('"' :: separator :: rest)
    rw [if_pos rfl, List.append_assoc]
    show readFrom .quoted [] record (doubleQuotes field ++ '"' :: separator :: rest) = _
    rw [hbody]
    -- behind the closing quote stands the separator, so the field ends there
    rcases hseparator with rfl | rfl <;> rfl

/-! ## Records and tables -/

/-- A written record is read back, behind fields that are complete. -/
theorem readFrom_writeRecord {fields : List Text} (h : fields ≠ []) (record : List Text)
    (rest : Text) :
    readFrom .start [] record (writeRecord fields ++ rest) =
      (record ++ fields) :: readFrom .start [] [] rest := by
  induction fields generalizing record with
  | nil => exact absurd rfl h
  | cons field fields ih =>
    unfold writeRecord
    rw [List.map_cons, List.append_assoc]
    cases fields with
    | nil =>
      have hfield := readFrom_writeField field record (Or.inr rfl) rest
      show readFrom .start [] record (Text.joinWith [','] [writeField field] ++ '\n' :: rest) = _
      rw [Text.joinWith, List.intercalate_singleton, hfield]
      rfl
    | cons next fields =>
      have hfield := readFrom_writeField field record (Or.inl rfl)
        (writeRecord (next :: fields) ++ rest)
      have hrest := ih (List.cons_ne_nil next fields) (record ++ [field])
      have hsplit : Text.joinWith [','] (writeField field :: (next :: fields).map writeField) ++
          (['\n'] ++ rest) =
            writeField field ++ ',' :: (writeRecord (next :: fields) ++ rest) := by
        simp [writeRecord, Text.joinWith, List.intercalate_cons_cons]
      rw [hsplit, hfield]
      show readFrom .start [] (record ++ [field]) (writeRecord (next :: fields) ++ rest) = _
      rw [hrest, List.append_assoc]
      rfl

/-- A written table of records with fields is read back. -/
theorem read_write {records : List (List Text)} (h : ∀ record ∈ records, record ≠ []) :
    read (write records) = records := by
  induction records with
  | nil => rfl
  | cons record records ih =>
    have hrecord := readFrom_writeRecord (h record List.mem_cons_self) [] (write records)
    have hrest := ih fun other hother => h other (List.mem_cons_of_mem record hother)
    unfold read at hrest ⊢
    unfold write at hrecord hrest ⊢
    rw [List.flatMap_cons, hrecord, hrest]
    rfl

example : read "\"a,b\",,\"\"\"\"\n".toList = [["a,b".toList, [], ['"']]] := by decide

/-- A table of a header and one record for each item is read back. -/
lemma read_write_map {α : Type} {columns : List Text} (hcolumns : columns ≠ [])
    {record : α → List Text} (hrecord : ∀ x, record x ≠ []) (xs : List α) :
    read (write (columns :: xs.map record)) = columns :: xs.map record := by
  apply read_write
  intro fields hfields
  rcases List.mem_cons.mp hfields with rfl | hmem
  · exact hcolumns
  · obtain ⟨x, -, rfl⟩ := List.mem_map.mp hmem
    exact hrecord x

/-! ## Exports -/

lemma read_writeKernels (registry : Registry) :
    read (writeKernels registry) = kernelColumns :: registry.signatures.map kernelRecord :=
  read_write_map (List.cons_ne_nil _ _) (fun _ => List.cons_ne_nil _ _) registry.signatures

lemma read_writeMeasurements (measurements : List Measurement) :
    read (writeMeasurements measurements) =
      measurementColumns :: measurements.map measurementRecord :=
  read_write_map (List.cons_ne_nil _ _) (fun _ => List.cons_ne_nil _ _) measurements

/-- Both exports are read back: a header, and one record for each kernel of the registry and for
each measurement, with its fields as they are. An absent metric is an empty field. -/
theorem read_exports (registry : Registry) (measurements : List Measurement) :
    read (writeKernels registry) =
      ["source_file".toList, "kernel".toList, "parameters".toList, "is_template".toList,
          "source_path".toList] ::
        registry.signatures.map (fun signature =>
          [signature.source.name, signature.name, signature.parameters,
            if signature.isTemplate then "true".toList else "false".toList,
            signature.source.path.text]) ∧
    read (writeMeasurements measurements) =
      ["source_file".toList, "kernel".toList, "precision".toList, "block_x".toList,
          "block_y".toList, "gflops".toList, "bandwidth".toList, "time_ms".toList,
          "log_path".toList] ::
        measurements.map (fun m =>
          [m.source, m.kernel.label, m.precision.name, m.metrics.blockX.getD [],
            m.metrics.blockY.getD [], m.metrics.throughput.getD [], m.metrics.bandwidth.getD [],
            m.metrics.timeMs.getD [], m.log.text]) := by
  have hkernels : ∀ record ∈ kernelColumns :: registry.signatures.map kernelRecord,
      record ≠ [] := by
    intro record hrecord
    rcases List.mem_cons.mp hrecord with rfl | hmem
    · exact List.cons_ne_nil _ _
    · obtain ⟨signature, -, rfl⟩ := List.mem_map.mp hmem
      exact List.cons_ne_nil _ _
  have hmeasurements : ∀ record ∈ measurementColumns :: measurements.map measurementRecord,
      record ≠ [] := by
    intro record hrecord
    rcases List.mem_cons.mp hrecord with rfl | hmem
    · exact List.cons_ne_nil _ _
    · obtain ⟨m, -, rfl⟩ := List.mem_map.mp hmem
      exact List.cons_ne_nil _ _
  exact ⟨read_write hkernels, read_write hmeasurements⟩

end KernelCensus.Csv
