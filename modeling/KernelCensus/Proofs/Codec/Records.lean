import KernelCensus.Codec.Census
import KernelCensus.Proofs.Codec.Attribution

/-!
# Records read back

The JSON form of each record of a census is read as the record, whatever the order in which it gives
the members of its objects.

* `Signature.reads`, `SourceEntry.reads`, `Merge.reads`: the records of the registry.
* `Measurement.reads`: measurements.
* `Inputs.reads`, `Failure.reads`, `Metadata.reads`: the records of a run.
* `RoundTrips`, `records_roundTrip`: from text to text.
-/

namespace KernelCensus

open Json (Rearranged Reads IsWritten)

/-! ## Sources and signatures -/

lemma Path.reads (path : Path) : Reads ofJson? path.toJson path := by
  intro json hjson
  rw [Rearranged.eq_text hjson]
  rfl

lemma Path.isWritten_toJson (path : Path) : path.toJson.IsWritten := .text path.text

lemma SourceFile.reads (source : SourceFile) : Reads ofJson? source.toJson source := by
  intro json hjson
  obtain ⟨got, hfields, hgot⟩ := hjson.exists_fields ["path", "name"] (.refl _) (by decide)
  have hpath : got.required "path" Path.ofJson? = some source.path :=
    hgot.required (by simp) source.path.reads
  have hname : got.required "name" Json.text? = some source.name :=
    hgot.required (by simp) (Json.reads_text source.name)
  rw [ofJson?, hfields]
  simp only [Option.bind_eq_bind, Option.bind_some, hpath, hname]

lemma SourceFile.isWritten_toJson (source : SourceFile) : source.toJson.IsWritten :=
  .record (by simpa using ⟨source.path.isWritten_toJson, .text source.name⟩)

theorem Signature.reads (signature : Signature) : Reads ofJson? signature.toJson signature := by
  intro json hjson
  obtain ⟨got, hfields, hgot⟩ := hjson.exists_fields ["source", "name", "parameters", "is_template"]
    (.refl _) (by decide)
  have hsource : got.required "source" SourceFile.ofJson? = some signature.source :=
    hgot.required (by simp) signature.source.reads
  have hname : got.required "name" Json.text? = some signature.name :=
    hgot.required (by simp) (Json.reads_text signature.name)
  have hparameters : got.required "parameters" Json.text? = some signature.parameters :=
    hgot.required (by simp) (Json.reads_text signature.parameters)
  have htemplate : got.required "is_template" Json.bool? = some signature.isTemplate :=
    hgot.required (by simp) (Json.reads_bool signature.isTemplate)
  rw [ofJson?, hfields]
  simp only [Option.bind_eq_bind, Option.bind_some, hsource, hname, hparameters, htemplate]

lemma Signature.isWritten_toJson (signature : Signature) : signature.toJson.IsWritten :=
  .record (by simpa using ⟨signature.source.isWritten_toJson, .text signature.name,
    .text signature.parameters, .bool signature.isTemplate⟩)

theorem SourceEntry.reads (entry : SourceEntry) : Reads ofJson? entry.toJson entry := by
  intro json hjson
  obtain ⟨got, hfields, hgot⟩ := hjson.exists_fields ["source", "kernels"] (.refl _) (by decide)
  have hsource : got.required "source" SourceFile.ofJson? = some entry.source :=
    hgot.required (by simp) entry.source.reads
  have hkernels : got.required "kernels" (Json.list? Signature.ofJson?) = some entry.kernels :=
    hgot.required (by simp) (Json.reads_list fun signature _ => signature.reads)
  rw [ofJson?, hfields]
  simp only [Option.bind_eq_bind, Option.bind_some, hsource, hkernels]

lemma SourceEntry.isWritten_toJson (entry : SourceEntry) : entry.toJson.IsWritten :=
  .record (by simpa using ⟨entry.source.isWritten_toJson,
    .list fun signature _ => signature.isWritten_toJson⟩)

theorem Merge.reads (merge : Merge) : Reads ofJson? merge.toJson merge := by
  intro json hjson
  obtain ⟨got, hfields, hgot⟩ :=
    hjson.exists_fields ["name", "kept", "merged"] (.refl _) (by decide)
  have hname : got.required "name" Json.text? = some merge.name :=
    hgot.required (by simp) (Json.reads_text merge.name)
  have hkept : got.required "kept" Path.ofJson? = some merge.kept :=
    hgot.required (by simp) merge.kept.reads
  have hmerged : got.required "merged" Path.ofJson? = some merge.merged :=
    hgot.required (by simp) merge.merged.reads
  rw [ofJson?, hfields]
  simp only [Option.bind_eq_bind, Option.bind_some, hname, hkept, hmerged]

lemma Merge.isWritten_toJson (merge : Merge) : merge.toJson.IsWritten :=
  .record (by simpa using ⟨.text merge.name, merge.kept.isWritten_toJson,
    merge.merged.isWritten_toJson⟩)

/-! ## Measurements -/

lemma Precision.reads (precision : Precision) : Reads ofJson? precision.toJson precision := by
  intro json hjson
  rw [Rearranged.eq_text hjson]
  cases precision <;> rfl

lemma Precision.isWritten_toJson (precision : Precision) : precision.toJson.IsWritten :=
  .text precision.name

/-- The JSON form of the value of a metric. -/
def Metrics.valueToJson : Option Text → Json
  | some value => .text value
  | none => .null

lemma Metrics.reads_value (value : Option Text) :
    Reads (Json.nullable? Json.text?) (valueToJson value) value := by
  intro json hjson
  cases value with
  | none =>
    rw [Rearranged.eq_null hjson]
    rfl
  | some value =>
    rw [Rearranged.eq_text hjson]
    rfl

lemma Metrics.reads (metrics : Metrics) : Reads ofJson? metrics.toJson metrics := by
  intro json hjson
  obtain ⟨got, hfields, hgot⟩ := hjson.exists_fields (Metric.all.map Metric.key) (.refl _)
    (by decide)
  have hget (metric : Metric) :
      got.optional metric.key Json.text? = some (metrics.get metric) := by
    refine hgot.optional (List.mem_map.mpr ⟨metric, by cases metric <;> decide, rfl⟩) ?_
    exact reads_value (metrics.get metric)
  rw [ofJson?, hfields]
  simp only [Option.bind_eq_bind, Option.bind_some, hget]
  rfl

lemma Metrics.isWritten_toJson (metrics : Metrics) : metrics.toJson.IsWritten := by
  refine .record fun field hmem => ?_
  obtain ⟨metric, -, rfl⟩ := List.mem_map.mp hmem
  show (valueToJson (metrics.get metric)).IsWritten
  cases metrics.get metric with
  | none => exact .null
  | some value => exact .text value

theorem Measurement.reads {m : Measurement} (h : m.kernel.Fits) : Reads ofJson? m.toJson m := by
  intro json hjson
  obtain ⟨got, hfields, hgot⟩ := hjson.exists_fields
    ["source", "kernel", "precision", "metrics", "log_path"] (.refl _) (by decide)
  have hsource : got.required "source" Json.text? = some m.source :=
    hgot.required (by simp) (Json.reads_text m.source)
  have hkernel : got.required "kernel" (Attribution.ofJson? 1) = some m.kernel :=
    hgot.required (by simp) (Attribution.reads (by decide) h)
  have hprecision : got.required "precision" Precision.ofJson? = some m.precision :=
    hgot.required (by simp) m.precision.reads
  have hmetrics : got.required "metrics" Metrics.ofJson? = some m.metrics :=
    hgot.required (by simp) (Metrics.reads m.metrics)
  have hlog : got.required "log_path" Path.ofJson? = some m.log :=
    hgot.required (by simp) m.log.reads
  rw [ofJson?, hfields]
  simp only [Option.bind_eq_bind, Option.bind_some, hsource, hkernel, hprecision, hmetrics, hlog]

lemma Measurement.isWritten_toJson (m : Measurement) : m.toJson.IsWritten :=
  .record (by simpa using ⟨.text m.source, m.kernel.isWritten_toJson,
    m.precision.isWritten_toJson, Metrics.isWritten_toJson m.metrics, m.log.isWritten_toJson⟩)

/-! ## Runs -/

theorem LogFile.reads (log : LogFile) : Reads ofJson? log.toJson log := by
  intro json hjson
  obtain ⟨got, hfields, hgot⟩ := hjson.exists_fields ["source_name", "precision", "path"] (.refl _)
    (by decide)
  have hsource : got.required "source_name" Json.text? = some log.source :=
    hgot.required (by simp) (Json.reads_text log.source)
  have hprecision : got.required "precision" Precision.ofJson? = some log.precision :=
    hgot.required (by simp) log.precision.reads
  have hpath : got.required "path" Path.ofJson? = some log.path :=
    hgot.required (by simp) log.path.reads
  rw [ofJson?, hfields]
  simp only [Option.bind_eq_bind, Option.bind_some, hsource, hprecision, hpath]

lemma LogFile.isWritten_toJson (log : LogFile) : log.toJson.IsWritten :=
  .record (by simpa using ⟨.text log.source, log.precision.isWritten_toJson,
    log.path.isWritten_toJson⟩)

theorem Inputs.reads (inputs : Inputs) : Reads ofJson? inputs.toJson inputs := by
  intro json hjson
  obtain ⟨got, hfields, hgot⟩ := hjson.exists_fields ["sources", "logs"] (.refl _) (by decide)
  have hsources : got.required "sources" (Json.list? Path.ofJson?) = some inputs.sources :=
    hgot.required (by simp) (Json.reads_list fun path _ => path.reads)
  have hlogs : got.required "logs" (Json.list? LogFile.ofJson?) = some inputs.logs :=
    hgot.required (by simp) (Json.reads_list fun log _ => log.reads)
  rw [ofJson?, hfields]
  simp only [Option.bind_eq_bind, Option.bind_some, hsources, hlogs]

lemma Inputs.isWritten_toJson (inputs : Inputs) : inputs.toJson.IsWritten :=
  .record (by simpa using ⟨.list fun path _ => path.isWritten_toJson,
    .list fun log _ => log.isWritten_toJson⟩)

lemma FileKind.reads (kind : FileKind) : Reads ofJson? kind.toJson kind := by
  intro json hjson
  rw [Rearranged.eq_text hjson]
  cases kind <;> rfl

theorem Failure.reads (failure : Failure) : Reads ofJson? failure.toJson failure := by
  intro json hjson
  obtain ⟨got, hfields, hgot⟩ := hjson.exists_fields ["kind", "path", "message"] (.refl _)
    (by decide)
  have hkind : got.required "kind" FileKind.ofJson? = some failure.kind :=
    hgot.required (by simp) failure.kind.reads
  have hpath : got.required "path" Path.ofJson? = some failure.path :=
    hgot.required (by simp) failure.path.reads
  have hmessage : got.required "message" Json.text? = some failure.message :=
    hgot.required (by simp) (Json.reads_text failure.message)
  rw [ofJson?, hfields]
  simp only [Option.bind_eq_bind, Option.bind_some, hkind, hpath, hmessage]

lemma Failure.isWritten_toJson (failure : Failure) : failure.toJson.IsWritten :=
  .record (by simpa using ⟨.text failure.kind.name, failure.path.isWritten_toJson,
    .text failure.message⟩)

/-- Whether the counts of a run fit in machine words. -/
structure Tally.Fits (tally : Tally) : Prop where
  sources : tally.sources < Json.countLimit
  kernels : tally.kernels < Json.countLimit
  measurements : tally.measurements < Json.countLimit
  unattributed : tally.unattributed < Json.countLimit
  merged : tally.merged < Json.countLimit
  failures : tally.failures < Json.countLimit

theorem Metadata.reads {metadata : Metadata} (h : metadata.tally.Fits) :
    Reads ofJson? metadata.toJson metadata := by
  intro json hjson
  obtain ⟨got, hfields, hgot⟩ := hjson.exists_fields
    ["config_hash", "started_at", "finished_at", "scripts_analyzed", "kernels_detected",
      "best_results", "unattributed", "name_collisions", "failures"] (.refl _) (by decide)
  have hhash : got.required "config_hash" Json.text? = some metadata.configHash :=
    hgot.required (by simp [members]) (Json.reads_text metadata.configHash)
  have hstarted : got.required "started_at" Json.text? = some metadata.startedAt :=
    hgot.required (by simp [members]) (Json.reads_text metadata.startedAt)
  have hfinished : got.required "finished_at" Json.text? = some metadata.finishedAt :=
    hgot.required (by simp [members]) (Json.reads_text metadata.finishedAt)
  have hsources : got.required "scripts_analyzed" Json.count? = some metadata.tally.sources :=
    hgot.required (by simp [members, Tally.members]) (Json.reads_count h.sources)
  have hkernels : got.required "kernels_detected" Json.count? = some metadata.tally.kernels :=
    hgot.required (by simp [members, Tally.members]) (Json.reads_count h.kernels)
  have hmeasurements : got.required "best_results" Json.count? =
      some metadata.tally.measurements :=
    hgot.required (by simp [members, Tally.members]) (Json.reads_count h.measurements)
  have hunattributed : got.required "unattributed" Json.count? =
      some metadata.tally.unattributed :=
    hgot.required (by simp [members, Tally.members]) (Json.reads_count h.unattributed)
  have hmerged : got.required "name_collisions" Json.count? = some metadata.tally.merged :=
    hgot.required (by simp [members, Tally.members]) (Json.reads_count h.merged)
  have hfailures : got.required "failures" Json.count? = some metadata.tally.failures :=
    hgot.required (by simp [members, Tally.members]) (Json.reads_count h.failures)
  rw [ofJson?, hfields]
  simp only [Option.bind_eq_bind, Option.bind_some, hhash, hstarted, hfinished, hsources, hkernels,
    hmeasurements, hunattributed, hmerged, hfailures]

lemma Metadata.isWritten_toJson (metadata : Metadata) : metadata.toJson.IsWritten :=
  .record (by simpa [members, Tally.members] using ⟨.text metadata.configHash,
    .text metadata.startedAt, .text metadata.finishedAt, .count _, .count _, .count _, .count _,
    .count _, .count _⟩)

/-! ## From text to text -/

/-- Whether a value comes back from its compact JSON text, and from the text of every rearrangement
of its JSON form, and is then written as the original text again. -/
def RoundTrips {α : Type} (toJson : α → Json) (ofJson? : Json → Option α) (value : α) : Prop :=
  ∀ json, Rearranged (toJson value) json →
    ∃ read, (Json.parse? json.compact).bind ofJson? = some read ∧ read = value ∧
      (toJson read).compact = (toJson value).compact

/-- A value round-trips if its JSON form is read however it is rearranged. -/
lemma roundTrips_of_reads {α : Type} {toJson : α → Json} {ofJson? : Json → Option α} {value : α}
    (hwritten : (toJson value).IsWritten) (hreads : Reads ofJson? (toJson value) value) :
    RoundTrips toJson ofJson? value := by
  intro json hjson
  refine ⟨value, ?_, rfl, rfl⟩
  rw [hjson.parse?_compact hwritten, Option.bind_some]
  exact hreads hjson

/-- The records of a census round-trip, whatever the order of the members in their text. The counts
in them are those that fit in machine words. -/
theorem records_roundTrip :
    (∀ signature, RoundTrips Signature.toJson Signature.ofJson? signature) ∧
    (∀ m : Measurement, m.kernel.Fits → RoundTrips Measurement.toJson Measurement.ofJson? m) ∧
    (∀ log, RoundTrips LogFile.toJson LogFile.ofJson? log) ∧
    (∀ inputs, RoundTrips Inputs.toJson Inputs.ofJson? inputs) ∧
    (∀ failure, RoundTrips Failure.toJson Failure.ofJson? failure) ∧
    (∀ merge, RoundTrips Merge.toJson Merge.ofJson? merge) ∧
    (∀ entry, RoundTrips SourceEntry.toJson SourceEntry.ofJson? entry) ∧
    (∀ metadata : Metadata, metadata.tally.Fits →
      RoundTrips Metadata.toJson Metadata.ofJson? metadata) := by
  refine ⟨fun signature => ?_, fun m h => ?_, fun log => ?_, fun inputs => ?_, fun failure => ?_,
    fun merge => ?_, fun entry => ?_, fun metadata h => ?_⟩
  · exact roundTrips_of_reads signature.isWritten_toJson signature.reads
  · exact roundTrips_of_reads m.isWritten_toJson (Measurement.reads h)
  · exact roundTrips_of_reads log.isWritten_toJson log.reads
  · exact roundTrips_of_reads inputs.isWritten_toJson inputs.reads
  · exact roundTrips_of_reads failure.isWritten_toJson failure.reads
  · exact roundTrips_of_reads merge.isWritten_toJson merge.reads
  · exact roundTrips_of_reads entry.isWritten_toJson entry.reads
  · exact roundTrips_of_reads metadata.isWritten_toJson (Metadata.reads h)

/-- A measurement whose contents come before their case, at both levels of its attribution. -/
theorem records_roundTrip_contents_first :
    let m : Measurement := ⟨"axpy", .unknown (.ambiguous 2), .double, Metrics.empty, ⟨"axpy.log"⟩⟩
    let json : Json := .record [("kernel", .record [
        ("value", .record [("candidates", .count 2), ("reason", .text "ambiguous")]),
        ("kind", .text "unknown")]),
      ("source", .text "axpy"), ("precision", .text "double"), ("metrics", m.metrics.toJson),
      ("log_path", .text "axpy.log")]
    m.kernel.Fits ∧ Rearranged m.toJson json ∧
      (∃ read, (Json.parse? json.compact).bind Measurement.ofJson? = some read ∧ read = m ∧
        read.toJson.compact = m.toJson.compact) ∧
      (∃ tally : Tally, tally.Fits ∧
        RoundTrips Metadata.toJson Metadata.ofJson? ⟨[], [], [], tally⟩) := by
  intro m json
  have hfits : m.kernel.Fits := by
    show 2 < Json.countLimit
    decide
  have hreason : Rearranged (Unresolved.ambiguous 2).toJson
      (.record [("candidates", .count 2), ("reason", .text "ambiguous")]) :=
    .object (.refl _) (.swap _ _ _)
  have hkernel : Rearranged m.kernel.toJson
      (.record [("value", .record [("candidates", .count 2), ("reason", .text "ambiguous")]),
        ("kind", .text "unknown")]) :=
    .object (.cons _ (.same _) (.cons _ hreason .nil)) (.swap _ _ _)
  have hjson : Rearranged m.toJson json :=
    .object (.cons _ (.same _) (.cons _ hkernel (.refl _))) (.swap _ _ _)
  have htally : (⟨1, 2, 1, 1, 0, 0⟩ : Tally).Fits := by constructor <;> decide
  exact ⟨hfits, hjson, records_roundTrip.2.1 m hfits json hjson, _, htally,
    records_roundTrip.2.2.2.2.2.2.2 _ htally⟩

end KernelCensus
