import KernelCensus.Codec.Config
import KernelCensus.Config.Fingerprint
import KernelCensus.Proofs.Codec.Records
import KernelCensus.Proofs.Project.Loading
import KernelCensus.Proofs.Text.Utf8

/-!
# Configurations read back

A configuration that is saved as JSON, in either layout, is loaded as it was: no default takes the
place of a value that was saved, and no value that was left out differs from its default.

* `Config.reads`: JSON values.
* `Config.isLoaded_pretty`, `Config.isLoaded_compact`: files.
* `Config.roundTrips`: saving and loading.
-/

namespace KernelCensus

open Json (Rearranged Reads IsWritten)

lemma Json.isWritten_texts (items : List Text) : (Json.texts items).IsWritten :=
  .list fun item _ => .text item

/-! ## Markers -/

namespace PerMetric

lemma reads_aliases (aliases : PerMetric (List Text)) :
    Reads aliasesOfJson? aliases.aliasesToJson aliases := by
  intro json hjson
  obtain ⟨got, hfields, hgot⟩ := hjson.exists_fields (Metric.all.map Metric.key) (.refl _)
    (by decide)
  have hget (metric : Metric) (default : List Text) :
      got.withDefault metric.key default (Json.list? Json.text?) = some (aliases.get metric) := by
    refine hgot.withDefault default (List.mem_map.mpr ⟨metric, by cases metric <;> decide, rfl⟩) ?_
    exact Json.reads_texts (aliases.get metric)
  rw [aliasesOfJson?, hfields]
  simp only [Option.bind_eq_bind, Option.bind_some, hget]
  rfl

lemma isWritten_aliasesToJson (aliases : PerMetric (List Text)) :
    aliases.aliasesToJson.IsWritten := by
  refine .record fun field hmem => ?_
  obtain ⟨metric, -, rfl⟩ := List.mem_map.mp hmem
  exact Json.isWritten_texts (aliases.get metric)

end PerMetric

namespace Markers

theorem reads (markers : Markers) : Reads ofJson? markers.toJson markers := by
  intro json hjson
  obtain ⟨got, hfields, hgot⟩ := hjson.exists_fields keys (.refl _) (by decide)
  have htag : got.withDefault "tag" default.tag Json.text? = some markers.tag :=
    hgot.withDefault _ (by simp) (Json.reads_text markers.tag)
  have hdeclaration : got.withDefault "declaration_keyword" default.declaration Json.text? =
      some markers.declaration :=
    hgot.withDefault _ (by simp) (Json.reads_text markers.declaration)
  have htemplate : got.withDefault "template_keyword" default.template Json.text? =
      some markers.template :=
    hgot.withDefault _ (by simp) (Json.reads_text markers.template)
  have hcomment : got.withDefault "line_comment" default.lineComment Json.text? =
      some markers.lineComment :=
    hgot.withDefault _ (by simp) (Json.reads_text markers.lineComment)
  have hattributes : got.withDefault "attribute_keywords" default.attributes
      (Json.list? Json.text?) = some markers.attributes :=
    hgot.withDefault _ (by simp) (Json.reads_texts markers.attributes)
  have hbest : got.withDefault "best_marker" default.best Json.text? = some markers.best :=
    hgot.withDefault _ (by simp) (Json.reads_text markers.best)
  have hlabel : got.withDefault "kernel_label" default.kernelLabel Json.text? =
      some markers.kernelLabel :=
    hgot.withDefault _ (by simp) (Json.reads_text markers.kernelLabel)
  have haliases : got.withDefault "metric_keys" default.aliases PerMetric.aliasesOfJson? =
      some markers.aliases :=
    hgot.withDefault _ (by simp) markers.aliases.reads_aliases
  rw [ofJson?, hfields]
  simp only [Option.bind_eq_bind, Option.bind_some, htag, hdeclaration, htemplate, hcomment,
    hattributes, hbest, hlabel, haliases]

lemma isWritten_toJson (markers : Markers) : markers.toJson.IsWritten :=
  .record (by simpa using ⟨.text _, .text _, .text _, .text _,
    Json.isWritten_texts markers.attributes, .text _, .text _,
    markers.aliases.isWritten_aliasesToJson⟩)

end Markers

/-! ## Configurations -/

namespace Config

lemma mem_members_of_mem_settings {config : Config} {field : Text × Json}
    (h : field ∈ config.settings) : field ∈ config.members := by
  unfold members
  cases config.description with
  | none => exact List.mem_cons_of_mem _ h
  | some description => exact List.mem_cons_of_mem _ (List.mem_cons_of_mem _ h)

/-- The keys of the members are keys of configurations, in order. -/
lemma map_members_sublist (config : Config) : (config.members.map Prod.fst).Sublist keys := by
  have hsettings : config.settings.map Prod.fst = keys.drop 2 := rfl
  unfold members
  cases config.description with
  | none =>
    rw [List.map_cons, hsettings]
    exact .cons_cons _ (.cons _ (.refl _))
  | some description =>
    rw [List.map_cons, List.map_cons, hsettings]
    exact .refl _

/-- The description is read, also where it is left out. -/
lemma reads_description {config : Config} {got : Json.Fields} (hgot : got.Give config.members) :
    got.withDefault "description" none (Json.nullable? Json.text?) = some config.description := by
  unfold members at hgot
  cases hdescription : config.description with
  | none =>
    rw [hdescription] at hgot
    refine hgot.withDefault_absent none ?_
    have hsettings : config.settings.map Prod.fst = keys.drop 2 := rfl
    rw [List.map_cons, hsettings]
    show "description".toList ∉ "name".toList :: keys.drop 2
    decide
  | some description =>
    rw [hdescription] at hgot
    refine hgot.withDefault none (List.mem_cons_of_mem _ List.mem_cons_self) ?_
    exact Metrics.reads_value (some description)

theorem reads (config : Config) : Reads ofJson? config.toJson config := by
  intro json hjson
  obtain ⟨got, hfields, hgot⟩ := hjson.exists_fields keys config.map_members_sublist (by decide)
  have hsetting {α : Type} {key : Text} {form : Json} {value : α} {decode : Json → Option α}
      (default : α) (hmem : (key, form) ∈ config.settings) (h : Reads decode form value) :
      got.withDefault key default decode = some value :=
    hgot.withDefault default (mem_members_of_mem_settings hmem) h
  have hname : got.required "name" Json.text? = some config.name :=
    hgot.required List.mem_cons_self (Json.reads_text config.name)
  have hdescription : got.withDefault "description" (ofName config.name).description
      (Json.nullable? Json.text?) = some config.description := reads_description hgot
  have hversion : got.withDefault "config_version" (ofName config.name).version Json.text? =
      some config.version :=
    hsetting _ (by simp [settings]) (Json.reads_text config.version)
  have hsources : got.withDefault "sources" (ofName config.name).sources
      (Json.list? Json.text?) = some config.sources :=
    hsetting _ (by simp [settings]) (Json.reads_texts config.sources)
  have hextensions : got.withDefault "source_extensions" (ofName config.name).extensions
      (Json.list? Json.text?) = some config.extensions :=
    hsetting _ (by simp [settings]) (Json.reads_texts config.extensions)
  have hlogs : got.withDefault "logs_dir" (ofName config.name).logsDir Json.text? =
      some config.logsDir :=
    hsetting _ (by simp [settings]) (Json.reads_text config.logsDir)
  have hreports : got.withDefault "reports_dir" (ofName config.name).reportsDir Json.text? =
      some config.reportsDir :=
    hsetting _ (by simp [settings]) (Json.reads_text config.reportsDir)
  have hprecisions : got.withDefault "precisions" (ofName config.name).precisions
      (Json.list? Precision.ofJson?) = some config.precisions :=
    hsetting _ (by simp [settings]) (Json.reads_list fun precision _ => precision.reads)
  have hmarkers : got.withDefault "markers" (ofName config.name).markers Markers.ofJson? =
      some config.markers :=
    hsetting _ (by simp [settings]) config.markers.reads
  rw [ofJson?, hfields]
  simp only [Option.bind_eq_bind, Option.bind_some, hname, hdescription, hversion, hsources,
    hextensions, hlogs, hreports, hprecisions, hmarkers]

lemma isWritten_toJson (config : Config) : config.toJson.IsWritten := by
  have hsettings : ∀ field ∈ config.settings, field.2.IsWritten := by
    simpa [settings] using ⟨.text config.version, Json.isWritten_texts config.sources,
      Json.isWritten_texts config.extensions, .text config.logsDir, .text config.reportsDir,
      .list fun precision _ => precision.isWritten_toJson, config.markers.isWritten_toJson⟩
  refine .record ?_
  unfold members
  cases config.description with
  | none => exact List.forall_mem_cons.mpr ⟨.text config.name, hsettings⟩
  | some description =>
    exact List.forall_mem_cons.mpr ⟨.text config.name,
      List.forall_mem_cons.mpr ⟨.text description, hsettings⟩⟩

/-! ## Files -/

/-- Whether a text is loaded as a configuration, from a file that is not one of YAML and as the
configuration of a project. -/
structure IsLoaded (config : Config) (text : Text) : Prop where
  ofFile : ∀ path, isYaml path = false → Config.ofFile path (.ok (Utf8.encode text)) = .ok config
  configOf : ∀ path, Project.configOf path (.ok (Utf8.encode text)) = .ok config

/-- A text that is read as a configuration with valid markers is loaded as it. -/
lemma isLoaded_of_ofJsonText? {config : Config} {text : Text}
    (hvalid : config.markers.validate = .ok config.markers)
    (htext : ofJsonText? text = some config) : config.IsLoaded text := by
  refine ⟨fun path hyaml => ?_, fun path => ?_⟩
  · simp only [Config.ofFile, Utf8.decode?_encode, ofFileText, hyaml, Bool.false_eq_true, if_false,
      htext, Except.bind, validate, hvalid]
  · simp only [Project.configOf, Utf8.decode?_encode, htext, hvalid]

section
variable {config : Config} (hvalid : config.markers.validate = .ok config.markers)

include hvalid

/-- A configuration is loaded from its pretty text. -/
theorem isLoaded_pretty : config.IsLoaded config.toJson.pretty := by
  refine isLoaded_of_ofJsonText? hvalid ?_
  rw [ofJsonText?, Json.parse?_pretty config.isWritten_toJson]
  exact config.reads (.same _)

/-- A configuration is loaded from its compact text. -/
theorem isLoaded_compact : config.IsLoaded config.toJson.compact := by
  refine isLoaded_of_ofJsonText? hvalid ?_
  rw [ofJsonText?, Json.parse?_compact config.isWritten_toJson]
  exact config.reads (.same _)

end

lemma compact_injective : Function.Injective fun config : Config => config.toJson.compact := by
  intro config other heq
  have hparse : Json.parse? config.toJson.compact = Json.parse? other.toJson.compact :=
    congrArg Json.parse? heq
  rw [Json.parse?_compact config.isWritten_toJson, Json.parse?_compact other.isWritten_toJson]
    at hparse
  have hread := config.reads (.same _)
  rw [Option.some.inj hparse, other.reads (.same _)] at hread
  exact (Option.some.inj hread).symm

/-- A configuration with valid markers is loaded from what is saved of it. What is hashed for a
fingerprint tells configurations apart. A configuration that was loaded from JSON, saved and loaded
again is the same and has the same fingerprint. -/
theorem roundTrips :
    (∀ config : Config, config.markers.validate = .ok config.markers →
      config.IsLoaded config.toJson.pretty ∧ config.IsLoaded config.toJson.compact) ∧
    (Function.Injective fun config : Config => Utf8.encode config.toJson.compact) ∧
    (∀ path contents config,
      isYaml path = false ∧ Config.ofFile path contents = .ok config ∨
        Project.configOf path contents = .ok config →
      ∀ saved ∈ [config.toJson.pretty, config.toJson.compact], ∀ path',
        (isYaml path' = false → ∃ again, Config.ofFile path' (.ok (Utf8.encode saved)) = .ok again ∧
          again = config ∧ again.fingerprint = config.fingerprint) ∧
        (∃ again, Project.configOf path' (.ok (Utf8.encode saved)) = .ok again ∧
          again = config ∧ again.fingerprint = config.fingerprint)) := by
  refine ⟨fun config hvalid => ⟨isLoaded_pretty hvalid, isLoaded_compact hvalid⟩, ?_, ?_⟩
  · exact Utf8.encode_injective.comp compact_injective
  · intro path contents config hload saved hsaved path'
    have hvalid : config.markers.validate = .ok config.markers := by
      rcases hload with ⟨-, hload⟩ | hload
      · exact validate_of_ofFile hload
      · exact validate_of_configOf hload
    have hloaded : config.IsLoaded saved := by
      rcases List.mem_pair.mp hsaved with rfl | rfl
      · exact isLoaded_pretty hvalid
      · exact isLoaded_compact hvalid
    exact ⟨fun hyaml => ⟨config, hloaded.ofFile path' hyaml, rfl, rfl⟩,
      ⟨config, hloaded.configOf path', rfl, rfl⟩⟩

/-- A configuration with quotes, control characters and empty lists, saved and loaded twice. -/
theorem roundTrips_escapes :
    let config : Config := { Config.ofName ['"', '\\', '\n', '\x01', 'é', '𝔸'] with
      description := some [], extensions := [], precisions := [] }
    let path : Path := ⟨"survey.json"⟩
    config.markers.validate = .ok config.markers ∧ isYaml path = false ∧
      config.IsLoaded config.toJson.pretty ∧ config.IsLoaded config.toJson.compact ∧
      (∃ again, Config.ofFile path (.ok (Utf8.encode config.toJson.pretty)) = .ok again ∧
        again = config ∧ again.fingerprint = config.fingerprint) := by
  intro config path
  have hvalid : config.markers.validate = .ok config.markers := by decide
  have hyaml : isYaml path = false := by decide
  have hloaded := roundTrips.1 config hvalid
  refine ⟨hvalid, hyaml, hloaded.1, hloaded.2, ?_⟩
  have hagain := roundTrips.2.2 path (.ok (Utf8.encode config.toJson.compact)) config
    (.inl ⟨hyaml, hloaded.2.ofFile path hyaml⟩) config.toJson.pretty List.mem_cons_self path
  exact hagain.1 hyaml

end Config

end KernelCensus
