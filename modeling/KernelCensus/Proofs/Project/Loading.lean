import KernelCensus.Project.Open
import Mathlib.Tactic.Common

/-!
# Loaded configurations

However a configuration is loaded, its markers are valid.

* `Config.validate_of_ofFile`, `Config.validate_of_configOf`.
-/

namespace KernelCensus.Config

lemma eq_of_validate {markers other : Markers} (h : markers.validate = .ok other) :
    other = markers := by
  unfold Markers.validate at h
  split at h
  · cases h
  · exact (Except.ok.inj h).symm

/-- A configuration that is loaded from a file has valid markers. -/
lemma validate_of_ofFile {path : Path} {contents : Except FileError Bytes} {config : Config}
    (h : Config.ofFile path contents = .ok config) :
    config.markers.validate = .ok config.markers := by
  unfold Config.ofFile at h
  split at h
  · cases h
  · split at h
    · cases h
    · next text _ =>
      cases hread : ofFileText path text with
      | error error => rw [hread] at h; cases h
      | ok other =>
        rw [hread] at h
        change other.validate = _ at h
        unfold validate at h
        split at h
        · next markers hvalid =>
          cases h
          rw [hvalid, eq_of_validate hvalid]
        · cases h

lemma validate_of_configOf {path : Path} {contents : Except FileError Bytes} {config : Config}
    (h : Project.configOf path contents = .ok config) :
    config.markers.validate = .ok config.markers := by
  unfold Project.configOf at h
  split at h
  · cases h
  · split at h
    · cases h
    · split at h
      · cases h
      · split at h
        · next markers hvalid =>
          cases h
          rw [hvalid, eq_of_validate hvalid]
        · cases h

end KernelCensus.Config
