import KernelCensus.Log.Basic
import Mathlib.Data.List.FinRange
import Mathlib.Tactic.Common

/-!
# Sites of measurements

A site is a line of a log with the marker for best results. What a log says about a site is read
off the whole log: the kernel at a site is the one that the last line up to the site names. The scan
of a log goes through its lines once and remembers the kernel named last; it comes to one
measurement for each site, in the order of the lines.
-/

namespace KernelCensus.Log

/-- A line of a log. -/
structure Site where
  log : LogFile
  lines : List Text
  place : Fin lines.length
deriving Repr, DecidableEq

/-- The kernel that the lines of a log name last up to a place, the line there included. -/
def kernelUpTo? (markers : Markers) (lines : List Text) (place : Nat) : Option Text :=
  ((lines.take (place + 1)).filterMap (context? markers.kernelLabel)).getLast?

namespace Site

/-- The text of the line. -/
def line (site : Site) : Text := site.lines.get site.place

/-- The kernel that the log names last up to the line. -/
def kernel? (markers : Markers) (site : Site) : Option Text :=
  kernelUpTo? markers site.lines site.place

/-- What the log measures at the line. -/
def measurement (markers : Markers) (site : Site) : Measurement :=
  ⟨site.log.source, attribution (site.kernel? markers), site.log.precision,
    metrics markers.aliases site.line, site.log.path⟩

end Site

/-- The places of the lines with the marker for best results. -/
def bestPlaces (markers : Markers) (lines : List Text) : List (Fin lines.length) :=
  (List.finRange lines.length).filter fun place => Text.contains markers.best (lines.get place)

/-- The sites of a log, in the order of its lines. -/
def sites (markers : Markers) (log : LogFile) (lines : List Text) : List Site :=
  (bestPlaces markers lines).map fun place => ⟨log, lines, place⟩

/-! ## The kernel named last -/

lemma kernelUpTo?_zero (markers : Markers) (line : Text) (lines : List Text) :
    kernelUpTo? markers (line :: lines) 0 = context? markers.kernelLabel line := by
  rw [kernelUpTo?, Nat.zero_add, List.take_succ_cons, List.take_zero]
  cases hline : context? markers.kernelLabel line with
  | none => rw [List.filterMap_cons_none hline]; rfl
  | some kernel => rw [List.filterMap_cons_some hline]; rfl

/-- A line at the start counts only if no line after it names a kernel. -/
lemma kernelUpTo?_succ (markers : Markers) (line : Text) (lines : List Text) (place : Nat) :
    kernelUpTo? markers (line :: lines) (place + 1) =
      (kernelUpTo? markers lines place).or (context? markers.kernelLabel line) := by
  rw [kernelUpTo?, kernelUpTo?, List.take_succ_cons]
  cases hline : context? markers.kernelLabel line with
  | none => rw [List.filterMap_cons_none hline, Option.or_none]
  | some kernel =>
    rw [List.filterMap_cons_some hline, List.getLast?_cons]
    cases ((lines.take (place + 1)).filterMap (context? markers.kernelLabel)).getLast? <;> rfl

/-- No kernel is named up to a place if and only if none of the lines up to it names one. -/
lemma kernelUpTo?_eq_none_iff (markers : Markers) (lines : List Text) (place : Nat) :
    kernelUpTo? markers lines place = none ↔
      ∀ earlier ≤ place, lines[earlier]?.bind (context? markers.kernelLabel) = none := by
  induction lines generalizing place with
  | nil => simp [kernelUpTo?]
  | cons line lines ih =>
    cases place with
    | zero =>
      rw [kernelUpTo?_zero]
      constructor
      · intro h earlier hle
        rw [Nat.le_zero.mp hle]
        exact h
      · intro h
        exact h 0 (Nat.le_refl 0)
    | succ place =>
      rw [kernelUpTo?_succ, Option.or_eq_none_iff, ih]
      constructor
      · rintro ⟨hrest, hline⟩ earlier hle
        cases earlier with
        | zero => exact hline
        | succ earlier => exact hrest earlier (by omega)
      · intro h
        exact ⟨fun earlier hle => h (earlier + 1) (by omega), h 0 (by omega)⟩

/-- The kernel named last up to a place is that of the last line up to it that names one. -/
theorem kernelUpTo?_eq_some_iff (markers : Markers) (lines : List Text) (place : Nat)
    (kernel : Text) :
    kernelUpTo? markers lines place = some kernel ↔
      ∃ last ≤ place, lines[last]?.bind (context? markers.kernelLabel) = some kernel ∧
        ∀ later ≤ place, last < later →
          lines[later]?.bind (context? markers.kernelLabel) = none := by
  induction lines generalizing place with
  | nil => simp [kernelUpTo?]
  | cons line lines ih =>
    cases place with
    | zero =>
      rw [kernelUpTo?_zero]
      constructor
      · intro h
        exact ⟨0, Nat.le_refl 0, h, fun later hle hlater => by omega⟩
      · rintro ⟨last, hlast, h, -⟩
        rw [Nat.le_zero.mp hlast] at h
        exact h
    | succ place =>
      rw [kernelUpTo?_succ, Option.or_eq_some_iff, ih, kernelUpTo?_eq_none_iff]
      constructor
      · rintro (⟨last, hlast, h, hnone⟩ | ⟨hrest, h⟩)
        · refine ⟨last + 1, by omega, h, fun later hle hlater => ?_⟩
          cases later with
          | zero => omega
          | succ later => exact hnone later (by omega) (by omega)
        -- no later line names a kernel, so the first line is the last that does
        · refine ⟨0, by omega, h, fun later hle hlater => ?_⟩
          cases later with
          | zero => omega
          | succ later => exact hrest later (by omega)
      · rintro ⟨last, hlast, h, hnone⟩
        cases last with
        | zero =>
          exact Or.inr ⟨fun earlier hle => hnone (earlier + 1) (by omega) (by omega), h⟩
        | succ last =>
          exact Or.inl ⟨last, by omega, h, fun later hle hlater =>
            hnone (later + 1) (by omega) (by omega)⟩

/-! ## The scan of a log -/

/-- The places with the marker in lines after a first one. -/
lemma bestPlaces_cons (markers : Markers) (line : Text) (lines : List Text) :
    bestPlaces markers (line :: lines) =
      (if Text.contains markers.best line then [0] else []) ++
        (bestPlaces markers lines).map Fin.succ := by
  have hrest : ((List.finRange lines.length).map Fin.succ).filter
        (fun place => Text.contains markers.best ((line :: lines).get place)) =
      (bestPlaces markers lines).map Fin.succ := by
    rw [List.filter_map]
    rfl
  have hplaces : List.finRange (line :: lines).length =
      0 :: (List.finRange lines.length).map Fin.succ := List.finRange_succ
  rw [bestPlaces, hplaces]
  by_cases hline : Text.contains markers.best line = true
  · rw [if_pos hline]
    exact (List.filter_cons_of_pos (a := (0 : Fin (line :: lines).length)) hline).trans
      (congrArg (List.cons 0) hrest)
  · rw [if_neg hline]
    exact (List.filter_cons_of_neg (a := (0 : Fin (line :: lines).length)) hline).trans hrest

/-- A scan measures what stands at the places with the marker, and the kernel known before the scan
counts up to the first line that names one. -/
theorem measurementsFrom_eq (markers : Markers) (log : LogFile) (current : Option Text)
    (lines : List Text) :
    measurementsFrom markers log current lines =
      (bestPlaces markers lines).map fun place =>
        ⟨log.source, attribution ((kernelUpTo? markers lines place).or current), log.precision,
          metrics markers.aliases (lines.get place), log.path⟩ := by
  induction lines generalizing current with
  | nil => rfl
  | cons line lines ih =>
    have hrest : measurementsFrom markers log ((context? markers.kernelLabel line).or current) lines =
        ((bestPlaces markers lines).map Fin.succ).map fun place =>
          ⟨log.source, attribution ((kernelUpTo? markers (line :: lines) place).or current),
            log.precision, metrics markers.aliases ((line :: lines).get place), log.path⟩ := by
      -- what the first line names is the kernel known before the others
      rw [ih, List.map_map]
      refine List.map_congr_left fun place _ => ?_
      rw [Function.comp_apply, Fin.val_succ, kernelUpTo?_succ, Option.or_assoc]
      rfl
    have hhere := kernelUpTo?_zero markers line lines
    rw [measurementsFrom, bestPlaces_cons, List.map_append, hrest, ← hhere]
    split <;> rfl

/-- A log has one measurement for each of its sites, in order. -/
theorem measurements_eq (markers : Markers) (log : LogFile) (text : Text) :
    measurements markers log text =
      (sites markers log (Text.lines text)).map (Site.measurement markers) := by
  rw [measurements, measurementsFrom_eq, sites, List.map_map]
  refine List.map_congr_left fun place _ => ?_
  rw [Option.or_none]
  rfl

end KernelCensus.Log
