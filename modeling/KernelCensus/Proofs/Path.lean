import KernelCensus.Source
import Mathlib.Tactic.Common

/-!
# Names of sources

A source is named by the last part of its path, or by the text of the path if that part is not an
entry. So a path decides its name, and two paths with one name are the same path as soon as one of
them has no file name.
-/

namespace KernelCensus

namespace Path

/-- Splitting at a character that does not occur gives the text as one piece. -/
lemma splitAt_of_not_mem {separator : Char} {text : Text} (h : separator ∉ text) :
    Text.splitAt separator text = [text] := by
  induction text with
  | nil => rfl
  | cons c text ih =>
    rw [List.mem_cons, not_or] at h
    rw [Text.splitAt, if_neg (Ne.symm h.1), ih h.2]

lemma not_mem_of_mem_splitAt {separator : Char} {text piece : Text}
    (h : piece ∈ Text.splitAt separator text) : separator ∉ piece := by
  induction text generalizing piece with
  | nil =>
    rw [Text.splitAt, List.mem_singleton] at h
    rw [h]
    exact List.not_mem_nil
  | cons c text ih =>
    rw [Text.splitAt] at h
    split at h
    · rcases List.mem_cons.mp h with rfl | hmem
      · exact List.not_mem_nil
      · exact ih hmem
    · next hc =>
      split at h
      · rw [List.mem_singleton] at h
        rw [h, List.mem_singleton]
        exact Ne.symm hc
      · next first pieces heq =>
        rcases List.mem_cons.mp h with rfl | hmem
        · rw [List.mem_cons, not_or]
          exact ⟨Ne.symm hc, ih (heq ▸ List.mem_cons_self)⟩
        · exact ih (heq ▸ List.mem_cons_of_mem _ hmem)

/-- An entry of a path is a piece of its text that stands for an entry. -/
lemma ofPiece?_of_entry_mem {path : Path} {name : Text} (h : Part.entry name ∈ path.parts) :
    Part.ofPiece? name = some (.entry name) ∧ '/' ∉ name := by
  have hsteps : Part.entry name ∈ (Text.splitAt '/' path.text).filterMap Part.ofPiece? := by
    unfold parts at h
    dsimp only at h
    split at h
    · simpa using h
    · split at h
      · simpa using h
      · exact h
  obtain ⟨piece, hpiece, hname⟩ := List.mem_filterMap.mp hsteps
  have heq : piece = name := by
    unfold Part.ofPiece? at hname
    split at hname
    · cases hname
    · split at hname
      · cases hname
      · exact Part.entry.inj (Option.some.inj hname)
  rw [← heq] at hname ⊢
  exact ⟨hname, not_mem_of_mem_splitAt hpiece⟩

/-- A path whose text is the name of an entry has that name. -/
lemma fileName?_of_entry_mem {path : Path} {name : Text} (h : Part.entry name ∈ path.parts) :
    (Path.mk name).fileName? = some name := by
  obtain ⟨hpiece, hslash⟩ := ofPiece?_of_entry_mem h
  have hrelative : (Path.mk name).isAbsolute = false := by
    cases name with
    | nil => rfl
    | cons c rest =>
      rw [List.mem_cons, not_or] at hslash
      simpa [isAbsolute] using Ne.symm hslash.1
  have hdot : ([name] : List Text).head? ≠ some ['.'] := by
    intro hhead
    rw [List.head?_cons, Option.some.injEq] at hhead
    rw [hhead] at hpiece
    exact absurd hpiece (by decide)
  have hparts : (Path.mk name).parts = [.entry name] := by
    rw [parts, hrelative, splitAt_of_not_mem hslash, if_neg (by decide), if_neg hdot]
    simp [hpiece]
  rw [fileName?, hparts]
  rfl

lemma entry_mem_of_fileName? {path : Path} {name : Text} (h : path.fileName? = some name) :
    Part.entry name ∈ path.parts := by
  unfold fileName? at h
  split at h
  · next last hlast =>
    rw [← Option.some.inj h]
    exact List.mem_of_getLast? hlast
  · cases h

/-- The parts of a name that is split at its last dot make up the name. -/
lemma eq_append_of_splitAtLastDot? {name stem suffix : Text}
    (h : splitAtLastDot? name = some (stem, suffix)) : name = stem ++ '.' :: suffix := by
  unfold splitAtLastDot? at h
  dsimp only at h
  split at h
  · next c rest hdrop =>
    cases h
    have hprefix : name.reverse.takeWhile (· != '.') <+: name.reverse := List.takeWhile_prefix _
    have hreverse := congrArg List.reverse (List.prefix_iff_eq_append.mp hprefix)
    rw [hdrop] at hreverse
    simpa using hreverse.symm
  · cases h

end Path

namespace SourceFile

/-- The same path, written in two ways, has one file name. -/
lemma fileName?_eq_of_same {p q : Path} (h : p.same q = true) : p.fileName? = q.fileName? := by
  rw [Path.same, beq_iff_eq] at h
  rw [Path.fileName?, Path.fileName?, h]

/-- A source without file name shares its name only with the source of the same path text. -/
theorem eq_of_name_eq_of_fileName?_eq_none {p q : Path} (hname : (ofPath p).name = (ofPath q).name)
    (hq : q.fileName? = none) : p = q := by
  have htext : (p.fileName?.getD p.text) = q.text := by
    rw [ofPath, ofPath, hq] at hname
    exact hname
  cases hp : p.fileName? with
  | none =>
    rw [hp] at htext
    cases p
    cases q
    exact congrArg Path.mk htext
  | some name =>
    -- the text of `q` would be the name of an entry, which has a file name
    rw [hp, Option.getD_some] at htext
    have hfile := Path.fileName?_of_entry_mem (Path.entry_mem_of_fileName? hp)
    rw [htext] at hfile
    rw [show Path.mk q.text = q from rfl, hq] at hfile
    cases hfile

lemma stem_isPrefix (source : SourceFile) : source.stem <+: source.name := by
  unfold stem
  cases hsplit : Path.splitAtLastDot? source.name with
  | none => exact List.prefix_rfl
  | some parts =>
    obtain ⟨stem, suffix⟩ := parts
    exact ⟨'.' :: suffix, (Path.eq_append_of_splitAtLastDot? hsplit).symm⟩

/-- The name of a source at a path with a file name has no slash. -/
lemma slash_not_mem_name {path : Path} (h : path.fileName? ≠ none) : '/' ∉ (ofPath path).name := by
  obtain ⟨name, hname⟩ := Option.ne_none_iff_exists'.mp h
  rw [ofPath, hname, Option.getD_some]
  exact (Path.ofPiece?_of_entry_mem (Path.entry_mem_of_fileName? hname)).2

end SourceFile

end KernelCensus
