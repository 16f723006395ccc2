import KernelCensus.Proofs.Path

/-!
# Entries of a directory

The path of an entry as seen from a directory has the parts of the directory and then the entry.

* `Path.parts_join_entry`.
* `Path.isAbsolute_join`.
-/

namespace KernelCensus.Path

lemma splitAt_ne_nil (separator : Char) (text : Text) : Text.splitAt separator text ≠ [] := by
  cases text with
  | nil => exact List.cons_ne_nil _ _
  | cons c text =>
    rw [Text.splitAt]
    split
    · exact List.cons_ne_nil _ _
    · split
      · exact List.cons_ne_nil _ _
      · exact List.cons_ne_nil _ _

/-- Around a separator a text is split on its own on either side. -/
lemma splitAt_append (separator : Char) (before after : Text) :
    Text.splitAt separator (before ++ separator :: after) =
      Text.splitAt separator before ++ Text.splitAt separator after := by
  induction before with
  | nil =>
    have hfirst : Text.splitAt separator [] = [[]] := rfl
    rw [List.nil_append, hfirst, List.singleton_append, Text.splitAt, if_pos rfl]
  | cons c before ih =>
    rw [List.cons_append, Text.splitAt, Text.splitAt, ih]
    split
    · rw [List.cons_append]
    · obtain ⟨piece, pieces, heq⟩ := List.exists_cons_of_ne_nil (splitAt_ne_nil separator before)
      rw [heq]
      rfl

/-- A path with one more piece than another has one more part. -/
lemma parts_eq_append {path base : Path} {pieces : List Text} (tail : List Text) {name : Text}
    (habsolute : path.isAbsolute = base.isAbsolute) (hpieces : pieces ≠ [])
    (hpath : Text.splitAt '/' path.text = pieces ++ [name])
    (hbase : Text.splitAt '/' base.text = pieces ++ tail)
    (htail : tail.filterMap Part.ofPiece? = [])
    (hname : Part.ofPiece? name = some (.entry name)) :
    path.parts = base.parts ++ [.entry name] := by
  obtain ⟨first, others, rfl⟩ := List.exists_cons_of_ne_nil hpieces
  have hlast : [name].filterMap Part.ofPiece? = [.entry name] := by simp [hname]
  unfold parts
  dsimp only
  rw [habsolute, hpath, hbase, List.filterMap_append, List.filterMap_append, htail, hlast,
    List.append_nil, List.cons_append, List.cons_append, List.head?_cons, List.head?_cons]
  split
  · rw [List.cons_append]
  · split
    · rw [List.cons_append]
    · rfl

/-- The path of an entry as seen from a directory ends in the entry. -/
theorem parts_join_entry (base : Path) {name : Text} (hslash : '/' ∉ name)
    (hname : Part.ofPiece? name = some (.entry name)) :
    (base.join ⟨name⟩).parts = base.parts ++ [.entry name] := by
  have hsplit : Text.splitAt '/' name = [name] := splitAt_of_not_mem hslash
  have hrelative : (Path.mk name).isAbsolute = false := by
    cases name with
    | nil => rfl
    | cons c name =>
      have hne : c ≠ '/' := fun heq => hslash (heq ▸ List.mem_cons_self)
      simpa [isAbsolute] using hne
  unfold join
  rw [hrelative, if_neg Bool.false_ne_true]
  split
  · next hend =>
    rcases hend with hempty | hend
    · have hdot : name ≠ ['.'] := by
        rintro rfl
        cases hname
      have hbase : base.parts = [] := by
        simp [parts, isAbsolute, hempty, Text.splitAt, Part.ofPiece?]
      have hpath : (Path.mk name).parts = [.entry name] := by
        simp [parts, hrelative, hsplit, hname, hdot]
      rw [hempty, hbase, List.nil_append, List.nil_append, hpath]
    · obtain ⟨before, htext⟩ := List.getLast?_eq_some_iff.mp hend
      have hbase : Text.splitAt '/' base.text = Text.splitAt '/' before ++ [[]] := by
        rw [htext, splitAt_append]
        rfl
      have hpath : Text.splitAt '/' (base.text ++ name) = Text.splitAt '/' before ++ [name] := by
        rw [htext, List.append_assoc, List.singleton_append, splitAt_append, hsplit]
      have habsolute : (Path.mk (base.text ++ name)).isAbsolute = base.isAbsolute := by
        simp [isAbsolute, htext, List.head?_append]
      exact parts_eq_append [[]] habsolute (splitAt_ne_nil '/' before) hpath hbase rfl hname
  · next hend =>
    have hpath : Text.splitAt '/' (base.text ++ '/' :: name) =
        Text.splitAt '/' base.text ++ [name] := by
      rw [splitAt_append, hsplit]
    have habsolute : (Path.mk (base.text ++ '/' :: name)).isAbsolute = base.isAbsolute := by
      obtain ⟨c, text, htext⟩ := List.exists_cons_of_ne_nil (not_or.mp hend).1
      simp [isAbsolute, htext]
    exact parts_eq_append [] habsolute (splitAt_ne_nil '/' base.text) hpath
      (List.append_nil _).symm rfl hname

/-- A path is absolute if it is seen from an absolute one. -/
lemma isAbsolute_join {base : Path} (h : base.isAbsolute = true) (path : Path) :
    (base.join path).isAbsolute = true := by
  unfold join
  split
  · assumption
  · obtain ⟨c, rest, htext⟩ : ∃ c rest, base.text = c :: rest := by
      cases htext : base.text with
      | nil => simp [isAbsolute, htext] at h
      | cons c rest => exact ⟨c, rest, rfl⟩
    have hslash : c = '/' := by simpa [isAbsolute, htext] using h
    split <;> simp [isAbsolute, htext, hslash]

end KernelCensus.Path
