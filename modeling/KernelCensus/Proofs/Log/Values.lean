import KernelCensus.Proofs.Log.Metrics
import KernelCensus.Proofs.Log.Sites
import Mathlib.Data.List.TakeWhile

/-!
# Values and names in logs

What is cut out of the lines of a log has no white space in it, whatever the log says: the value of
a metric is the value of a token, and the name of a kernel follows a label. Both end where white
space begins.

* `exists_token_of_metrics`, `letters_of_metrics`: the values of metrics.
* `letters_of_context?`, `Site.letters_of_kernel?`: the names of kernels.
-/

namespace KernelCensus

namespace Log

open Name (continuation leading?)
open Unicode (isWhiteSpace)

/-! ## Values -/

lemma letters_of_valueAfterKey? {text value rest : Text}
    (h : valueAfterKey? text = some (value, rest)) : ∀ c ∈ value, ¬ isWhiteSpace c = true := by
  intro c hc
  unfold valueAfterKey? at h
  split at h
  · next tail _ =>
    dsimp only at h
    split at h
    · cases h
    · cases h
      exact letter_of_isValueChar (List.mem_takeWhile_imp hc)
  · cases h

/-- The value of a token has no white space. -/
theorem letters_of_mem_tokens {line : Text} {token : Token} (h : token ∈ tokens line) :
    ∀ c ∈ token.value, ¬ isWhiteSpace c = true := by
  fun_induction tokens line with
  | case1 => cases h
  | case2 c rest hstart value after hvalue ih =>
    rcases List.mem_cons.mp h with rfl | hlater
    · exact letters_of_valueAfterKey? hvalue
    · exact ih hlater
  | case3 c rest hstart hnone ih => exact ih h
  | case4 c rest hstart ih => exact ih h

/-- A metric of a line is the value of one of its tokens. -/
theorem exists_token_of_metrics {aliases : PerMetric (List Text)} {line : Text} {metric : Metric}
    {value : Text} (h : (metrics aliases line).get metric = some value) :
    ∃ token ∈ tokens line, token.value = value := by
  rw [get_metrics, firstValue?] at h
  obtain ⟨token, hfind, hvalue⟩ := Option.map_eq_some_iff.mp h
  exact ⟨token, List.mem_of_find?_eq_some hfind, hvalue⟩

/-- A metric of a line has no white space. -/
theorem letters_of_metrics {aliases : PerMetric (List Text)} {line : Text} {metric : Metric}
    {value : Text} (h : (metrics aliases line).get metric = some value) :
    ∀ c ∈ value, ¬ isWhiteSpace c = true := by
  obtain ⟨token, htoken, rfl⟩ := exists_token_of_metrics h
  exact letters_of_mem_tokens htoken

/-! ## Names -/

/-- A qualified name is made of the characters of identifiers and of colons. -/
lemma isNamePart_of_mem_continuation {text : Text} {c : Char}
    (h : c ∈ continuation isNameStart isNamePart text) : c = ':' ∨ isNamePart c = true := by
  fun_induction continuation isNameStart isNamePart text with
  | case1 d rest hstart ih =>
    rcases List.mem_cons.mp h with rfl | h
    · exact Or.inl rfl
    rcases List.mem_cons.mp h with rfl | h
    · exact Or.inl rfl
    rcases List.mem_cons.mp h with rfl | h
    · exact Or.inr (Name.isPart_of_isStart hstart)
    · exact ih h
  | case2 => cases h
  | case3 d rest hscope hpart ih =>
    rcases List.mem_cons.mp h with rfl | h
    · exact Or.inr hpart
    · exact ih h
  | case4 => cases h
  | case5 => cases h

lemma letters_of_leading? {text name : Text}
    (h : leading? isNameStart isNamePart text = some name) :
    ∀ c ∈ name, ¬ isWhiteSpace c = true := by
  intro c hc hblank
  have hpart : c = ':' ∨ isNamePart c = true := by
    unfold leading? at h
    split at h
    · cases h
    · next d rest =>
      split at h
      · next hstart =>
        cases h
        rcases List.mem_cons.mp hc with rfl | hrest
        · exact Or.inr (Name.isPart_of_isStart hstart)
        · exact isNamePart_of_mem_continuation hrest
      · cases h
  rcases hpart with rfl | hpart
  · revert hblank
    decide
  · rw [not_isNamePart_of_blank hblank] at hpart
    cases hpart

lemma letters_of_nameAfterLabel? {form : ContextForm} {label text name : Text}
    (h : nameAfterLabel? form label text = some name) : ∀ c ∈ name, ¬ isWhiteSpace c = true := by
  unfold nameAfterLabel? at h
  split at h
  · cases h
  · split at h
    · cases h
    · split at h
      · exact letters_of_leading? h
      · cases h

/-- A name that is found in a line has no white space. -/
lemma letters_of_nameIn? {form : ContextForm} {label text name : Text} {previous : Option Char}
    (h : nameIn? form label previous text = some name) : ∀ c ∈ name, ¬ isWhiteSpace c = true := by
  induction text generalizing previous with
  | nil => cases h
  | cons c rest ih =>
    unfold nameIn? at h
    dsimp only at h
    split at h
    · next found hhere =>
      cases h
      split at hhere
      · cases hhere
      · exact letters_of_nameAfterLabel? hhere
    · exact ih h

/-- The name of a kernel that a line names has no white space. -/
theorem letters_of_context? {label line name : Text} (h : context? label line = some name) :
    ∀ c ∈ name, ¬ isWhiteSpace c = true := by
  unfold context? at h
  dsimp only at h
  split at h
  · next found hcolon =>
    cases h
    exact letters_of_nameIn? hcolon
  · exact letters_of_nameIn? h

/-- The name of the kernel at a site has no white space. -/
theorem Site.letters_of_kernel? {markers : Markers} {site : Site} {kernel : Text}
    (h : site.kernel? markers = some kernel) : ∀ c ∈ kernel, ¬ isWhiteSpace c = true := by
  obtain ⟨last, -, hcontext, -⟩ :=
    (kernelUpTo?_eq_some_iff markers site.lines site.place kernel).mp h
  obtain ⟨line, -, hline⟩ := Option.bind_eq_some_iff.mp hcontext
  exact letters_of_context? hline

end Log

end KernelCensus
