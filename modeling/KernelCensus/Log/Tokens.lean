import KernelCensus.Markers
import KernelCensus.Name

/-!
# Tokens of a log line

A token is a key, an equals sign and a value, with white space allowed around the sign. A value
runs up to white space or one of `,;|)]` and the closing brace, and is not empty, so the value of
`a= b=1` is `b=1`.
-/

namespace KernelCensus.Log

/-- A `key=value` token. -/
structure Token where
  key : Text
  value : Text
deriving Repr, DecidableEq

/-- A character that may stand in a value. -/
def isValueChar (c : Char) : Bool :=
  !(Unicode.isWhiteSpace c || [',', ';', '|', ')', ']', '\x7d'].contains c)

/-- The value after a key, and what follows it. -/
def valueAfterKey? (text : Text) : Option (Text × Text) :=
  match Text.trimStart text with
  | '=' :: rest =>
    let value := (Text.trimStart rest).takeWhile isValueChar
    if value.isEmpty then none
    else some (value, (Text.trimStart rest).dropWhile isValueChar)
  | _ => none

theorem length_of_valueAfterKey? {text value rest : Text}
    (h : valueAfterKey? text = some (value, rest)) : rest.length ≤ text.length := by
  have hdrop (p : Char → Bool) (t : Text) : (t.dropWhile p).length ≤ t.length :=
    (List.dropWhile_sublist _).length_le
  unfold valueAfterKey? at h
  split at h
  · rename_i tail heq
    simp only at h
    split at h
    · cases h
    · cases h
      have h₁ := hdrop Unicode.isWhiteSpace text
      have h₂ := hdrop Unicode.isWhiteSpace tail
      have h₃ := hdrop isValueChar (Text.trimStart tail)
      simp only [Text.trimStart] at heq h₃ ⊢
      rw [heq, List.length_cons] at h₁
      omega
  · cases h

/-- The tokens of a line, from left to right. A key is a whole identifier, and one without a value
is passed over. -/
def tokens : Text → List Token
  | [] => []
  | c :: rest =>
    if Name.isStart c then
      match _h : valueAfterKey? (rest.dropWhile Name.isPart) with
      | some (value, after) => ⟨c :: rest.takeWhile Name.isPart, value⟩ :: tokens after
      | none => tokens (rest.dropWhile Name.isPart)
    else tokens rest
termination_by text => text.length
decreasing_by
  · exact Nat.lt_succ_of_le
      (Nat.le_trans (length_of_valueAfterKey? _h) (List.dropWhile_sublist _).length_le)
  · exact Nat.lt_succ_of_le (List.dropWhile_sublist _).length_le
  · exact Nat.lt_succ_self _

/-- The keys of the metrics, without white space around them and in lower case, each with the metric
that it gives. -/
def keyTable (aliases : PerMetric (List Text)) : List (Text × Metric) :=
  Metric.all.flatMap fun metric =>
    (((aliases.get metric).map Text.trim).filter (!·.isEmpty)).map fun key =>
      (Text.lowerAscii key, metric)

/-- The metric that a key gives: the first entry of the table decides. -/
def metricOf? (table : List (Text × Metric)) (key : Text) : Option Metric :=
  table.lookup (Text.lowerAscii key)

/-- The metrics of a line. For each metric the first token that gives it counts. -/
def metrics (aliases : PerMetric (List Text)) (line : Text) : Metrics :=
  let table := keyTable aliases
  (tokens line).foldl (fun metrics token =>
    match metricOf? table token.key with
    | some metric => metrics.fill metric token.value
    | none => metrics) Metrics.empty

end KernelCensus.Log
