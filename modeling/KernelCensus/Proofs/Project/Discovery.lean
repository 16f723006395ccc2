import KernelCensus.Project.Logs
import KernelCensus.Proofs.Firsts
import Mathlib.Data.List.ProdSigma

/-!
# Logs found by name

Each source asks for one log under each precision, and a log goes to the first that asks for its
path. Which claim is the first is decided source by source, and two paths are the same if their
parts are, however they are written. So every log that is asked for is found once, and every other
claim on it is answered by a notice.

* `LogFile.firstClaims_eq`: the logs that are found are the firsts of their paths.
* `LogFile.filter_discover`: the log at a path.
* `LogFile.length_discover_add`: claims are granted or noted.
* `LogFile.discover_claims`: which logs are found, for whom and in which order.
-/

namespace KernelCensus.LogFile

/-! ## Claims -/

/-- The logs at paths that no earlier log claims are the firsts of their paths. -/
theorem firstClaims_eq (claimed : List Path) (logs : List LogFile) :
    firstClaims claimed logs =
      firstsBy (fun log => log.path.parts) (logs.filter fun log => !isClaimed claimed log) := by
  induction logs generalizing claimed with
  | nil => rfl
  | cons log logs ih =>
    rw [firstClaims]
    by_cases hlog : isClaimed claimed log = true
    · rw [if_pos hlog, ih, List.filter_cons_of_neg (by simp [hlog])]
    · rw [if_neg hlog, ih, List.filter_cons_of_pos (by simp [hlog]), firstsBy_cons,
        List.filter_filter]
      -- a later log is claimed now if it was before or is at the path of this one
      have hclaimed (later : LogFile) : (!isClaimed (log.path :: claimed) later) =
          ((later.path.parts != log.path.parts) && !isClaimed claimed later) := by
        rw [isClaimed, List.any_cons, Bool.not_or]
        rfl
      simp only [hclaimed]

lemma length_firstClaims_add (claimed : List Path) (logs : List LogFile) :
    (firstClaims claimed logs).length + (laterClaims claimed logs).length = logs.length := by
  induction logs generalizing claimed with
  | nil => rfl
  | cons log logs ih =>
    rw [firstClaims, laterClaims, List.length_cons]
    split
    · rw [List.length_cons, ← ih claimed]
      omega
    · rw [List.length_cons, ← ih (log.path :: claimed)]
      omega

lemma exists_of_mem_laterClaims {claimed : List Path} {logs : List LogFile} {notice : Notice}
    (h : notice ∈ laterClaims claimed logs) :
    ∃ log ∈ logs, notice = .claimedLog log.source log.path := by
  induction logs generalizing claimed with
  | nil => exact absurd h List.not_mem_nil
  | cons log logs ih =>
    rw [laterClaims] at h
    split at h
    · rcases List.mem_cons.mp h with rfl | hrest
      · exact ⟨log, List.mem_cons_self, rfl⟩
      · obtain ⟨other, hother, heq⟩ := ih hrest
        exact ⟨other, List.mem_cons_of_mem log hother, heq⟩
    · obtain ⟨other, hother, heq⟩ := ih h
      exact ⟨other, List.mem_cons_of_mem log hother, heq⟩

/-! ## Discovery -/

section
variable (logsDir : Path) (sources : List Path) (precisions : List Precision)

/-- The log that a source asks for under a precision. -/
def ofPair (pair : Path × Precision) : LogFile := named logsDir (SourceFile.ofPath pair.1) pair.2

lemma candidates_eq : candidates logsDir sources precisions =
    (sources ×ˢ precisions).map (ofPair logsDir) := by
  show _ = (sources.flatMap _).map _
  rw [List.map_flatMap]
  simp only [List.map_map]
  rfl

/-- The logs that are found are the firsts of those that are asked for. -/
lemma discover_eq : discover logsDir sources precisions =
    firstsBy (fun log => log.path.parts) ((sources ×ˢ precisions).map (ofPair logsDir)) := by
  have hunclaimed (logs : List LogFile) : logs.filter (fun log => !isClaimed [] log) = logs :=
    List.filter_eq_self.mpr fun _ _ => rfl
  rw [discover, firstClaims_eq, hunclaimed, candidates_eq]

/-- The log at a path is that of the first pair that asks for it. -/
lemma filter_discover (path : Path) :
    (discover logsDir sources precisions).filter (fun log => log.path.same path) =
      (((sources ×ˢ precisions).find? fun pair => (ofPair logsDir pair).path.same path).map
        (ofPair logsDir)).toList := by
  have hfirst := filter_firstsBy (fun log : LogFile => log.path.parts)
    ((sources ×ˢ precisions).map (ofPair logsDir)) path.parts
  rw [List.find?_map] at hfirst
  rw [discover_eq]
  exact hfirst

/-- A log that is found is that of the first pair that asks for a log at its path. -/
lemma exists_claimant_of_mem_discover {log : LogFile}
    (h : log ∈ discover logsDir sources precisions) :
    ∃ pair, (sources ×ˢ precisions).find? (fun other =>
        (ofPair logsDir other).path.same log.path) = some pair ∧ ofPair logsDir pair = log := by
  have hmem : log ∈ (discover logsDir sources precisions).filter
      fun other => other.path.same log.path := List.mem_filter.mpr ⟨h, beq_self_eq_true _⟩
  rw [filter_discover, Option.mem_toList, Option.map_eq_some_iff] at hmem
  exact hmem

/-- Each pair of a source and a precision is granted its log or noted. -/
lemma length_discover_add :
    (discover logsDir sources precisions).length +
      (discoveryNotices logsDir sources precisions).length =
        sources.length * precisions.length := by
  rw [discover, discoveryNotices, length_firstClaims_add, candidates_eq, List.length_map,
    List.length_product]

end

/-- The logs that are found are at different paths, in the order of the first pairs of a source and
a precision that ask for them. For each pair there is just one log at its path, and that is the log
of the first pair with this path. All other claims are noted. -/
theorem discover_claims (logsDir : Path) (sources : List Path) (precisions : List Precision) :
    let pairs := sources ×ˢ precisions
    let pathOf (pair : Path × Precision) : Path :=
      logsDir.join ⟨Text.concat [(SourceFile.ofPath pair.1).stem, ".", pair.2.name, ".log"]⟩
    let position (path : Path) : Nat := pairs.findIdx fun pair => (pathOf pair).same path
    let logs := discover logsDir sources precisions
    let notices := discoveryNotices logsDir sources precisions
    logs.Pairwise (fun first second => first.path.same second.path = false) ∧
    (∀ source ∈ sources, ∀ precision ∈ precisions, ∃ log claimant,
      logs.filter (fun log => log.path.same (pathOf (source, precision))) = [log] ∧
      pairs.find? (fun pair => (pathOf pair).same (pathOf (source, precision))) = some claimant ∧
      log = ⟨(SourceFile.ofPath claimant.1).name, claimant.2, pathOf claimant⟩) ∧
    (∀ log ∈ logs, ∃ pair ∈ pairs, log.path.same (pathOf pair) = true) ∧
    logs.Pairwise (fun first second => position first.path < position second.path) ∧
    logs.length + notices.length = sources.length * precisions.length ∧
    ∀ notice ∈ notices, ∃ pair ∈ pairs,
      notice = .claimedLog (SourceFile.ofPath pair.1).name (pathOf pair) := by
  intro pairs pathOf position logs notices
  have hlogs : logs = firstsBy (fun log => log.path.parts) (pairs.map (ofPair logsDir)) :=
    discover_eq logsDir sources precisions
  refine ⟨?_, ?_, ?_, ?_, ?_, ?_⟩
  · have hnodup : (logs.map fun log => log.path.parts).Nodup := hlogs ▸ nodup_map_firstsBy _
    exact (List.pairwise_map.mp hnodup).imp fun hne => beq_false_of_ne hne
  · intro source hsource precision hprecision
    have hpair : (source, precision) ∈ pairs := List.mem_product.mpr ⟨hsource, hprecision⟩
    have hsome : (pairs.find? fun pair =>
        (pathOf pair).same (pathOf (source, precision))).isSome := by
      rw [List.find?_isSome]
      exact ⟨_, hpair, beq_self_eq_true _⟩
    obtain ⟨claimant, hclaimant⟩ := Option.isSome_iff_exists.mp hsome
    refine ⟨ofPair logsDir claimant, claimant, ?_, hclaimant, rfl⟩
    exact (filter_discover logsDir sources precisions _).trans
      (congrArg (fun found => (found.map (ofPair logsDir)).toList) hclaimant)
  · intro log hlog
    rw [hlogs] at hlog
    obtain ⟨pair, hpair, rfl⟩ := List.mem_map.mp ((firstsBy_sublist _).subset hlog)
    exact ⟨pair, hpair, beq_self_eq_true _⟩
  · -- each candidate is a block of its own
    have hblocks : ∀ pair ∈ pairs, [ofPair logsDir pair].Pairwise fun _ _ => False :=
      fun _ _ => List.pairwise_singleton _ _
    have horder := pairwise_firstsBy_flatMap (fun log : LogFile => log.path.parts) hblocks
    rw [← List.map_eq_flatMap, ← hlogs] at horder
    have hposition (path : Path) : blockOf (fun log : LogFile => log.path.parts)
        (fun pair => [ofPair logsDir pair]) pairs path.parts = position path := by
      simp only [blockOf, List.any_cons, List.any_nil, Bool.or_false]
      rfl
    refine horder.imp fun h => ?_
    rw [hposition, hposition] at h
    exact h.resolve_right fun hnone => hnone.2
  · exact length_discover_add logsDir sources precisions
  · intro notice hnotice
    obtain ⟨log, hlog, rfl⟩ := exists_of_mem_laterClaims hnotice
    rw [candidates_eq] at hlog
    obtain ⟨pair, hpair, rfl⟩ := List.mem_map.mp hlog
    exact ⟨pair, hpair, rfl⟩

/-- Of two sources with one stem the first has the log under each precision, and it has it once
though the precision is listed twice. -/
theorem discover_claims_shared_stem :
    let sources : List Path := [⟨"a/reduce.v2.cu".toList⟩, ⟨"b/reduce.v2.cuh".toList⟩]
    let precisions : List Precision := [.float, .half, .float]
    let log : LogFile :=
      ⟨"reduce.v2.cu".toList, .float, ⟨"logs/reduce.v2.float.log".toList⟩⟩
    let logs := discover ⟨"logs".toList⟩ sources precisions
    logs.filter (fun other => other.path.same log.path) = [log] ∧
      logs.length + (discoveryNotices ⟨"logs".toList⟩ sources precisions).length = 2 * 3 ∧
      logs.length = 2 := by
  intro sources precisions log logs
  obtain ⟨-, hpairs, -, -, hcount, -⟩ := discover_claims ⟨"logs".toList⟩ sources precisions
  obtain ⟨found, claimant, hfilter, hclaimant, rfl⟩ :=
    hpairs ⟨"b/reduce.v2.cuh".toList⟩ (by decide) .float (by decide)
  have hfirst : claimant = (⟨"a/reduce.v2.cu".toList⟩, .float) :=
    Option.some.inj (hclaimant.symm.trans (by decide +kernel))
  rw [hfirst] at hfilter
  exact ⟨hfilter, hcount, by decide +kernel⟩

end KernelCensus.LogFile
