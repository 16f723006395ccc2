import KernelCensus.Project.Plan
import Mathlib.Tactic.Common

/-!
# What work comes to

Work on a disk that answers at once is described by what its results and what its problems are like,
whatever notices there are before it. The description of a piece of work follows from those of its
steps.

* `Work.Ensures`: descriptions.
* `Work.Ensures.bind`, `Work.Ensures.mapM`: steps.
* `Work.answer_mapM`: steps that note nothing.
-/

namespace KernelCensus.Work

variable {α β : Type}

/-- The answer of work that starts with some notices, and the notices after it. -/
def answer (work : Work Id α) (notices : List Notice) : Except Problem α × List Notice :=
  StateT.run (ExceptT.run work) notices

/-- Whether the results of work and its problems are of certain kinds. -/
def Ensures (work : Work Id α) (result : α → Prop) (problem : Problem → Prop) : Prop :=
  ∀ notices, match (answer work notices).1 with
    | .ok value => result value
    | .error failure => problem failure

/-- Work goes on from the result of its first step, if that has one. -/
lemma answer_bind (work : Work Id α) (next : α → Work Id β) (notices : List Notice) :
    answer (work >>= next) notices =
      match answer work notices with
      | (.ok value, notices) => answer (next value) notices
      | (.error failure, notices) => (.error failure, notices) := by
  show (let first := answer work notices
    StateT.run (ExceptT.bindCont next first.1) first.2) = _
  rcases answer work notices with ⟨failure | value, notices⟩
  · rfl
  · rfl

/-- Work that has a result has one of its first step, and goes on from there. -/
lemma answer_bind_eq_ok {work : Work Id α} {next : α → Work Id β} {value : β}
    {notices after : List Notice} (h : answer (work >>= next) notices = (.ok value, after)) :
    ∃ first between, answer work notices = (.ok first, between) ∧
      answer (next first) between = (.ok value, after) := by
  rw [answer_bind] at h
  split at h
  · next first between hfirst => exact ⟨first, between, hfirst, h⟩
  · cases h

/-- Work on the items of a list that notes nothing has the results of its steps, up to the first
that fails. -/
lemma answer_mapM {step : α → Work Id β} {value : α → Except Problem β}
    (h : ∀ item notices, answer (step item) notices = (value item, notices)) (items : List α)
    (notices : List Notice) : answer (items.mapM step) notices = (items.mapM value, notices) := by
  induction items with
  | nil => rfl
  | cons item items ih =>
    rw [List.mapM_cons, List.mapM_cons, answer_bind, h]
    cases value item with
    | error failure => rfl
    | ok first =>
      show answer (items.mapM step >>= fun rest => pure (first :: rest)) notices = _
      rw [answer_bind, ih]
      cases items.mapM value with
      | error failure => rfl
      | ok rest => rfl

section
variable {result result' : α → Prop} {problem problem' : Problem → Prop} {work : Work Id α}

/-- A result is of its kind. -/
lemma Ensures.of_ok (h : Ensures work result problem) {value : α} {notices after : List Notice}
    (hanswer : answer work notices = (.ok value, after)) : result value := by
  simpa only [hanswer] using h notices

/-- A failure is of its kind. -/
lemma Ensures.of_error (h : Ensures work result problem) {failure : Problem}
    {notices after : List Notice} (hanswer : answer work notices = (.error failure, after)) :
    problem failure := by
  simpa only [hanswer] using h notices

lemma ensures_pure {value : α} (h : result value) : Ensures (pure value) result problem :=
  fun _ => h

lemma ensures_note (notices : List Notice) : Ensures (note notices) (fun _ => True) problem :=
  fun _ => trivial

lemma ensures_look (query : Id α) : Ensures (look query) (fun value => value = query) problem :=
  fun _ => rfl

lemma ensures_check {ε : Type} (cause : ε → Problem) (checked : Except ε α) :
    Ensures (check cause checked) (fun value => checked = .ok value)
      (fun failure => ∃ error, checked = .error error ∧ failure = cause error) := by
  cases checked with
  | ok value => exact fun _ => rfl
  | error error => exact fun _ => ⟨error, rfl, rfl⟩

/-- A check whose failures are all of a kind. -/
lemma ensures_check_of_forall {ε : Type} {cause : ε → Problem} (checked : Except ε α)
    (h : ∀ error, problem (cause error)) :
    Ensures (check cause checked) (fun value => checked = .ok value) problem := by
  cases checked with
  | ok value => exact fun _ => rfl
  | error error => exact fun _ => h error

/-- A description may be weakened. -/
lemma Ensures.imp (h : Ensures work result problem)
    (hresult : ∀ value, result value → result' value)
    (hproblem : ∀ failure, problem failure → problem' failure) : Ensures work result' problem' := by
  intro notices
  have hwork := h notices
  split at hwork
  · exact hresult _ hwork
  · exact hproblem _ hwork

/-- The second step starts from a result of the first. -/
lemma Ensures.bind {next : α → Work Id β} {after : β → Prop} (h : Ensures work result problem)
    (hnext : ∀ value, result value → Ensures (next value) after problem) :
    Ensures (work >>= next) after problem := by
  intro notices
  have hwork := h notices
  rw [answer_bind]
  rcases heq : answer work notices with ⟨failure | value, notices'⟩
  · rw [heq] at hwork
    exact hwork
  · rw [heq] at hwork
    exact hnext value hwork notices'

/-- Work on the items of a list, one after another. -/
lemma Ensures.mapM {step : α → Work Id β} {value : α → β → Prop} {items : List α}
    (h : ∀ item ∈ items, Ensures (step item) (value item) problem) :
    Ensures (items.mapM step) (List.Forall₂ value items) problem := by
  induction items with
  | nil =>
    rw [List.mapM_nil]
    exact ensures_pure .nil
  | cons item items ih =>
    rw [List.mapM_cons]
    refine (h item List.mem_cons_self).bind fun first hfirst => ?_
    refine (ih fun other hmem => h other (List.mem_cons_of_mem item hmem)).bind fun rest hrest => ?_
    exact ensures_pure (.cons hfirst hrest)

end

end KernelCensus.Work
