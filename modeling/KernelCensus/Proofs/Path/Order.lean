import KernelCensus.Path
import Mathlib.Tactic.Common

/-!
# The order of paths

Names are ordered by their characters and paths by their parts. Both are orders of lists in which
the first two elements that differ decide, so that they inherit from the order of the elements what
sorting needs. Two paths of which each is before the other are the same path, though they may be
written in two ways.

* `Path.Orders`, `Path.Orders.lexicographic`: linear orders, of elements and of lists.
* `Path.orders_partsLe`, `Path.le_total`, `Path.le_trans`, `Path.parts_eq_of_le`: the order of paths.
* `Path.mergeSort_eq_of_perm`, `Path.map_parts_mergeSort_of_perm`: sorting.
-/

namespace KernelCensus.Path

/-- Whether a comparison is that of a linear order. -/
structure Orders {α : Type} (le : α → α → Bool) : Prop where
  total : ∀ x y, le x y = true ∨ le y x = true
  trans : ∀ {x y z}, le x y = true → le y z = true → le x z = true
  antisymm : ∀ {x y}, le x y = true → le y x = true → x = y

/-! ## Lists -/

section
variable {α : Type} [DecidableEq α]

/-- The comparison of lists by the first two elements that differ. -/
def lexicographic (le : α → α → Bool) : List α → List α → Bool
  | [], _ => true
  | _ :: _, [] => false
  | x :: xs, y :: ys => if x = y then lexicographic le xs ys else le x y

variable {le : α → α → Bool}

lemma lexicographic_cons_self (x : α) (xs ys : List α) :
    lexicographic le (x :: xs) (x :: ys) = lexicographic le xs ys := by
  rw [lexicographic, if_pos rfl]

/-- Lists that start with different elements are compared by these. -/
lemma lexicographic_cons_of_ne {x y : α} (h : x ≠ y) (xs ys : List α) :
    lexicographic le (x :: xs) (y :: ys) = le x y := by
  rw [lexicographic, if_neg h]

/-- Lists of ordered elements are ordered. -/
theorem Orders.lexicographic (h : Orders le) : Orders (lexicographic le) where
  total xs ys := by
    induction xs generalizing ys with
    | nil => exact Or.inl rfl
    | cons x xs ih =>
      cases ys with
      | nil => exact Or.inr rfl
      | cons y ys =>
        by_cases hxy : x = y
        · rw [hxy, lexicographic_cons_self, lexicographic_cons_self]
          exact ih ys
        · rw [lexicographic_cons_of_ne hxy, lexicographic_cons_of_ne (Ne.symm hxy)]
          exact h.total x y
  trans {xs ys zs} hfirst hsecond := by
    induction xs generalizing ys zs with
    | nil => rfl
    | cons x xs ih =>
      cases ys with
      | nil => cases hfirst
      | cons y ys =>
        cases zs with
        | nil => cases hsecond
        | cons z zs =>
          by_cases hxy : x = y
          · rw [hxy, lexicographic_cons_self] at hfirst
            by_cases hyz : y = z
            · rw [hyz, lexicographic_cons_self] at hsecond
              rw [hxy, hyz, lexicographic_cons_self]
              exact ih hfirst hsecond
            · rw [lexicographic_cons_of_ne hyz] at hsecond
              rw [hxy, lexicographic_cons_of_ne hyz]
              exact hsecond
          · rw [lexicographic_cons_of_ne hxy] at hfirst
            by_cases hyz : y = z
            · rw [← hyz, lexicographic_cons_of_ne hxy]
              exact hfirst
            · rw [lexicographic_cons_of_ne hyz] at hsecond
              -- an element between two that are equal would be equal to both
              have hxz : x ≠ z := by
                rintro rfl
                exact hxy (h.antisymm hfirst hsecond)
              rw [lexicographic_cons_of_ne hxz]
              exact h.trans hfirst hsecond
  antisymm {xs ys} hfirst hsecond := by
    induction xs generalizing ys with
    | nil =>
      cases ys with
      | nil => rfl
      | cons y ys => cases hsecond
    | cons x xs ih =>
      cases ys with
      | nil => cases hfirst
      | cons y ys =>
        by_cases hxy : x = y
        · rw [hxy, lexicographic_cons_self] at hfirst hsecond
          rw [hxy, ih hfirst hsecond]
        · rw [lexicographic_cons_of_ne hxy] at hfirst
          rw [lexicographic_cons_of_ne (Ne.symm hxy)] at hsecond
          exact absurd (h.antisymm hfirst hsecond) hxy

end

/-! ## Names and parts -/

/-- Names are compared by the code points of their characters. -/
lemma nameLe_eq (m n : Text) : nameLe m n = lexicographic (fun c d => c.toNat ≤ d.toNat) m n := by
  induction m generalizing n with
  | nil => rfl
  | cons c m ih =>
    cases n with
    | nil => rfl
    | cons d n =>
      rw [nameLe, lexicographic, ih]
      split
      · rfl
      · next hne =>
        have hcode : c.toNat ≠ d.toNat := fun heq => hne (Char.toNat_inj.mp heq)
        rw [decide_eq_decide]
        omega

lemma orders_nameLe : Orders nameLe := by
  have hchars : Orders fun c d : Char => decide (c.toNat ≤ d.toNat) := by
    constructor
    · intro c d
      simp only [decide_eq_true_eq]
      omega
    · intro c d e
      simp only [decide_eq_true_eq]
      omega
    · intro c d hcd hdc
      rw [decide_eq_true_eq] at hcd hdc
      exact Char.toNat_inj.mp (Nat.le_antisymm hcd hdc)
  have heq : nameLe = lexicographic fun c d => c.toNat ≤ d.toNat :=
    funext fun m => funext fun n => nameLe_eq m n
  rw [heq]
  exact hchars.lexicographic

lemma Part.orders_le : Orders Part.le where
  total p q := by
    cases p <;> cases q <;> simp [Part.le, Part.rank, orders_nameLe.total]
  trans {p q r} hpq hqr := by
    cases p <;> cases q <;> cases r <;> simp [Part.le, Part.rank] at hpq hqr ⊢
    exact orders_nameLe.trans hpq hqr
  antisymm {p q} hpq hqp := by
    cases p <;> cases q <;> simp [Part.le, Part.rank] at hpq hqp ⊢
    exact orders_nameLe.antisymm hpq hqp

/-- Lists of parts are linearly ordered. -/
theorem orders_partsLe : Orders partsLe := by
  have heq : partsLe = lexicographic Part.le := by
    funext ps qs
    induction ps generalizing qs with
    | nil => rfl
    | cons p ps ih =>
      cases qs with
      | nil => rfl
      | cons q qs => rw [partsLe, lexicographic, ih]
  rw [heq]
  exact Part.orders_le.lexicographic

/-! ## Paths -/

variable {p q r : Path}

lemma le_total (p q : Path) : (p.le q || q.le p) = true := by
  rw [Bool.or_eq_true]
  exact orders_partsLe.total p.parts q.parts

lemma le_trans (hpq : p.le q = true) (hqr : q.le r = true) : p.le r = true :=
  orders_partsLe.trans hpq hqr

/-- Two paths of which each is before the other have the same parts. -/
lemma parts_eq_of_le (hpq : p.le q = true) (hqp : q.le p = true) : p.parts = q.parts :=
  orders_partsLe.antisymm hpq hqp

/-! ## Sorting -/

variable {ps qs : List Path}

lemma pairwise_mergeSort (ps : List Path) :
    (ps.mergeSort le).Pairwise fun p q => p.le q = true :=
  List.pairwise_mergeSort (fun p q r => le_trans (p := p) (q := q) (r := r)) le_total ps

lemma mergeSort_perm (h : ps.Perm qs) : (ps.mergeSort le).Perm (qs.mergeSort le) :=
  ((List.mergeSort_perm ps le).trans h).trans (List.mergeSort_perm qs le).symm

/-- Paths in another order are sorted in the same way if none of them is written in two ways. -/
theorem mergeSort_eq_of_perm (h : ps.Perm qs)
    (hwritten : ∀ p ∈ ps, ∀ q ∈ qs, p.parts = q.parts → p = q) :
    ps.mergeSort le = qs.mergeSort le := by
  refine (mergeSort_perm h).eq_of_pairwise ?_ (pairwise_mergeSort ps) (pairwise_mergeSort qs)
  intro p q hp hq hpq hqp
  exact hwritten p (List.mem_mergeSort.mp hp) q (List.mem_mergeSort.mp hq) (parts_eq_of_le hpq hqp)

/-- Paths in another order are sorted in the same way, however they are written. -/
theorem map_parts_mergeSort_of_perm (h : ps.Perm qs) :
    (ps.mergeSort le).map parts = (qs.mergeSort le).map parts := by
  have hsorted (ps : List Path) :
      ((ps.mergeSort le).map parts).Pairwise fun p q => partsLe p q = true :=
    List.pairwise_map.mpr (pairwise_mergeSort ps)
  exact ((mergeSort_perm h).map parts).eq_of_pairwise (fun _ _ _ _ => orders_partsLe.antisymm)
    (hsorted ps) (hsorted qs)

end KernelCensus.Path
