import Mathlib.Algebra.BigOperators.Fin

/-!
# Counting over threads

The counters of a concurrent program are often sums over its threads, and a step changes the part
of one thread.

* `sum_update_add`: a sum with one part changed.
* `countP_add_countP_le`: two counts of different things.
-/

namespace Counting

variable {α ι : Type*}

/-- A sum with one part changed, written without subtraction. -/
theorem sum_update_add [Fintype ι] [DecidableEq ι] (weight : α → ℕ) (f : ι → α) (i : ι) (a : α) :
    ∑ j, weight (Function.update f i a j) + weight (f i) = ∑ j, weight (f j) + weight a := by
  have hbefore := Finset.add_sum_erase Finset.univ (fun j => weight (f j)) (Finset.mem_univ i)
  have hafter := Finset.add_sum_erase Finset.univ (fun j => weight (Function.update f i a j))
    (Finset.mem_univ i)
  have hrest : ∑ j ∈ Finset.univ.erase i, weight (Function.update f i a j) =
      ∑ j ∈ Finset.univ.erase i, weight (f j) :=
    Finset.sum_congr rfl fun j hj => by
      rw [Function.update_of_ne (Finset.ne_of_mem_erase hj)]
  rw [Function.update_self, hrest] at hafter
  omega

theorem countP_cons_toNat (p : α → Bool) (a : α) (l : List α) :
    (a :: l).countP p = l.countP p + (p a).toNat := by
  rw [List.countP_cons]
  cases p a <;> rfl

/-- What is counted twice on the left is counted so often on the right. -/
theorem countP_add_countP_le {p q r : α → Bool}
    (h : ∀ a, (p a).toNat + (q a).toNat ≤ (r a).toNat) (l : List α) :
    l.countP p + l.countP q ≤ l.countP r := by
  induction l with
  | nil => exact Nat.le_refl 0
  | cons a l ih =>
    have ha := h a
    rw [countP_cons_toNat, countP_cons_toNat, countP_cons_toNat]
    omega

end Counting
