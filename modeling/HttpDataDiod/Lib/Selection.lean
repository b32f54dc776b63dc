import Mathlib.Data.List.Sort
import Mathlib.Order.Defs.LinearOrder

/-!
# Partial selection

A selection algorithm rearranges a sequence so that its first `n` elements do not come after
any of the others; the order among the first and among the others is left open.

* `IsNthElement`: the sequences that the algorithm may leave.
* `exists_isNthElement`: by sorting, there is one.
-/

namespace Selection

variable {α β : Type*}

/-- What `std::nth_element` may leave behind: the same elements, none of the first `n` of which
comes after one of the others. -/
def IsNthElement (lt : α → α → Prop) (n : ℕ) (before after : List α) : Prop :=
  after.Perm before ∧ ∀ a ∈ after.take n, ∀ b ∈ after.drop n, ¬ lt b a

instance [DecidableEq α] (lt : α → α → Prop) [DecidableRel lt] (n : ℕ) (before after : List α) :
    Decidable (IsNthElement lt n before after) :=
  inferInstanceAs (Decidable (_ ∧ _))

/-- With elements compared by a rank, sorting is a selection. -/
theorem exists_isNthElement [LinearOrder β] (rank : α → β) (n : ℕ) (before : List α) :
    ∃ after, IsNthElement (fun a b => rank a < rank b) n before after := by
  let le : α → α → Bool := fun a b => decide (rank a ≤ rank b)
  have hsorted : (before.mergeSort le).Pairwise (fun a b => le a b = true) :=
    List.pairwise_mergeSort
      (fun a b c hab hbc => decide_eq_true
        ((of_decide_eq_true hab).trans (of_decide_eq_true hbc)))
      (fun a b => by
        rcases le_total (rank a) (rank b) with h | h
        · simp [h]
        · simp [h])
      before
  refine ⟨before.mergeSort le, List.mergeSort_perm before le, fun a ha b hb => not_lt.mpr ?_⟩
  rw [← List.take_append_drop n (before.mergeSort le), List.pairwise_append] at hsorted
  exact of_decide_eq_true (hsorted.2.2 a ha b hb)

/-- The others are what the first leave. -/
theorem IsNthElement.mem_drop_iff {lt : α → α → Prop} {n : ℕ} {before after : List α}
    (h : IsNthElement lt n before after) (hnodup : before.Nodup) {b : α} :
    b ∈ after.drop n ↔ b ∈ before ∧ b ∉ after.take n := by
  have hafter : (after.take n ++ after.drop n).Nodup := by
    rw [List.take_append_drop]
    exact h.1.nodup_iff.mpr hnodup
  have hmem : b ∈ before ↔ b ∈ after.take n ∨ b ∈ after.drop n := by
    rw [← List.mem_append, List.take_append_drop]
    exact h.1.mem_iff.symm
  have hdisjoint := (List.nodup_append.mp hafter).2.2
  constructor
  · intro hb
    exact ⟨hmem.mpr (.inr hb), fun htake => hdisjoint b htake b hb rfl⟩
  · rintro ⟨hb, hnot⟩
    exact (hmem.mp hb).resolve_left hnot

end Selection
