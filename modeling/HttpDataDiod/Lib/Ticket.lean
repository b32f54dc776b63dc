import Mathlib.Data.List.Basic
import Mathlib.Data.List.Nodup

/-!
# Numbered items

Items that go through a queue may be equal.  Where each of them gets the next number on its
way in, they can be told apart, and what becomes of them can be said with lists.

* `Ticketed`: numbers in increasing order, below the next one.
* `without`: a list without the items of another, with `without_singleton` for one item.
-/

namespace Ticket

variable {α : Type*} {l dropped : List (ℕ × α)} {next : ℕ} {x : ℕ × α}

/-! ## Numbers in order -/

/-- The numbers increase and are below the next one. -/
structure Ticketed (l : List (ℕ × α)) (next : ℕ) : Prop where
  increasing : l.Pairwise fun x y => x.1 < y.1
  lt_next : ∀ x ∈ l, x.1 < next

theorem ticketed_nil (next : ℕ) : Ticketed ([] : List (ℕ × α)) next where
  increasing := List.Pairwise.nil
  lt_next := List.forall_mem_nil _

namespace Ticketed

theorem later (h : Ticketed l next) : Ticketed l (next + 1) where
  increasing := h.increasing
  lt_next := fun x hx => Nat.lt_succ_of_lt (h.lt_next x hx)

theorem sublist {m : List (ℕ × α)} (h : Ticketed l next) (hm : m.Sublist l) : Ticketed m next where
  increasing := h.increasing.sublist hm
  lt_next := fun x hx => h.lt_next x (hm.subset hx)

/-- The next item. -/
theorem snoc (h : Ticketed l next) (a : α) : Ticketed (l ++ [(next, a)]) (next + 1) where
  increasing := by
    refine List.pairwise_append.mpr ⟨h.increasing, List.pairwise_singleton _ _, fun x hx y hy => ?_⟩
    obtain rfl := List.mem_singleton.mp hy
    exact h.lt_next x hx
  lt_next := by
    refine List.forall_mem_append.mpr ⟨h.later.lt_next, List.forall_mem_singleton.mpr ?_⟩
    exact Nat.lt_succ_self next

/-- No number is given twice. -/
theorem nodup (h : Ticketed l next) : (l.map Prod.fst).Nodup :=
  List.pairwise_map.mpr (h.increasing.imp fun hlt => Nat.ne_of_lt hlt)

theorem fresh (h : Ticketed l next) : next ∉ l.map Prod.fst := by
  intro hmem
  obtain ⟨x, hx, heq⟩ := List.mem_map.mp hmem
  exact absurd (h.lt_next x hx) (by omega)

end Ticketed

/-! ## Leaving items out -/

/-- The items whose numbers are not among those of `dropped`. -/
def without (l dropped : List (ℕ × α)) : List (ℕ × α) :=
  l.filter fun x => x.1 ∉ dropped.map Prod.fst

theorem without_sublist (l dropped : List (ℕ × α)) : (without l dropped).Sublist l :=
  List.filter_sublist

theorem without_append (l m dropped : List (ℕ × α)) :
    without (l ++ m) dropped = without l dropped ++ without m dropped :=
  List.filter_append l m

theorem without_append_dropped (l dropped more : List (ℕ × α)) :
    without l (dropped ++ more) = without (without l dropped) more := by
  unfold without
  rw [List.filter_filter]
  refine List.filter_congr fun x _ => ?_
  rw [← Bool.decide_and]
  refine decide_eq_decide.mpr ?_
  rw [List.map_append, List.mem_append, not_or, and_comm]

/-- What has none of the numbers stays. -/
theorem without_eq_self (h : ∀ x ∈ l, x.1 ∉ dropped.map Prod.fst) : without l dropped = l :=
  List.filter_eq_self.mpr fun x hx => decide_eq_true (h x hx)

@[simp] theorem without_self (l : List (ℕ × α)) : without l l = [] := by
  refine List.filter_eq_nil_iff.mpr fun x hx => ?_
  simpa using ⟨x.2, hx⟩

/-- Leaving out an item that is not there. -/
theorem without_singleton_of_notMem (h : x.1 ∉ l.map Prod.fst) : without l [x] = l := by
  refine without_eq_self fun y hy heq => h ?_
  rw [List.map_singleton, List.mem_singleton] at heq
  exact heq ▸ List.mem_map_of_mem hy

/-- Leaving out one item of a list without repeated numbers. -/
theorem without_singleton {m : List (ℕ × α)} (h : ((l ++ x :: m).map Prod.fst).Nodup) :
    without (l ++ x :: m) [x] = l ++ m := by
  rw [List.map_append, List.map_cons, List.nodup_middle, List.nodup_cons, List.mem_append,
    not_or] at h
  have hx : without [x] [x] = [] := by simp [without]
  rw [← List.singleton_append, without_append, without_append, hx,
    without_singleton_of_notMem h.1.1, without_singleton_of_notMem h.1.2, List.nil_append]

end Ticket
