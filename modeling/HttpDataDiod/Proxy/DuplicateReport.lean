import HttpDataDiod.Json.Value
import HttpDataDiod.Proxy.DuplicateDetector
import Mathlib.Algebra.Order.Ring.Nat

/-!
# The report of the duplicates

Model of `report` of `duplicate_detector.cpp`: a loop over the bodies that were delivered at
least twice, a sort, and the first of the sorted bodies as JSON.  The map of the bodies has no
order, and the sort leaves the order of ties open.

* `reportTotals`: the loop.
* `Sorting`: a sort by the comparison of the source.
* `report`: the report.
* `reportRight`: what it says of the bodies.
-/

namespace HttpDataDiod
namespace Proxy

open ByteText

/-- The comparison of `report`: more deliveries first, among ties the older body. -/
def reportedBefore (a b : DetectorEntry) : Bool :=
  if a.count ≠ b.count then decide (b.count < a.count) else decide (a.firstSeenMs < b.firstSeenMs)

/-- `std::ranges::sort` with this comparison, which leaves the order of ties open. -/
structure Sorting where
  sort : List DetectorEntry → List DetectorEntry
  perm : ∀ l, (sort l).Perm l
  sorted : ∀ l, (sort l).Pairwise fun a b => reportedBefore b a = false

theorem reportedBefore_eq_false_iff {a b : DetectorEntry} :
    reportedBefore a b = false ↔
      a.count < b.count ∨ (a.count = b.count ∧ b.firstSeenMs ≤ a.firstSeenMs) := by
  unfold reportedBefore
  by_cases h : a.count = b.count
  · simp [h]
  · rw [if_pos h, decide_eq_false_iff_not]
    omega

/-- A sort that keeps the order of ties. -/
def stableSorting : Sorting where
  sort := fun l => l.mergeSort fun a b => !reportedBefore b a
  perm := fun l => l.mergeSort_perm _
  sorted := by
    intro l
    refine List.Pairwise.imp (fun h => by simpa using h) (List.pairwise_mergeSort ?_ ?_ l)
    · intro a b c hab hbc
      rw [Bool.not_eq_true', reportedBefore_eq_false_iff] at *
      rcases hab with hab | ⟨hab, hab'⟩ <;> rcases hbc with hbc | ⟨hbc, hbc'⟩
      · exact .inl (by omega)
      · exact .inl (by omega)
      · exact .inl (by omega)
      · exact .inr ⟨by omega, UInt64.le_trans hab' hbc'⟩
    · intro a b
      rw [Bool.or_eq_true, Bool.not_eq_true', Bool.not_eq_true', reportedBefore_eq_false_iff,
        reportedBefore_eq_false_iff]
      rcases lt_trichotomy a.count b.count with h | h | h
      · exact .inr (.inl h)
      · rcases UInt64.le_total a.firstSeenMs b.firstSeenMs with h' | h'
        · exact .inl (.inr ⟨h.symm, h'⟩)
        · exact .inr (.inr ⟨h, h'⟩)
      · exact .inl (.inl h)

instance : Inhabited Sorting := ⟨stableSorting⟩

/-- The totals of the loop of `report`. -/
structure ReportTotals where
  duplicates : List DetectorEntry
  duplicateOccurrences : ℕ
  sameClient : ℕ
  crossClient : ℕ

/-- One round of the loop. -/
def ReportTotals.add (r : ReportTotals) (e : DetectorEntry) : ReportTotals where
  duplicates := r.duplicates ++ [e]
  duplicateOccurrences := r.duplicateOccurrences + (e.count - 1)
  sameClient := if e.clientIds.length ≤ 1 then r.sameClient + 1 else r.sameClient
  crossClient := if e.clientIds.length ≤ 1 then r.crossClient else r.crossClient + 1

/-- The loop of `report`, over the bodies that were delivered at least twice. -/
def reportTotals (d : DuplicateDetector) : ReportTotals :=
  (d.entries.filter fun e => 2 ≤ e.2.count).foldl (fun r e => r.add e.2) ⟨[], 0, 0, 0⟩

/-- `duplicate_bodies`. -/
def duplicateBodies (d : DuplicateDetector) : ℕ := d.entries.countP fun e => 2 ≤ e.2.count

/-- The duplicates of the report: the first `m_top_n` of them. -/
def reportTop (sorting : Sorting) (topN : ℕ) (d : DuplicateDetector) : List DetectorEntry :=
  let duplicates := sorting.sort (reportTotals d).duplicates
  duplicates.take (min duplicates.length topN)

/-- The type of a duplicate. -/
def duplicateType (e : DetectorEntry) : JsonValue :=
  .string (if e.clientIds.length ≤ 1 then ascii "same_client" else ascii "cross_client")

/-- A duplicate in the report.  The client ids are those of a sorted set. -/
def reportItem (e : DetectorEntry) : JsonValue :=
  .object
    [(ascii "body", .string e.body),
      (ascii "clients", .array
        ((e.clientIds.mergeSort fun a b => !JsonValue.keyLt b a).map JsonValue.string)),
      (ascii "count", .uint e.count),
      (ascii "first_seen_ms", .uint e.firstSeenMs.toNat),
      (ascii "last_seen_ms", .uint e.lastSeenMs.toNat),
      (ascii "type", duplicateType e)]

/-- `report`. -/
def report (o : DetectorOptions) (sorting : Sorting) (topN : ℕ) (d : DuplicateDetector) :
    JsonValue :=
  let totals := reportTotals d
  .object
    [(ascii "by_type", .object
        [(ascii "cross_client", .uint totals.crossClient),
          (ascii "same_client", .uint totals.sameClient)]),
      (ascii "duplicate_bodies", .uint totals.duplicates.length),
      (ascii "duplicate_occurrences", .uint totals.duplicateOccurrences),
      (ascii "enabled", .bool o.enabled),
      (ascii "top", .array ((reportTop sorting topN d).map reportItem))]

/-! ## What the report says -/

/-- The loop of `report` adds up the bodies it goes through. -/
theorem foldl_add (duplicates : List (Bytes × DetectorEntry)) (r : ReportTotals) :
    duplicates.foldl (fun r e => r.add e.2) r =
      { duplicates := r.duplicates ++ duplicates.map Prod.snd
        duplicateOccurrences :=
          r.duplicateOccurrences + (duplicates.map fun e => e.2.count - 1).sum
        sameClient := r.sameClient + duplicates.countP fun e => e.2.clientIds.length ≤ 1
        crossClient := r.crossClient + duplicates.countP fun e => ¬ e.2.clientIds.length ≤ 1 } := by
  induction duplicates generalizing r with
  | nil => simp
  | cons e duplicates ih =>
    rw [List.foldl_cons, ih (r.add e.2)]
    by_cases hsame : e.2.clientIds.length ≤ 1
    · simp [ReportTotals.add, hsame]
      omega
    · simp [ReportTotals.add, hsame, not_le.mp hsame]
      omega

/-- Bodies that were delivered once add nothing. -/
theorem sum_occurrences (entries : List (Bytes × DetectorEntry)) :
    ((entries.filter fun e => 2 ≤ e.2.count).map fun e => e.2.count - 1).sum =
      (entries.map fun e => e.2.count - 1).sum := by
  induction entries with
  | nil => rfl
  | cons e entries ih =>
    rw [List.filter_cons, List.map_cons, List.sum_cons, ← ih]
    by_cases h : 2 ≤ e.2.count
    · rw [if_pos (decide_eq_true h), List.map_cons, List.sum_cons]
    · have hzero : e.2.count - 1 = 0 := by omega
      rw [if_neg (by simpa using h), hzero, Nat.zero_add]

/-- What the report says: the occurrences, the bodies by their type, and the most frequent. -/
structure ReportRight (o : DetectorOptions) (sorting : Sorting) (topN : ℕ)
    (d : DuplicateDetector) : Prop where
  occurrences : (report o sorting topN d).find (ascii "duplicate_occurrences") =
    some (.uint (d.entries.map fun e => e.2.count - 1).sum)
  bodies : (report o sorting topN d).find (ascii "duplicate_bodies") =
    some (.uint (duplicateBodies d))
  types : ∃ same cross, same + cross = duplicateBodies d ∧
    (report o sorting topN d).find (ascii "by_type") =
      some (.object [(ascii "cross_client", .uint cross), (ascii "same_client", .uint same)])
  top : ∃ top : List DetectorEntry,
    (report o sorting topN d).find (ascii "top") = some (.array (top.map reportItem)) ∧
      (∀ e ∈ top, 2 ≤ e.count ∧ e ∈ d.entries.map Prod.snd) ∧
      top.Pairwise (fun a b => b.count ≤ a.count) ∧ top.length = min topN (duplicateBodies d)

theorem reportTotals_eq (d : DuplicateDetector) :
    reportTotals d =
      { duplicates := (d.entries.filter fun e => 2 ≤ e.2.count).map Prod.snd
        duplicateOccurrences := (d.entries.map fun e => e.2.count - 1).sum
        sameClient := (d.entries.filter fun e => 2 ≤ e.2.count).countP
          fun e => e.2.clientIds.length ≤ 1
        crossClient := (d.entries.filter fun e => 2 ≤ e.2.count).countP
          fun e => ¬ e.2.clientIds.length ≤ 1 } := by
  rw [reportTotals, foldl_add, sum_occurrences, List.nil_append, Nat.zero_add, Nat.zero_add,
    Nat.zero_add]

theorem length_duplicates (d : DuplicateDetector) :
    (reportTotals d).duplicates.length = duplicateBodies d := by
  rw [reportTotals_eq, List.length_map, duplicateBodies, List.countP_eq_length_filter]

theorem same_add_cross (d : DuplicateDetector) :
    (reportTotals d).sameClient + (reportTotals d).crossClient = duplicateBodies d := by
  have hsplit := List.length_eq_countP_add_countP
    (l := d.entries.filter fun e => 2 ≤ e.2.count) fun e => decide (e.2.clientIds.length ≤ 1)
  simp only [decide_eq_true_eq] at hsplit
  rw [← length_duplicates, reportTotals_eq, List.length_map]
  exact hsplit.symm

theorem reportRight (o : DetectorOptions) (sorting : Sorting) (topN : ℕ) (d : DuplicateDetector) :
    ReportRight o sorting topN d where
  occurrences := by
    show some (JsonValue.uint (reportTotals d).duplicateOccurrences) = _
    rw [reportTotals_eq]
  bodies := by
    show some (JsonValue.uint (reportTotals d).duplicates.length) = _
    rw [length_duplicates]
  types := ⟨_, _, same_add_cross d, rfl⟩
  top := by
    refine ⟨reportTop sorting topN d, rfl, fun e he => ?_, ?_, ?_⟩
    · have hmem := (sorting.perm _).mem_iff.mp (List.mem_of_mem_take he)
      rw [reportTotals_eq] at hmem
      obtain ⟨pair, hpair, rfl⟩ := List.mem_map.mp hmem
      obtain ⟨hpair, hcount⟩ := List.mem_filter.mp hpair
      exact ⟨of_decide_eq_true hcount, List.mem_map.mpr ⟨pair, hpair, rfl⟩⟩
    · refine List.Pairwise.imp (fun h => ?_)
        ((sorting.sorted (reportTotals d).duplicates).sublist (List.take_sublist _ _))
      rcases reportedBefore_eq_false_iff.mp h with h | h
      · exact h.le
      · exact h.1.le
    · have hlength := (sorting.perm (reportTotals d).duplicates).length_eq
      rw [reportTop, List.length_take, hlength, length_duplicates]
      omega

end Proxy
end HttpDataDiod
