import HttpDataDiod.Lib.ByteText
import HttpDataDiod.Lib.LinkedMap
import HttpDataDiod.Lib.Selection
import HttpDataDiod.Lib.Transition
import Mathlib.Algebra.Group.Int.Defs
import Mathlib.Algebra.Group.Nat.Defs
import Mathlib.Data.Fintype.EquivFin
import Mathlib.Data.Finset.Card

/-!
# Families with labels that come and go

`DynamicLabeledFamily` keeps some families of `prometheus-cpp` and one label, whose values are
not known before.  Three things belong to a label value: the vector of its children, one in each
of the families; the time it was last seen; and the metrics in the families themselves, which are
taken out by the pointers in the vector.  `get` adds a label value, and `Collect` takes label
values out: in one mode those that have been idle for too long and then, while there are too many,
those seen longest ago; in the other mode all that a provider does not report any more.

* `get`, `collect`: the two operations.
* `LabelsInv`: what the four loops keep.
* `LabelsSafe`, `labels_safe`: the three structures agree in every state, and what is left after
  a `Collect`.
* `capped_iff_room`: the number of label values stays within `max_entries` exactly when `get`
  meets no new one in a family that is full.
* `get_exceeds_cap`: `get` in a full family.
-/

namespace HttpDataDiod
namespace Metrics

open ByteText LinkedMap Transition

/-! ## The families of the library -/

/-- A metric object: its address, and the value of a gauge. -/
structure NativeMetric where
  id : ℕ
  value : Float

/-- `Family::metrics_`, by the value of the label. -/
abbrev NativeFamily := List (Bytes × NativeMetric)

namespace NativeFamily

/-- `Family::Add`: the metric of the label, which is made at the address `id` if there is none. -/
def add (family : NativeFamily) (label : Bytes) (id : ℕ) : NativeFamily × ℕ :=
  match lookup family label with
  | some metric => (family, metric.id)
  | none => (family ++ [(label, { id, value := 0 })], id)

/-- `Family::Remove`. -/
def remove (family : NativeFamily) (metric : ℕ) : NativeFamily :=
  family.eraseP fun e => e.2.id = metric

/-- `Gauge::Set` through a pointer. -/
def set (family : NativeFamily) (metric : ℕ) (value : Float) : NativeFamily :=
  family.map fun e => if e.2.id = metric then (e.1, { e.2 with value }) else e

/-- The metrics by their addresses. -/
def pointers (family : NativeFamily) : List (Bytes × ℕ) := family.map fun e => (e.1, e.2.id)

end NativeFamily

/-! ## The wrapper -/

/-- A reading of the steady clock, in nanoseconds since the start of the machine. -/
abbrev SteadyTime := Fin (2 ^ 63)

/-- `DynamicLabeledFamily::Config`, for `n` series.  `childrenValid`: the name of the label and
the buckets pass the checks of the library, which throws otherwise. -/
structure LabeledConfig where
  hasProvider : Bool
  ttlSeconds : UInt64
  maxEntries : ℕ
  childrenValid : Bool

/-- `DynamicLabeledFamily::State` for `n` series, with the counter of the dropped labels, if there
is one, and the next free address. -/
structure LabeledState (n : ℕ) where
  families : Fin n → NativeFamily
  children : List (Bytes × (Fin n → ℕ))
  lastSeen : List (Bytes × SteadyTime)
  dropped : Option ℕ
  nextId : ℕ

variable {n : ℕ} (cfg : LabeledConfig)

/-- `ensure_child`; `none` is the exception of `Family::Add`. -/
def ensureChild (label : Bytes) (s : LabeledState n) : Option (LabeledState n) :=
  if (lookup s.children label).isSome then some s
  else if 0 < n ∧ cfg.childrenValid = false then none
  else
    some { s with
      families := fun i => ((s.families i).add label (s.nextId + i)).1
      children := s.children ++ [(label, fun i => ((s.families i).add label (s.nextId + i)).2)]
      nextId := s.nextId + n }

/-- The assignment to `m_last_seen[label_value]`. -/
def seen (label : Bytes) (now : SteadyTime) (s : LabeledState n) : LabeledState n :=
  { s with lastSeen := upsert s.lastSeen label now fun _ => now }

/-- `get`: the child, or none if there was an exception, and the state behind it. -/
def get (label : Bytes) (seriesIndex : Fin n) (now : SteadyTime) (s : LabeledState n) :
    Option ℕ × LabeledState n :=
  match ensureChild cfg label s with
  | none => (none, s)
  | some s₁ =>
    ((lookup (seen label now s₁).children label).map fun series => series seriesIndex,
      seen label now s₁)

/-- `remove_label`. -/
def removeLabel (label : Bytes) (s : LabeledState n) : LabeledState n :=
  let counted := { s with dropped := s.dropped.map (· + 1) }
  match lookup s.children label with
  | none => counted
  | some series =>
    { counted with
      families := fun i => (s.families i).remove (series i)
      children := eraseKey s.children label }

/-- `remove_label` together with the erasure from `m_last_seen`. -/
def dropLabel (s : LabeledState n) (label : Bytes) : LabeledState n :=
  { removeLabel label s with lastSeen := eraseKey s.lastSeen label }

/-- The lifetime as a duration in nanoseconds, with the conversions of `std::chrono`. -/
def ttlNanoseconds (ttlSeconds : UInt64) : ℤ :=
  ((ttlSeconds.toNat : ℤ).bmod (2 ^ 64) * 10 ^ 9).bmod (2 ^ 64)

/-- `now - it->second > ttl`. -/
def stale (now at' : SteadyTime) : Bool :=
  decide (ttlNanoseconds cfg.ttlSeconds < (now : ℤ) - (at' : ℤ))

/-- The first loop of `evict_stale_and_trim`. -/
def evictStale (now : SteadyTime) (s : LabeledState n) : LabeledState n :=
  if 0 < cfg.ttlSeconds then
    ((s.lastSeen.filter fun e => stale cfg now e.2).map Prod.fst).foldl dropLabel s
  else s

/-- The number of labels above the cap. -/
def toEvict (s : LabeledState n) : ℕ := s.children.length - cfg.maxEntries

/-- The order of `nth_element`, by the last activity. -/
def seenBefore (s : LabeledState n) (a b : Bytes) : Prop :=
  (lookup s.lastSeen a).getD 0 < (lookup s.lastSeen b).getD 0

instance (s : LabeledState n) : DecidableRel (seenBefore s) := fun _ _ =>
  inferInstanceAs (Decidable (_ < _))

/-- What `nth_element` may make of the labels. -/
def Selected (s : LabeledState n) (oldest : List Bytes) : Prop :=
  Selection.IsNthElement (seenBefore s) (toEvict cfg s) (s.children.map Prod.fst) oldest

instance (s : LabeledState n) (oldest : List Bytes) : Decidable (Selected cfg s oldest) :=
  inferInstanceAs (Decidable (Selection.IsNthElement _ _ _ _))

/-- The rest of `evict_stale_and_trim`, whose `nth_element` has left `oldest`; false if `at` has
thrown. -/
def trim (oldest : List Bytes) (s : LabeledState n) : Bool × LabeledState n :=
  if s.children.length ≤ cfg.maxEntries then (true, s)
  else if s.children.all fun c => (lookup s.lastSeen c.1).isSome then
    (true, (oldest.take (toEvict cfg s)).foldl dropLabel s)
  else (false, s)

/-- `evict_stale_and_trim`. -/
def evictStaleAndTrim (now : SteadyTime) (oldest : List Bytes) (s : LabeledState n) :
    Bool × LabeledState n :=
  trim cfg oldest (evictStale cfg now s)

/-- An element of what a provider reports, with the time at which it is taken in. -/
structure Provided (n : ℕ) where
  label : Bytes
  values : Fin n → Float
  now : SteadyTime

/-- `Gauge::Set` for every series of a label. -/
def setValues (label : Bytes) (values : Fin n → Float) (s : LabeledState n) : LabeledState n :=
  match lookup s.children label with
  | none => s
  | some series => { s with families := fun i => (s.families i).set (series i) (values i) }

/-- The first loop of `replace_from_provider`; false if there was an exception. -/
def takeIn : List (Provided n) → LabeledState n → Bool × LabeledState n
  | [], s => (true, s)
  | p :: provided, s =>
    match ensureChild cfg p.label s with
    | none => (false, s)
    | some s₁ => takeIn provided (setValues p.label p.values (seen p.label p.now s₁))

/-- The second loop of `replace_from_provider`. -/
def removeAbsent (present : List Bytes) (s : LabeledState n) : LabeledState n :=
  ((s.lastSeen.filter fun e => !decide (e.1 ∈ present)).map Prod.fst).foldl dropLabel s

/-- `replace_from_provider`. -/
def replaceFromProvider (provided : List (Provided n)) (s : LabeledState n) :
    Bool × LabeledState n :=
  match takeIn cfg provided s with
  | (false, s₁) => (false, s₁)
  | (true, s₁) => (true, removeAbsent (provided.map Provided.label) s₁)

/-- What `Collect` takes from outside: the clock and the outcome of `nth_element`, or what the
provider reports. -/
structure CollectChoices (n : ℕ) where
  now : SteadyTime
  oldest : List Bytes
  provided : List (Provided n)

/-- `Collect`, up to the collection of the families; false if there was an exception. -/
def collect (choices : CollectChoices n) (s : LabeledState n) : Bool × LabeledState n :=
  if cfg.hasProvider then replaceFromProvider cfg choices.provided s
  else evictStaleAndTrim cfg choices.now choices.oldest s

/-! ## Runs -/

inductive LabelEvent (n : ℕ) where
  | get (label : Bytes) (seriesIndex : Fin n) (now : SteadyTime)
  | collect (choices : CollectChoices n)

/-- The label values that are tracked. -/
def LabeledState.labels (s : LabeledState n) : Finset Bytes := (s.children.map Prod.fst).toFinset

/-- The wrapper, and how many labels have gone. -/
structure LabelRun (n : ℕ) where
  state : LabeledState n
  removed : ℕ

/-- The labels that go from one state to the next are counted. -/
def LabelRun.next (r : LabelRun n) (s : LabeledState n) : LabelRun n where
  state := s
  removed := r.removed + (r.state.labels \ s.labels).card

/-- One call.  Where `nth_element` is called its outcome is one that it may have. -/
def labelStep (r : LabelRun n) : LabelEvent n → Option (LabelRun n)
  | .get label seriesIndex now => some (r.next (get cfg label seriesIndex now r.state).2)
  | .collect choices =>
    if cfg.hasProvider ∨ (evictStale cfg choices.now r.state).children.length ≤ cfg.maxEntries ∨
        Selected cfg (evictStale cfg choices.now r.state) choices.oldest then
      some (r.next (collect cfg choices r.state).2)
    else none

/-- The constructor, with a counter that may have counted before. -/
def createLabeled (dropped : Option ℕ) : LabelRun n where
  state :=
    { families := fun _ => []
      children := []
      lastSeen := []
      dropped := dropped
      nextId := 0 }
  removed := 0

/-! ## What holds of a state -/

/-- A `Collect` without a provider from `s` to `s'`. -/
structure Evicted (choices : CollectChoices n) (s s' : LabeledState n) : Prop where
  returns : (collect cfg choices s).1 = true
  length_le : s'.children.length ≤ cfg.maxEntries
  newest : ∀ gone goneAt kept keptAt, gone ∈ (evictStale cfg choices.now s).labels →
    gone ∉ s'.labels → (gone, goneAt) ∈ s.lastSeen → (kept, keptAt) ∈ s'.lastSeen →
      goneAt ≤ keptAt
  idle : 0 < cfg.ttlSeconds → ∀ e ∈ s'.lastSeen,
    (choices.now : ℤ) - (e.2 : ℤ) ≤ cfg.ttlSeconds.toNat * 10 ^ 9

/-- The three structures have the same labels, each family has the children of the vectors and no
others, the labels that have gone are counted, `get` returns a child that the family has, and the
two kinds of `Collect` leave what they should. -/
structure LabelsSafe (dropped : Option ℕ) (r : LabelRun n) : Prop where
  children_nodup : (r.state.children.map Prod.fst).Nodup
  seen_nodup : (r.state.lastSeen.map Prod.fst).Nodup
  same_labels : ∀ label,
    label ∈ r.state.children.map Prod.fst ↔ label ∈ r.state.lastSeen.map Prod.fst
  natives : ∀ i, (r.state.families i).pointers.Perm (r.state.children.map fun c => (c.1, c.2 i))
  counted : r.state.dropped = dropped.map (· + r.removed)
  gets : ∀ label i now child, (get cfg label i now r.state).1 = some child →
    (label, child) ∈ ((get cfg label i now r.state).2.families i).pointers
  evicts : cfg.hasProvider = false → ∀ choices r',
    labelStep cfg r (.collect choices) = some r' → Evicted cfg choices r.state r'.state
  provides : cfg.hasProvider = true → ∀ choices r',
    labelStep cfg r (.collect choices) = some r' → (collect cfg choices r.state).1 = true →
      r'.state.labels = (choices.provided.map Provided.label).toFinset

/-! ## The labels -/

/-- What the steps keep. -/
structure LabelsInv (s : LabeledState n) : Prop where
  children_nodup : (s.children.map Prod.fst).Nodup
  seen_nodup : (s.lastSeen.map Prod.fst).Nodup
  same_labels : ∀ label, label ∈ s.children.map Prod.fst ↔ label ∈ s.lastSeen.map Prod.fst
  natives : ∀ i, (s.families i).pointers = s.children.map fun c => (c.1, c.2 i)
  ids_nodup : ∀ i, (s.children.map fun c => c.2 i).Nodup
  ids_lt : ∀ c ∈ s.children, ∀ i, c.2 i < s.nextId

variable {cfg} {s s' : LabeledState n} {label : Bytes}

theorem keys_pointers (family : NativeFamily) :
    family.pointers.map Prod.fst = family.map Prod.fst := by
  rw [NativeFamily.pointers, List.map_map]
  rfl

theorem pointers_add (family : NativeFamily) (h : label ∉ family.map Prod.fst) (id : ℕ) :
    (family.add label id).1.pointers = family.pointers ++ [(label, id)] ∧
      (family.add label id).2 = id := by
  unfold NativeFamily.add
  rw [lookup_eq_none_iff.mpr h]
  exact ⟨List.map_append, rfl⟩

theorem pointers_set (family : NativeFamily) (metric : ℕ) (value : Float) :
    (family.set metric value).pointers = family.pointers := by
  unfold NativeFamily.set NativeFamily.pointers
  rw [List.map_map]
  refine List.map_congr_left fun e _ => ?_
  show ((if e.2.id = metric then (e.1, { e.2 with value }) else e).1,
    (if e.2.id = metric then (e.1, { e.2 with value }) else e).2.id) = _
  split <;> rfl

/-- Where keys and values are both unique, an entry is found by either. -/
theorem eraseP_eq_eraseKey {β : Type*} (val : β → ℕ) {entries : List (Bytes × β)} {value : β}
    (hkeys : (entries.map Prod.fst).Nodup) (hvals : (entries.map fun e => val e.2).Nodup)
    (hmem : (label, value) ∈ entries) :
    entries.eraseP (fun e => decide (val e.2 = val value)) = eraseKey entries label := by
  induction entries with
  | nil => cases hmem
  | cons e entries ih =>
    rw [List.map_cons, List.nodup_cons] at hkeys hvals
    rw [eraseKey_cons]
    rcases List.mem_cons.mp hmem with rfl | hmem
    · rw [List.eraseP_cons_of_pos (by simp), if_pos rfl, eraseKey_eq_self hkeys.1]
    · have hkey : e.1 ≠ label := fun heq => hkeys.1 (heq ▸ List.mem_map_of_mem hmem)
      have hval : val e.2 ≠ val value := fun heq =>
        hvals.1 (heq ▸ List.mem_map_of_mem (f := fun e => val e.2) hmem)
      rw [List.eraseP_cons_of_neg (by simpa using hval), if_neg hkey, ih hkeys.2 hvals.2 hmem]

theorem pointers_remove (family : NativeFamily) (metric : ℕ) :
    (family.remove metric).pointers = family.pointers.eraseP fun e => decide (e.2 = metric) := by
  unfold NativeFamily.remove NativeFamily.pointers
  rw [List.eraseP_map]
  rfl

/-- The addresses of new children. -/
def LabeledState.fresh (s : LabeledState n) : Fin n → ℕ := fun i => s.nextId + i

namespace LabelsInv

theorem keys_family (h : LabelsInv s) (i : Fin n) :
    (s.families i).map Prod.fst = s.children.map Prod.fst := by
  rw [← keys_pointers, h.natives i, List.map_map]
  rfl

theorem mem_labels_iff : label ∈ s.labels ↔ label ∈ s.children.map Prod.fst :=
  List.mem_toFinset

/-- A label that is seen has a child. -/
theorem seen (h : LabelsInv s) (hlabel : label ∈ s.children.map Prod.fst) (now : SteadyTime) :
    LabelsInv (seen label now s) where
  children_nodup := h.children_nodup
  seen_nodup := nodup_upsert h.seen_nodup label now fun _ => now
  same_labels := by
    intro k
    show _ ↔ k ∈ (upsert s.lastSeen label now fun _ => now).map Prod.fst
    rw [mem_keys_upsert, ← h.same_labels k]
    constructor
    · exact .inr
    · rintro (rfl | hk)
      · exact hlabel
      · exact hk
  natives := h.natives
  ids_nodup := h.ids_nodup
  ids_lt := h.ids_lt

/-- The state with a label that was not there, and is seen now. -/
theorem added (h : LabelsInv s) (hlabel : label ∉ s.children.map Prod.fst) (now : SteadyTime) :
    LabelsInv (Metrics.seen label now { s with
      families := fun i => ((s.families i).add label (s.nextId + i)).1
      children := s.children ++ [(label, fun i => ((s.families i).add label (s.nextId + i)).2)]
      nextId := s.nextId + n }) := by
  have hadd := fun i : Fin n =>
    pointers_add (s.families i) (by rw [h.keys_family i]; exact hlabel) (s.nextId + i)
  have hpointers : (fun i : Fin n => ((s.families i).add label (s.nextId + i)).2) = s.fresh :=
    funext fun i => (hadd i).2
  rw [hpointers]
  constructor
  case children_nodup =>
    exact nodup_keys_append h.children_nodup hlabel _
  case seen_nodup => exact nodup_upsert h.seen_nodup label now fun _ => now
  case same_labels =>
    intro k
    show k ∈ (s.children ++ [(label, s.fresh)]).map Prod.fst ↔
      k ∈ (upsert s.lastSeen label now fun _ => now).map Prod.fst
    rw [List.map_append, List.mem_append, mem_keys_upsert, h.same_labels k, or_comm]
    exact or_congr_left List.mem_singleton
  case natives =>
    intro i
    show ((s.families i).add label (s.nextId + i)).1.pointers =
      (s.children ++ [(label, s.fresh)]).map fun c => (c.1, c.2 i)
    rw [(hadd i).1, List.map_append, h.natives i]
    rfl
  case ids_nodup =>
    intro i
    show ((s.children ++ [(label, s.fresh)]).map fun c => c.2 i).Nodup
    rw [List.map_append]
    refine List.nodup_append.mpr ⟨h.ids_nodup i, List.nodup_singleton (s.nextId + i), ?_⟩
    intro a ha b hb hab
    obtain ⟨c, hc, rfl⟩ := List.mem_map.mp ha
    have hlt := h.ids_lt c hc i
    have hb' : b = s.nextId + i := List.mem_singleton.mp hb
    omega
  case ids_lt =>
    intro c hc i
    show c.2 i < s.nextId + n
    rcases List.mem_append.mp hc with hc | hc
    · have hlt := h.ids_lt c hc i
      omega
    · rw [List.mem_singleton.mp hc]
      exact Nat.add_lt_add_left i.isLt s.nextId

/-- A label is there, or it is added. -/
theorem ensureChild (h : LabelsInv s) (hs' : ensureChild cfg label s = some s')
    (now : SteadyTime) : LabelsInv (Metrics.seen label now s') := by
  unfold Metrics.ensureChild at hs'
  split at hs'
  · next hsome =>
    obtain rfl := Option.some.inj hs'
    exact h.seen (isSome_lookup_iff.mp hsome) now
  · next hnone =>
    split at hs'
    · cases hs'
    · obtain rfl := Option.some.inj hs'
      exact h.added (mt isSome_lookup_iff.mpr hnone) now

/-- A label is dropped. -/
theorem dropLabel (h : LabelsInv s) (label : Bytes) : LabelsInv (dropLabel s label) := by
  have hseen : ∀ k, (k ∈ s.children.map Prod.fst ∧ k ≠ label) ↔
      k ∈ (eraseKey s.lastSeen label).map Prod.fst := by
    intro k
    rw [mem_keys_eraseKey, h.same_labels k]
  unfold Metrics.dropLabel removeLabel
  cases hlookup : lookup s.children label with
  | none =>
    have hnot := lookup_eq_none_iff.mp hlookup
    refine ⟨h.children_nodup, nodup_eraseKey h.seen_nodup label, fun k => ?_, h.natives,
      h.ids_nodup, h.ids_lt⟩
    rw [← hseen k]
    exact ⟨fun hk => ⟨hk, fun heq => hnot (heq ▸ hk)⟩, And.left⟩
  | some series =>
    have hmem := mem_of_lookup hlookup
    have hsub : (eraseKey s.children label).Sublist s.children := List.filter_sublist
    refine ⟨nodup_eraseKey h.children_nodup label, nodup_eraseKey h.seen_nodup label,
      fun k => ?_, fun i => ?_, fun i => (h.ids_nodup i).sublist (hsub.map _),
      fun c hc => h.ids_lt c (hsub.subset hc)⟩
    · rw [← hseen k]
      exact mem_keys_eraseKey
    · show ((s.families i).remove (series i)).pointers = _
      rw [pointers_remove, h.natives i, List.eraseP_map]
      refine congrArg _ ?_
      exact eraseP_eq_eraseKey (fun series => series i) h.children_nodup (h.ids_nodup i) hmem

end LabelsInv

/-! ## Labels that go -/

theorem dropLabel_spec (s : LabeledState n) (label : Bytes) :
    (dropLabel s label).children = eraseKey s.children label ∧
      (dropLabel s label).lastSeen = eraseKey s.lastSeen label ∧
      (dropLabel s label).dropped = s.dropped.map (· + 1) := by
  unfold dropLabel removeLabel
  cases hlookup : lookup s.children label with
  | none => exact ⟨(eraseKey_eq_self (lookup_eq_none_iff.mp hlookup)).symm, rfl, rfl⟩
  | some series => exact ⟨rfl, rfl, rfl⟩

/-- The maps without the keys of a list. -/
def without {β : Type*} (entries : List (Bytes × β)) (victims : List Bytes) : List (Bytes × β) :=
  entries.filter fun e => !decide (e.1 ∈ victims)

theorem mem_without {β : Type*} {entries : List (Bytes × β)} {victims : List Bytes}
    {e : Bytes × β} : e ∈ without entries victims ↔ e ∈ entries ∧ e.1 ∉ victims := by
  rw [without, List.mem_filter, Bool.not_eq_true', decide_eq_false_iff_not]

theorem mem_keys_without {β : Type*} {entries : List (Bytes × β)} {victims : List Bytes} :
    label ∈ (without entries victims).map Prod.fst ↔
      label ∈ entries.map Prod.fst ∧ label ∉ victims := by
  constructor
  · intro hmem
    obtain ⟨e, he, rfl⟩ := List.mem_map.mp hmem
    exact ⟨List.mem_map_of_mem (mem_without.mp he).1, (mem_without.mp he).2⟩
  · rintro ⟨hmem, hnot⟩
    obtain ⟨e, he, rfl⟩ := List.mem_map.mp hmem
    exact List.mem_map_of_mem (mem_without.mpr ⟨he, hnot⟩)

theorem without_cons {β : Type*} (entries : List (Bytes × β)) (label : Bytes)
    (victims : List Bytes) :
    without entries (label :: victims) = without (eraseKey entries label) victims := by
  unfold without eraseKey
  rw [List.filter_filter]
  refine List.filter_congr fun e _ => ?_
  by_cases he : e.1 = label
  · simp [he]
  · simp [he]

theorem foldl_dropLabel (victims : List Bytes) (s : LabeledState n) :
    (victims.foldl dropLabel s).children = without s.children victims ∧
      (victims.foldl dropLabel s).lastSeen = without s.lastSeen victims ∧
      (victims.foldl dropLabel s).dropped = s.dropped.map (· + victims.length) := by
  induction victims generalizing s with
  | nil =>
    refine ⟨(List.filter_eq_self.mpr fun e _ => ?_).symm,
      (List.filter_eq_self.mpr fun e _ => ?_).symm, ?_⟩
    · simp
    · simp
    · simp
  | cons label victims ih =>
    obtain ⟨hchildren, hseen, hdropped⟩ := dropLabel_spec s label
    obtain ⟨ihchildren, ihseen, ihdropped⟩ := ih (dropLabel s label)
    rw [List.foldl_cons]
    refine ⟨?_, ?_, ?_⟩
    · rw [ihchildren, hchildren, without_cons]
    · rw [ihseen, hseen, without_cons]
    · rw [ihdropped, hdropped, Option.map_map]
      congr 1
      funext k
      show k + 1 + victims.length = k + (victims.length + 1)
      omega

/-- Labels have gone from `s` to `s'`, and were counted. -/
structure Dropped (s s' : LabeledState n) : Prop where
  inv : LabelsInv s'
  subset : s'.labels ⊆ s.labels
  counted : s'.dropped = s.dropped.map (· + (s.labels \ s'.labels).card)
  lastSeen : ∀ e, e ∈ s'.lastSeen ↔ e ∈ s.lastSeen ∧ e.1 ∈ s'.labels

namespace LabelsInv

theorem mem_labels_of_lastSeen (h : LabelsInv s) {e : Bytes × SteadyTime} (he : e ∈ s.lastSeen) :
    e.1 ∈ s.labels :=
  mem_labels_iff.mpr ((h.same_labels e.1).mpr (List.mem_map_of_mem he))

theorem card_labels (h : LabelsInv s) : s.labels.card = s.children.length := by
  rw [LabeledState.labels, List.toFinset_card_of_nodup h.children_nodup, List.length_map]

theorem foldl_dropLabel (h : LabelsInv s) (victims : List Bytes) :
    LabelsInv (victims.foldl Metrics.dropLabel s) := by
  induction victims generalizing s with
  | nil => exact h
  | cons label victims ih => exact ih (h.dropLabel label)

theorem labels_foldl_dropLabel (s : LabeledState n) (victims : List Bytes) :
    (victims.foldl Metrics.dropLabel s).labels = s.labels \ victims.toFinset := by
  ext label
  rw [Finset.mem_sdiff, List.mem_toFinset, mem_labels_iff, mem_labels_iff,
    (Metrics.foldl_dropLabel victims s).1]
  exact mem_keys_without

/-- Dropping some of the labels. -/
theorem dropped (h : LabelsInv s) {victims : List Bytes} (hnodup : victims.Nodup)
    (hsubset : victims.toFinset ⊆ s.labels) :
    Dropped s (victims.foldl Metrics.dropLabel s) where
  inv := h.foldl_dropLabel victims
  subset := by
    rw [labels_foldl_dropLabel]
    exact Finset.sdiff_subset
  counted := by
    rw [labels_foldl_dropLabel, Finset.sdiff_sdiff_eq_self hsubset,
      List.toFinset_card_of_nodup hnodup]
    exact (Metrics.foldl_dropLabel victims s).2.2
  lastSeen := by
    intro e
    rw [(Metrics.foldl_dropLabel victims s).2.1, mem_without, labels_foldl_dropLabel,
      Finset.mem_sdiff, List.mem_toFinset]
    constructor
    · rintro ⟨he, hnot⟩
      exact ⟨he, h.mem_labels_of_lastSeen he, hnot⟩
    · rintro ⟨he, -, hnot⟩
      exact ⟨he, hnot⟩

end LabelsInv

namespace Dropped

theorem refl (h : LabelsInv s) : Dropped s s where
  inv := h
  subset := Finset.Subset.refl _
  counted := by
    rw [Finset.sdiff_self]
    cases s.dropped <;> rfl
  lastSeen := fun _ => ⟨fun he => ⟨he, h.mem_labels_of_lastSeen he⟩, And.left⟩

theorem trans {s₁ s₂ : LabeledState n} (h₁ : Dropped s s₁) (h₂ : Dropped s₁ s₂) :
    Dropped s s₂ where
  inv := h₂.inv
  subset := h₂.subset.trans h₁.subset
  counted := by
    have hcard : (s.labels \ s₂.labels).card =
        (s.labels \ s₁.labels).card + (s₁.labels \ s₂.labels).card := by
      rw [Finset.card_sdiff_of_subset (h₂.subset.trans h₁.subset),
        Finset.card_sdiff_of_subset h₁.subset, Finset.card_sdiff_of_subset h₂.subset]
      have hle₁ := Finset.card_le_card h₁.subset
      have hle₂ := Finset.card_le_card h₂.subset
      omega
    rw [h₂.counted, h₁.counted, Option.map_map, hcard]
    congr 1
    funext k
    exact Nat.add_assoc k _ _
  lastSeen := by
    intro e
    rw [h₂.lastSeen, h₁.lastSeen]
    constructor
    · rintro ⟨⟨he, -⟩, hkept⟩
      exact ⟨he, hkept⟩
    · rintro ⟨he, hkept⟩
      exact ⟨⟨he, h₂.subset hkept⟩, hkept⟩

end Dropped

/-! ## The two kinds of `Collect` -/

theorem bmod_of_fits {x : ℤ} (hnonneg : 0 ≤ x) (hlt : x < 2 ^ 63) : x.bmod (2 ^ 64) = x :=
  Int.bmod_eq_of_le (by simp; omega) (by simp; omega)

/-- A lifetime that fits is converted as it is. -/
theorem ttlNanoseconds_eq {ttl : UInt64} (h : (ttl.toNat : ℤ) * 10 ^ 9 < 2 ^ 63) :
    ttlNanoseconds ttl = ttl.toNat * 10 ^ 9 := by
  have hnonneg : (0 : ℤ) ≤ ttl.toNat := Int.natCast_nonneg _
  have hseconds : (ttl.toNat : ℤ).bmod (2 ^ 64) = ttl.toNat := bmod_of_fits hnonneg (by omega)
  unfold ttlNanoseconds
  rw [hseconds]
  exact bmod_of_fits (by omega) h

/-- Whatever the conversions do: what is not stale has not been idle for longer than the
lifetime. -/
theorem idle_of_not_stale {now at' : SteadyTime} (h : stale cfg now at' = false) :
    (now : ℤ) - (at' : ℤ) ≤ cfg.ttlSeconds.toNat * 10 ^ 9 := by
  have hle : (now : ℤ) - (at' : ℤ) ≤ ttlNanoseconds cfg.ttlSeconds :=
    Int.not_lt.mp (of_decide_eq_false h)
  have hnow : (now : ℤ) < 2 ^ 63 := by exact_mod_cast now.isLt
  by_cases hfits : (cfg.ttlSeconds.toNat : ℤ) * 10 ^ 9 < 2 ^ 63
  · exact ttlNanoseconds_eq hfits ▸ hle
  · omega

theorem LabelsInv.evictStale (h : LabelsInv s) (cfg : LabeledConfig) (now : SteadyTime) :
    Dropped s (evictStale cfg now s) ∧
      (0 < cfg.ttlSeconds → ∀ e ∈ (Metrics.evictStale cfg now s).lastSeen,
        stale cfg now e.2 = false) := by
  unfold Metrics.evictStale
  split
  · have hsub : (s.lastSeen.filter fun e => stale cfg now e.2).Sublist s.lastSeen :=
      List.filter_sublist
    refine ⟨h.dropped (h.seen_nodup.sublist (hsub.map _)) fun label hlabel => ?_,
      fun _ e he => ?_⟩
    · obtain ⟨e, he, rfl⟩ := List.mem_map.mp (List.mem_toFinset.mp hlabel)
      exact h.mem_labels_of_lastSeen (hsub.subset he)
    · rw [(Metrics.foldl_dropLabel _ s).2.1, mem_without] at he
      refine Bool.eq_false_iff.mpr fun hstale => he.2 ?_
      exact List.mem_map_of_mem (List.mem_filter.mpr ⟨he.1, hstale⟩)
  · next hoff => exact ⟨Dropped.refl h, fun hpos => absurd hpos hoff⟩

/-- The comparison by `at` finds every label. -/
theorem LabelsInv.all_seen (h : LabelsInv s) :
    (s.children.all fun c => (lookup s.lastSeen c.1).isSome) = true := by
  rw [List.all_eq_true]
  intro c hc
  exact isSome_lookup_iff.mpr ((h.same_labels c.1).mp (List.mem_map_of_mem hc))

theorem LabelsInv.trim (h : LabelsInv s) {oldest : List Bytes}
    (hselected : s.children.length ≤ cfg.maxEntries ∨ Selected cfg s oldest) :
    (trim cfg oldest s).1 = true ∧ Dropped s (trim cfg oldest s).2 ∧
      (Metrics.trim cfg oldest s).2.children.length ≤ cfg.maxEntries ∧
      ∀ gone goneAt kept keptAt, gone ∉ (Metrics.trim cfg oldest s).2.labels →
        (gone, goneAt) ∈ s.lastSeen → (kept, keptAt) ∈ (Metrics.trim cfg oldest s).2.lastSeen →
          goneAt ≤ keptAt := by
  unfold Metrics.trim
  split
  · next hroom =>
    refine ⟨rfl, Dropped.refl h, hroom, fun gone goneAt kept keptAt hgone hmem => ?_⟩
    exact absurd (h.mem_labels_of_lastSeen hmem) hgone
  · next hfull =>
    rw [if_pos h.all_seen]
    obtain ⟨hperm, hselect⟩ := hselected.resolve_left hfull
    have holdest : (oldest.take (toEvict cfg s)).Nodup :=
      (hperm.nodup_iff.mpr h.children_nodup).sublist (List.take_sublist _ _)
    have hsubset : (oldest.take (toEvict cfg s)).toFinset ⊆ s.labels := by
      intro label hlabel
      exact mem_labels_iff.mpr
        (hperm.mem_iff.mp (List.mem_of_mem_take (List.mem_toFinset.mp hlabel)))
    have hdropped := h.dropped holdest hsubset
    refine ⟨rfl, hdropped, ?_, fun gone goneAt kept keptAt hgone hmem hkept => ?_⟩
    · have hcard := Finset.card_sdiff_of_subset hsubset
      rw [← LabelsInv.labels_foldl_dropLabel, hdropped.inv.card_labels, h.card_labels,
        List.toFinset_card_of_nodup holdest, List.length_take, hperm.length_eq,
        List.length_map] at hcard
      rw [hcard]
      unfold toEvict
      omega
    · obtain ⟨hkeptBefore, hkeptLabel⟩ := (hdropped.lastSeen _).mp hkept
      rw [LabelsInv.labels_foldl_dropLabel, Finset.mem_sdiff, List.mem_toFinset] at hgone hkeptLabel
      have htaken : gone ∈ oldest.take (toEvict cfg s) := by
        by_contra hnot
        exact hgone ⟨h.mem_labels_of_lastSeen hmem, hnot⟩
      have hleft : kept ∈ oldest.drop (toEvict cfg s) :=
        (Selection.IsNthElement.mem_drop_iff ⟨hperm, hselect⟩ h.children_nodup).mpr
          ⟨mem_labels_iff.mp hkeptLabel.1, hkeptLabel.2⟩
      have hnot := hselect gone htaken kept hleft
      rw [seenBefore, lookup_of_mem h.seen_nodup hmem, lookup_of_mem h.seen_nodup hkeptBefore]
        at hnot
      exact not_lt.mp hnot

theorem setValues_spec (label : Bytes) (values : Fin n → Float) (s : LabeledState n) :
    (setValues label values s).children = s.children ∧
      (setValues label values s).lastSeen = s.lastSeen ∧
      (setValues label values s).dropped = s.dropped ∧
      (setValues label values s).nextId = s.nextId ∧
      ∀ i, ((setValues label values s).families i).pointers = (s.families i).pointers := by
  unfold setValues
  split
  · exact ⟨rfl, rfl, rfl, rfl, fun _ => rfl⟩
  · exact ⟨rfl, rfl, rfl, rfl, fun i => pointers_set _ _ _⟩

theorem LabelsInv.setValues (h : LabelsInv s) (label : Bytes) (values : Fin n → Float) :
    LabelsInv (setValues label values s) := by
  obtain ⟨hchildren, hseen, -, hnext, hpointers⟩ := setValues_spec label values s
  refine ⟨?_, ?_, ?_, fun i => ?_, fun i => ?_, ?_⟩
  · rw [hchildren]
    exact h.children_nodup
  · rw [hseen]
    exact h.seen_nodup
  · rw [hchildren, hseen]
    exact h.same_labels
  · rw [hpointers, hchildren]
    exact h.natives i
  · rw [hchildren]
    exact h.ids_nodup i
  · rw [hchildren, hnext]
    exact h.ids_lt

/-- A label is there, or it is added. -/
theorem labels_ensureChild (hs' : ensureChild cfg label s = some s') :
    s'.labels = insert label s.labels ∧ s'.dropped = s.dropped := by
  unfold ensureChild at hs'
  split at hs'
  · next hsome =>
    obtain rfl := Option.some.inj hs'
    refine ⟨(Finset.insert_eq_self.mpr ?_).symm, rfl⟩
    exact List.mem_toFinset.mpr (isSome_lookup_iff.mp hsome)
  · split at hs'
    · cases hs'
    · obtain rfl := Option.some.inj hs'
      refine ⟨?_, rfl⟩
      ext k
      simp [LabeledState.labels]

/-- The labels of a provider are taken in. -/
theorem LabelsInv.takeIn (h : LabelsInv s) (cfg : LabeledConfig) (provided : List (Provided n)) :
    LabelsInv (takeIn cfg provided s).2 ∧ s.labels ⊆ (takeIn cfg provided s).2.labels ∧
      (Metrics.takeIn cfg provided s).2.dropped = s.dropped ∧
      ((Metrics.takeIn cfg provided s).1 = true → (Metrics.takeIn cfg provided s).2.labels =
        s.labels ∪ (provided.map Provided.label).toFinset) := by
  induction provided generalizing s with
  | nil => exact ⟨h, Finset.Subset.refl _, rfl, fun _ => by simp [Metrics.takeIn]⟩
  | cons p provided ih =>
    unfold Metrics.takeIn
    cases hchild : Metrics.ensureChild cfg p.label s with
    | none => exact ⟨h, Finset.Subset.refl _, rfl, fun hok => by cases hok⟩
    | some s₁ =>
      obtain ⟨hlabels, hdropped⟩ := labels_ensureChild hchild
      obtain ⟨hchildren, -, hsame, -⟩ :=
        setValues_spec p.label p.values (Metrics.seen p.label p.now s₁)
      have hstate : (Metrics.setValues p.label p.values
          (Metrics.seen p.label p.now s₁)).labels = insert p.label s.labels := by
        rw [← hlabels, LabeledState.labels, hchildren]
        rfl
      obtain ⟨ihinv, ihsub, ihdropped, ihlabels⟩ :=
        ih ((h.ensureChild hchild p.now).setValues p.label p.values)
      rw [hstate] at ihsub ihlabels
      refine ⟨ihinv, (Finset.subset_insert _ _).trans ihsub, ?_, fun hok => ?_⟩
      · exact ihdropped.trans (hsame.trans hdropped)
      · rw [ihlabels hok, List.map_cons, List.toFinset_cons, Finset.insert_union,
          Finset.union_insert]

/-- The labels that the provider does not report are dropped. -/
theorem LabelsInv.removeAbsent (h : LabelsInv s) (present : List Bytes) :
    Dropped s (removeAbsent present s) ∧
      (Metrics.removeAbsent present s).labels = s.labels ∩ present.toFinset := by
  have hvictims : ∀ label, label ∈ (without s.lastSeen present).map Prod.fst ↔
      label ∈ s.labels ∧ label ∉ present := by
    intro label
    rw [mem_labels_iff, h.same_labels]
    exact mem_keys_without
  have hnodup : ((without s.lastSeen present).map Prod.fst).Nodup :=
    h.seen_nodup.sublist (List.filter_sublist.map _)
  refine ⟨h.dropped hnodup fun label hlabel => ?_, ?_⟩
  · exact ((hvictims label).mp (List.mem_toFinset.mp hlabel)).1
  · show (((without s.lastSeen present).map Prod.fst).foldl Metrics.dropLabel s).labels = _
    rw [LabelsInv.labels_foldl_dropLabel]
    ext label
    rw [Finset.mem_sdiff, List.mem_toFinset, hvictims, Finset.mem_inter, List.mem_toFinset]
    tauto

theorem LabelsInv.get (h : LabelsInv s) (cfg : LabeledConfig) (label : Bytes) (i : Fin n)
    (now : SteadyTime) :
    LabelsInv (get cfg label i now s).2 ∧ s.labels ⊆ (get cfg label i now s).2.labels ∧
      (Metrics.get cfg label i now s).2.dropped = s.dropped := by
  unfold Metrics.get
  cases hchild : Metrics.ensureChild cfg label s with
  | none => exact ⟨h, Finset.Subset.refl _, rfl⟩
  | some s₁ =>
    obtain ⟨hlabels, hdropped⟩ := labels_ensureChild hchild
    have hsame : (Metrics.seen label now s₁).labels = s₁.labels := rfl
    refine ⟨h.ensureChild hchild now, ?_, hdropped⟩
    rw [hsame, hlabels]
    exact Finset.subset_insert _ _

/-- `get` returns the child in the family. -/
theorem LabelsInv.get_child (h : LabelsInv s) {i : Fin n} {now : SteadyTime} {child : ℕ}
    (hchild : (Metrics.get cfg label i now s).1 = some child) :
    (label, child) ∈ ((Metrics.get cfg label i now s).2.families i).pointers := by
  rw [(h.get cfg label i now).1.natives i]
  unfold Metrics.get at hchild ⊢
  cases hensure : Metrics.ensureChild cfg label s with
  | none =>
    rw [hensure] at hchild
    cases hchild
  | some s₁ =>
    rw [hensure] at hchild
    obtain ⟨series, hlookup, rfl⟩ := Option.map_eq_some_iff.mp hchild
    exact List.mem_map_of_mem (f := fun c => (c.1, c.2 i)) (mem_of_lookup hlookup)

/-- `Collect` without a provider. -/
theorem LabelsInv.evicted (h : LabelsInv s) {choices : CollectChoices n}
    (hmode : cfg.hasProvider = false)
    (hselected : (Metrics.evictStale cfg choices.now s).children.length ≤ cfg.maxEntries ∨
      Selected cfg (Metrics.evictStale cfg choices.now s) choices.oldest) :
    Dropped s (collect cfg choices s).2 ∧ Evicted cfg choices s (collect cfg choices s).2 := by
  have hcollect : collect cfg choices s =
      Metrics.trim cfg choices.oldest (Metrics.evictStale cfg choices.now s) := by
    unfold collect
    rw [hmode]
    rfl
  obtain ⟨hstale, hidle⟩ := h.evictStale cfg choices.now
  obtain ⟨hreturns, htrim, hlength, hnewest⟩ := hstale.inv.trim hselected
  rw [← hcollect] at hreturns htrim hlength hnewest
  refine ⟨hstale.trans htrim, hreturns, hlength, ?_, fun httl e he => ?_⟩
  · intro gone goneAt kept keptAt hthere hgone hmem hkept
    exact hnewest gone goneAt kept keptAt hgone ((hstale.lastSeen _).mpr ⟨hmem, hthere⟩) hkept
  · exact idle_of_not_stale (hidle httl e ((htrim.lastSeen e).mp he).1)

/-- `Collect` with a provider. -/
theorem LabelsInv.provided (h : LabelsInv s) (choices : CollectChoices n)
    (hmode : cfg.hasProvider = true) :
    LabelsInv (collect cfg choices s).2 ∧
      (collect cfg choices s).2.dropped =
        s.dropped.map (· + (s.labels \ (collect cfg choices s).2.labels).card) ∧
      ((collect cfg choices s).1 = true → (collect cfg choices s).2.labels =
        (choices.provided.map Provided.label).toFinset) := by
  obtain ⟨hinv, hsub, hdropped, hlabels⟩ := h.takeIn cfg choices.provided
  have hcollect : collect cfg choices s = replaceFromProvider cfg choices.provided s := by
    unfold collect
    rw [hmode]
    rfl
  rw [hcollect]
  unfold replaceFromProvider
  cases htake : Metrics.takeIn cfg choices.provided s with
  | mk ok s₁ =>
    rw [htake] at hinv hsub hdropped hlabels
    cases ok with
    | false =>
      refine ⟨hinv, ?_, fun hok => by cases hok⟩
      rw [Finset.sdiff_eq_empty_iff_subset.mpr hsub, Finset.card_empty]
      simpa using hdropped
    | true =>
      obtain ⟨habsent, hleft⟩ := hinv.removeAbsent (choices.provided.map Provided.label)
      have hunion := hlabels rfl
      have hexact : (Metrics.removeAbsent (choices.provided.map Provided.label) s₁).labels =
          (choices.provided.map Provided.label).toFinset := by
        rw [hleft, hunion]
        exact Finset.inter_eq_right.mpr Finset.subset_union_right
      refine ⟨habsent.inv, ?_, fun _ => hexact⟩
      have hgone : s₁.labels \ (choices.provided.map Provided.label).toFinset =
          s.labels \ (choices.provided.map Provided.label).toFinset := by
        rw [hunion, Finset.union_sdiff_right]
      rw [hexact, ← hgone, ← hexact, ← hdropped]
      exact habsent.counted

/-! ## Runs of calls -/

variable {dropped : Option ℕ} {r r' : LabelRun n}

/-- What holds along a run. -/
structure RunInv (dropped : Option ℕ) (r : LabelRun n) : Prop where
  inv : LabelsInv r.state
  counted : r.state.dropped = dropped.map (· + r.removed)

/-- The labels that go are added to those that have gone. -/
theorem RunInv.next (h : RunInv dropped r) (hinv : LabelsInv s)
    (hcounted : s.dropped = r.state.dropped.map (· + (r.state.labels \ s.labels).card)) :
    RunInv dropped (r.next s) where
  inv := hinv
  counted := by
    show s.dropped = dropped.map (· + (r.removed + (r.state.labels \ s.labels).card))
    rw [hcounted, h.counted, Option.map_map]
    congr 1
    funext k
    exact Nat.add_assoc k _ _

theorem RunInv.step {e : LabelEvent n} (h : RunInv dropped r)
    (hr' : labelStep cfg r e = some r') : RunInv dropped r' := by
  cases e with
  | get label i now =>
    obtain rfl := Option.some.inj hr'
    obtain ⟨hinv, hsub, hdropped⟩ := h.inv.get cfg label i now
    refine h.next hinv ?_
    rw [Finset.sdiff_eq_empty_iff_subset.mpr hsub, Finset.card_empty]
    simpa using hdropped
  | collect choices =>
    simp only [labelStep] at hr'
    split at hr'
    · next hmay =>
      obtain rfl := Option.some.inj hr'
      cases hmode : cfg.hasProvider with
      | true =>
        obtain ⟨hinv, hcounted, -⟩ := h.inv.provided choices hmode
        exact h.next hinv hcounted
      | false =>
        rw [hmode] at hmay
        obtain ⟨hdropped, -⟩ := h.inv.evicted hmode (hmay.resolve_left Bool.false_ne_true)
        exact h.next hdropped.inv hdropped.counted
    · cases hr'

theorem RunInv.safe (h : RunInv dropped r) : LabelsSafe cfg dropped r where
  children_nodup := h.inv.children_nodup
  seen_nodup := h.inv.seen_nodup
  same_labels := h.inv.same_labels
  natives := fun i => List.Perm.of_eq (h.inv.natives i)
  counted := h.counted
  gets := fun _ _ _ _ hchild => h.inv.get_child hchild
  evicts := by
    intro hmode choices r' hr'
    simp only [labelStep] at hr'
    split at hr'
    · next hmay =>
      obtain rfl := Option.some.inj hr'
      rw [hmode] at hmay
      exact (h.inv.evicted hmode (hmay.resolve_left Bool.false_ne_true)).2
    · cases hr'
  provides := by
    intro hmode choices r' hr' hreturns
    simp only [labelStep] at hr'
    split at hr'
    · obtain rfl := Option.some.inj hr'
      exact (h.inv.provided choices hmode).2.2 hreturns
    · cases hr'

theorem runInv_createLabeled : RunInv dropped (createLabeled dropped : LabelRun n) where
  inv :=
    { children_nodup := List.nodup_nil
      seen_nodup := List.nodup_nil
      same_labels := fun _ => Iff.rfl
      natives := fun _ => rfl
      ids_nodup := fun _ => List.nodup_nil
      ids_lt := fun _ h => nomatch h }
  counted := by
    show dropped = dropped.map (· + 0)
    simp

/-- For every configuration, every sequence of calls, every clock and every outcome of the
selection. -/
theorem labels_safe (cfg : LabeledConfig) (dropped : Option ℕ) (es : List (LabelEvent n)) :
    Always (labelStep cfg) (LabelsSafe cfg dropped) (createLabeled dropped) es :=
  always_of_step (fun _ _ _ h hr' => RunInv.step h hr') (fun _ h => h.safe)
    runInv_createLabeled es

/-- There always is an outcome of the selection. -/
theorem exists_selected (cfg : LabeledConfig) (s : LabeledState n) :
    ∃ oldest, Selected cfg s oldest :=
  Selection.exists_isNthElement (fun label => (lookup s.lastSeen label).getD 0) _ _

/-! ## The cap -/

/-- The number of label values is within the cap. -/
def WithinCap (cfg : LabeledConfig) (r : LabelRun n) : Prop :=
  r.state.children.length ≤ cfg.maxEntries

/-- A `get` that would make a new child finds room for it. -/
def HasRoom (cfg : LabeledConfig) (r : LabelRun n) : LabelEvent n → Prop
  | .get label _ _ => label ∈ r.state.children.map Prod.fst ∨ cfg.childrenValid = false ∨
      r.state.children.length < cfg.maxEntries
  | .collect _ => True

instance (cfg : LabeledConfig) (r : LabelRun n) : DecidablePred (HasRoom cfg r)
  | .get _ _ _ => inferInstanceAs (Decidable (_ ∨ _ ∨ _))
  | .collect _ => .isTrue trivial

/-- `get` makes a child exactly for a label that is not there. -/
theorem length_get (cfg : LabeledConfig) (label : Bytes) (i : Fin n) (now : SteadyTime)
    (s : LabeledState n) :
    (get cfg label i now s).2.children.length =
      if label ∈ s.children.map Prod.fst ∨ cfg.childrenValid = false then s.children.length
      else s.children.length + 1 := by
  unfold get ensureChild
  by_cases hmem : label ∈ s.children.map Prod.fst
  · rw [if_pos (isSome_lookup_iff.mpr hmem), if_pos (.inl hmem)]
    rfl
  · rw [if_neg (mt isSome_lookup_iff.mp hmem)]
    cases hvalid : cfg.childrenValid with
    | false => rw [if_pos ⟨i.pos, rfl⟩, if_pos (.inr rfl)]
    | true =>
      rw [if_neg (by simp), if_neg (by simp [hmem])]
      exact List.length_append

theorem WithinCap.step {e : LabelEvent n} (hmode : cfg.hasProvider = false)
    (hinv : RunInv dropped r) (hcap : WithinCap cfg r) (hroom : HasRoom cfg r e)
    (hr' : labelStep cfg r e = some r') : WithinCap cfg r' := by
  cases e with
  | get label i now =>
    obtain rfl := Option.some.inj hr'
    show (get cfg label i now r.state).2.children.length ≤ cfg.maxEntries
    rw [length_get]
    split
    · exact hcap
    · next hnew =>
      rw [not_or] at hnew
      exact (hroom.resolve_left hnew.1).resolve_left hnew.2
  | collect choices => exact (hinv.safe.evicts hmode choices r' hr').length_le

/-- A `get` that ends within the cap has found room. -/
theorem HasRoom.of_step {e : LabelEvent n} (hr' : labelStep cfg r e = some r')
    (hcap : WithinCap cfg r') : HasRoom cfg r e := by
  cases e with
  | collect choices => trivial
  | get label i now =>
    obtain rfl := Option.some.inj hr'
    have hlength : (get cfg label i now r.state).2.children.length ≤ cfg.maxEntries := hcap
    rw [length_get] at hlength
    split at hlength
    · next hold => exact hold.imp_right .inl
    · exact .inr (.inr hlength)

/-- Without a provider the number of label values is within `max_entries` in every state of a run
exactly when no `get` of the run makes a new child in a family that has `max_entries` of them. -/
theorem capped_iff_room (cfg : LabeledConfig) (hmode : cfg.hasProvider = false)
    (dropped : Option ℕ) (es : List (LabelEvent n)) :
    Always (labelStep cfg) (WithinCap cfg) (createLabeled dropped) es ↔
      StepsMeet (labelStep cfg) (HasRoom cfg) (createLabeled dropped) es := by
  constructor
  · intro hall
    refine stepsMeet_of_always (P := fun _ => True) (fun _ _ _ _ _ _ => trivial)
      (fun r e r' _ hr' hcap => HasRoom.of_step hr' hcap) (fun r e hnone => ?_) trivial hall
    cases e with
    | get label i now => cases hnone
    | collect choices => trivial
  · intro hmeet
    refine always_of_stepsMeet (P := fun r => RunInv dropped r ∧ WithinCap cfg r)
      (fun r e r' h hroom hr' => ⟨h.1.step hr', WithinCap.step hmode h.1 h.2 hroom hr'⟩)
      (fun _ h => h.2) ⟨runInv_createLabeled, Nat.zero_le _⟩ hmeet

/-- A family for two clients. -/
def twoClients : LabeledConfig where
  hasProvider := false
  ttlSeconds := 300
  maxEntries := 2
  childrenValid := true

/-- A request of a client. -/
def clientRequest (client : String) : LabelEvent 1 :=
  .get (ascii client) ⟨0, Nat.one_pos⟩ ⟨0, Nat.two_pow_pos 63⟩

theorem capped_of_two_clients :
    Always (labelStep twoClients) (WithinCap twoClients) (createLabeled (some 0))
      [clientRequest "a", clientRequest "b", clientRequest "a"] :=
  (capped_iff_room twoClients rfl (some 0) _).mpr
    (stepsMeet_of_stepsCheck
      (fun r e (h : decide (HasRoom twoClients r e) = true) => of_decide_eq_true h)
      (by decide +kernel))

/-- Three clients, before the next `Collect`. -/
theorem get_exceeds_cap :
    ¬ Always (labelStep twoClients) (WithinCap twoClients) (createLabeled (some 0))
      [clientRequest "a", clientRequest "b", clientRequest "c"] := by
  intro hall
  have hrun : (run (labelStep twoClients) (createLabeled (some 0))
      [clientRequest "a", clientRequest "b", clientRequest "c"]).map
        (fun r => r.state.children.length) = some 3 := by
    decide +kernel
  obtain ⟨r, hr, hlength⟩ := Option.map_eq_some_iff.mp hrun
  have hcap : r.state.children.length ≤ 2 :=
    always_iff.mp hall _ [] r (List.append_nil _).symm hr
  omega

end Metrics
end HttpDataDiod
