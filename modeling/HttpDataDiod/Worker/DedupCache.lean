import HttpDataDiod.Lib.ByteText

/-!
# The dedup cache

Model of `DedupCache` of `dedup_cache.hpp`: responses by request id, each with
the time it expires, and the ids in the order of their last store.  An entry is
a pair of the map; an iterator into the order list is the key it points at.

* `find`, `store`: the two operations, under the lock.
* `find_eq_some_iff`: when a find hits.
* `lookup_find`, `lookup_store`: what the two leave in the map.
* `lookup_of_lookup_store`: a full cache gets no other entries either.
-/

namespace HttpDataDiod
namespace Worker

open ByteText

/-- `DedupCache::Config`. -/
structure DedupConfig where
  enabled : Bool
  maxEntries : ℕ
  ttlMs : ℕ

/-- `DedupCache::Entry`. -/
structure DedupEntry where
  response : Bytes
  expiresAtMs : ℕ
  deriving DecidableEq

/-- The map and the order list. -/
structure DedupCache where
  entries : List (Bytes × DedupEntry)
  order : List Bytes

namespace DedupCache

/-- An empty cache. -/
def empty : DedupCache := { entries := [], order := [] }

/-- `m_entries.find`. -/
def lookup (entries : List (Bytes × DedupEntry)) (key : Bytes) : Option DedupEntry :=
  (entries.find? fun e => e.1 = key).map Prod.snd

/-- `m_entries.erase`. -/
def eraseKey (entries : List (Bytes × DedupEntry)) (key : Bytes) : List (Bytes × DedupEntry) :=
  entries.filter fun e => e.1 ≠ key

/-- `find`: an expired entry is erased on the way. -/
def find (cfg : DedupConfig) (now : ℕ) (requestId : Bytes) (c : DedupCache) :
    Option Bytes × DedupCache :=
  if cfg.enabled = false then (none, c)
  else
    match lookup c.entries requestId with
    | none => (none, c)
    | some e =>
      if e.expiresAtMs ≤ now then
        (none, { entries := eraseKey c.entries requestId, order := c.order.erase requestId })
      else (some e.response, c)

/-- `evict_expired_locked`, over the order list. -/
def evictExpired (now : ℕ) : List Bytes → List (Bytes × DedupEntry) → DedupCache
  | [], entries => { entries, order := [] }
  | key :: order, entries =>
    match lookup entries key with
    | none => { entries, order := key :: order }
    | some e =>
      if now < e.expiresAtMs then { entries, order := key :: order }
      else evictExpired now order (eraseKey entries key)

/-- The capacity loop of `store`, over the order list. -/
def evictOldest (maxEntries : ℕ) : List Bytes → List (Bytes × DedupEntry) → DedupCache
  | [], entries => { entries, order := [] }
  | key :: order, entries =>
    if maxEntries ≤ entries.length then evictOldest maxEntries order (eraseKey entries key)
    else { entries, order := key :: order }

/-- `store`. -/
def store (cfg : DedupConfig) (now : ℕ) (requestId response : Bytes) (c : DedupCache) :
    DedupCache :=
  if cfg.enabled = false then c
  else
    let c := evictExpired now c.order c.entries
    let entry : DedupEntry := { response, expiresAtMs := now + cfg.ttlMs }
    if (lookup c.entries requestId).isSome then
      { entries := c.entries.map fun e => if e.1 = requestId then (requestId, entry) else e
        order := c.order.erase requestId ++ [requestId] }
    else
      let c := if cfg.maxEntries ≠ 0 then evictOldest cfg.maxEntries c.order c.entries else c
      { entries := (requestId, entry) :: c.entries, order := c.order ++ [requestId] }

/-! ## The map -/

theorem lookup_cons (key : Bytes) (e : Bytes × DedupEntry) (entries : List (Bytes × DedupEntry)) :
    lookup (e :: entries) key = if e.1 = key then some e.2 else lookup entries key := by
  unfold lookup
  by_cases h : e.1 = key
  · simp [h]
  · simp [h]

theorem lookup_eraseKey (entries : List (Bytes × DedupEntry)) (key k : Bytes) :
    lookup (eraseKey entries key) k = if k = key then none else lookup entries k := by
  induction entries with
  | nil => simp [lookup, eraseKey]
  | cons e entries ih =>
    rw [eraseKey] at ih ⊢
    by_cases hkey : e.1 = key
    · rw [List.filter_cons_of_neg (by simp [hkey]), ih, lookup_cons, hkey]
      by_cases hk : k = key
      · rw [if_pos hk, if_pos hk]
      · rw [if_neg hk, if_neg hk, if_neg (fun h => hk h.symm)]
    · rw [List.filter_cons_of_pos (by simp [hkey]), lookup_cons, lookup_cons, ih]
      by_cases hk : e.1 = k
      · rw [if_pos hk, if_pos hk, if_neg (fun h => hkey (hk.trans h))]
      · rw [if_neg hk, if_neg hk]

theorem lookup_map_replace (entries : List (Bytes × DedupEntry)) (key k : Bytes)
    (entry : DedupEntry) :
    lookup (entries.map fun e => if e.1 = key then (key, entry) else e) k =
      if k = key then (lookup entries k).map fun _ => entry else lookup entries k := by
  induction entries with
  | nil => simp [lookup]
  | cons e entries ih =>
    rw [List.map_cons, lookup_cons, lookup_cons, ih]
    by_cases hkey : e.1 = key
    · by_cases hk : k = key
      · simp [hkey, hk]
      · have hne : ¬ key = k := fun h => hk h.symm
        simp [hkey, hk, hne]
    · by_cases hk : e.1 = k
      · have hne : ¬ k = key := fun h => hkey (hk.trans h)
        simp [hk, hne]
      · simp [hkey, hk]

/-! ## What the operations leave -/

/-- Expiry removes nothing that has not expired, and adds nothing. -/
theorem lookup_evictExpired (now : ℕ) (order : List Bytes) (entries : List (Bytes × DedupEntry))
    (k : Bytes) :
    (∀ e, lookup entries k = some e → now < e.expiresAtMs →
      lookup (evictExpired now order entries).entries k = some e) ∧
    (∀ e, lookup (evictExpired now order entries).entries k = some e →
      lookup entries k = some e) := by
  induction order generalizing entries with
  | nil => exact ⟨fun e he _ => he, fun e he => he⟩
  | cons key order ih =>
    unfold evictExpired
    cases hkey : lookup entries key with
    | none => exact ⟨fun e he _ => he, fun e he => he⟩
    | some e' =>
      by_cases hlive : now < e'.expiresAtMs
      · simp only [hlive, if_true]
        exact ⟨fun e he _ => he, fun e he => he⟩
      · simp only [hlive, if_false]
        obtain ⟨hkeep, hfrom⟩ := ih (eraseKey entries key)
        constructor
        · intro e he hlt
          refine hkeep e ?_ hlt
          rw [lookup_eraseKey, if_neg ?_]
          · exact he
          · rintro rfl
            obtain rfl : e' = e := Option.some.inj (hkey.symm.trans he)
            exact hlive hlt
        · intro e he
          have := hfrom e he
          rw [lookup_eraseKey] at this
          split at this
          · exact absurd this (by simp)
          · exact this

theorem length_evictExpired_le (now : ℕ) (order : List Bytes)
    (entries : List (Bytes × DedupEntry)) :
    (evictExpired now order entries).entries.length ≤ entries.length := by
  induction order generalizing entries with
  | nil => exact le_rfl
  | cons key order ih =>
    unfold evictExpired
    split
    · exact le_rfl
    · split
      · exact le_rfl
      · exact (ih _).trans (List.length_filter_le _ _)

/-- Below the capacity nothing is evicted. -/
theorem evictOldest_of_lt {maxEntries : ℕ} {order : List Bytes}
    {entries : List (Bytes × DedupEntry)} (h : entries.length < maxEntries) :
    (evictOldest maxEntries order entries).entries = entries := by
  cases order with
  | nil => rfl
  | cons key order =>
    rw [evictOldest, if_neg (by omega)]

/-- **A find** leaves every entry that has not expired, and adds none. -/
theorem lookup_find (cfg : DedupConfig) (now : ℕ) (requestId k : Bytes) (c : DedupCache) :
    (∀ e, lookup c.entries k = some e → now < e.expiresAtMs →
      lookup (find cfg now requestId c).2.entries k = some e) ∧
    (∀ e, lookup (find cfg now requestId c).2.entries k = some e →
      lookup c.entries k = some e) := by
  unfold find
  split
  · exact ⟨fun e he _ => he, fun e he => he⟩
  · split
    · exact ⟨fun e he _ => he, fun e he => he⟩
    · next e' he' =>
      split
      · next hexpired =>
        constructor
        · intro e he hlt
          simp only
          rw [lookup_eraseKey, if_neg ?_]
          · exact he
          · rintro rfl
            obtain rfl : e' = e := Option.some.inj (he'.symm.trans he)
            omega
        · intro e he
          simp only at he
          rw [lookup_eraseKey] at he
          split at he
          · exact absurd he (by simp)
          · exact he
      · exact ⟨fun e he _ => he, fun e he => he⟩

/-- A find hits exactly on an entry that has not expired. -/
theorem find_eq_some_iff {cfg : DedupConfig} (henabled : cfg.enabled = true) (now : ℕ)
    (requestId : Bytes) (c : DedupCache) (r : Bytes) :
    (find cfg now requestId c).1 = some r ↔
      ∃ e, lookup c.entries requestId = some e ∧ now < e.expiresAtMs ∧ e.response = r := by
  unfold find
  rw [if_neg (by simp [henabled])]
  cases hlookup : lookup c.entries requestId with
  | none => simp
  | some e =>
    by_cases hexpired : e.expiresAtMs ≤ now
    · simp only [hexpired, if_true]
      constructor
      · intro h
        exact absurd h (by simp)
      · rintro ⟨e', he', hlt, -⟩
        obtain rfl := Option.some.inj he'
        omega
    · simp only [hexpired, if_false]
      constructor
      · intro h
        exact ⟨e, rfl, by omega, Option.some.inj h⟩
      · rintro ⟨e', he', -, hr⟩
        obtain rfl := Option.some.inj he'
        rw [hr]

/-- The cache has room: a store evicts nothing that has not expired. -/
def HasRoom (cfg : DedupConfig) (c : DedupCache) : Prop :=
  cfg.maxEntries = 0 ∨ c.entries.length < cfg.maxEntries

/-- **A store, with room**, leaves the stored response under its id, and
every other entry that has not expired; it adds nothing else. -/
theorem lookup_store {cfg : DedupConfig} (henabled : cfg.enabled = true) (now : ℕ)
    (requestId response : Bytes) {c : DedupCache} (hroom : HasRoom cfg c) (k : Bytes) :
    (k = requestId → lookup (store cfg now requestId response c).entries k
      = some { response, expiresAtMs := now + cfg.ttlMs }) ∧
    (k ≠ requestId → ∀ e, lookup c.entries k = some e → now < e.expiresAtMs →
      lookup (store cfg now requestId response c).entries k = some e) ∧
    (k ≠ requestId → ∀ e, lookup (store cfg now requestId response c).entries k = some e →
      lookup c.entries k = some e) := by
  obtain ⟨hkeep, hfrom⟩ := lookup_evictExpired now c.order c.entries k
  unfold store
  rw [if_neg (by simp [henabled])]
  simp only
  split
  · next hpresent =>
    simp only [lookup_map_replace]
    refine ⟨?_, ?_, ?_⟩
    · rintro rfl
      obtain ⟨e, he⟩ := Option.isSome_iff_exists.mp hpresent
      simp [he]
    · intro hne e he hlt
      rw [if_neg hne]
      exact hkeep e he hlt
    · intro hne e he
      rw [if_neg hne] at he
      exact hfrom e he
  · have hcapacity : (if cfg.maxEntries ≠ 0 then
        evictOldest cfg.maxEntries (evictExpired now c.order c.entries).order
          (evictExpired now c.order c.entries).entries
        else evictExpired now c.order c.entries).entries
        = (evictExpired now c.order c.entries).entries := by
      split
      · next hbounded =>
        refine evictOldest_of_lt ?_
        have hlen := length_evictExpired_le now c.order c.entries
        rcases hroom with h | h
        · exact absurd h hbounded
        · omega
      · rfl
    simp only [hcapacity, lookup_cons]
    refine ⟨?_, ?_, ?_⟩
    · rintro rfl
      rw [if_pos rfl]
    · intro hne e he hlt
      rw [if_neg (fun h => hne h.symm)]
      exact hkeep e he hlt
    · intro hne e he
      rw [if_neg (fun h => hne h.symm)] at he
      exact hfrom e he

/-- **A store, with or without room**, leaves the stored response. -/
theorem lookup_store_self {cfg : DedupConfig} (henabled : cfg.enabled = true) (now : ℕ)
    (requestId response : Bytes) (c : DedupCache) :
    lookup (store cfg now requestId response c).entries requestId =
      some { response, expiresAtMs := now + cfg.ttlMs } := by
  unfold store
  rw [if_neg (by simp [henabled])]
  simp only
  split
  · next hpresent =>
    obtain ⟨e, he⟩ := Option.isSome_iff_exists.mp hpresent
    simp only [lookup_map_replace, if_true, he, Option.map_some]
  · simp only [lookup_cons, if_true]

theorem lookup_of_lookup_evictOldest {maxEntries : ℕ} {order : List Bytes}
    {entries : List (Bytes × DedupEntry)} {k : Bytes} {e : DedupEntry}
    (h : lookup (evictOldest maxEntries order entries).entries k = some e) :
    lookup entries k = some e := by
  induction order generalizing entries with
  | nil => exact h
  | cons key order ih =>
    rw [evictOldest] at h
    split at h
    · have hrest := ih h
      rw [lookup_eraseKey] at hrest
      split at hrest
      · cases hrest
      · exact hrest
    · exact h

/-- **A store, with or without room**, adds nothing but the stored response. -/
theorem lookup_of_lookup_store {cfg : DedupConfig} {now : ℕ} {requestId response k : Bytes}
    {c : DedupCache} {e : DedupEntry} (hne : k ≠ requestId)
    (h : lookup (store cfg now requestId response c).entries k = some e) :
    lookup c.entries k = some e := by
  have hfrom := (lookup_evictExpired now c.order c.entries k).2
  unfold store at h
  split at h
  · exact h
  · simp only at h
    split at h
    · simp only [lookup_map_replace, if_neg hne] at h
      exact hfrom e h
    · simp only [lookup_cons, if_neg (Ne.symm hne)] at h
      split at h
      · exact hfrom e (lookup_of_lookup_evictOldest h)
      · exact hfrom e h

end DedupCache
end Worker
end HttpDataDiod
