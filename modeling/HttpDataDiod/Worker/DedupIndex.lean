import HttpDataDiod.Lib.LinkedMap
import HttpDataDiod.Lib.Transition
import HttpDataDiod.Worker.DedupCache

/-!
# The dedup cache and its iterators

`DedupCache` keeps its entries in a hash map and their keys, in the order of the last store,
in a linked list; each entry holds the iterator of its key.  `Worker/DedupCache` models the
list by the keys alone.  Here the nodes and iterators are kept, and the two loops of `store`
run as the source has them: the capacity loop goes on until the map is small enough, and the
eviction it calls does nothing when the list is empty.

* `DedupIndex.find`, `DedupIndex.store`: the operations, with fuel for the loops.
* `DedupIndex.WellFormed`: the map and the list are in bijection through the iterators, and
  the capacity is kept.
* `find_toCache`, `store_toCache`: on well-formed caches the operations are those of
  `DedupCache`, and the loops end.
-/

namespace HttpDataDiod
namespace Worker

open ByteText LinkedMap

/-! ## The operations -/

/-- `DedupCache::Entry`. -/
structure IndexedEntry where
  response : Bytes
  expiresAtMs : ℕ
  orderIter : ℕ

/-- `DedupCache::State`: the map and the list of its keys.  Its clock and its TTL are
milliseconds far below `2 ^ 63`, so their sum does not wrap. -/
structure DedupIndex where
  entries : List (Bytes × IndexedEntry)
  order : NodeList Bytes

namespace DedupIndex

/-- An empty cache. -/
def empty : DedupIndex := { entries := [], order := .empty }

/-- `find`. -/
def find (cfg : DedupConfig) (now : ℕ) (requestId : Bytes) (c : DedupIndex) :
    Option Bytes × DedupIndex :=
  if cfg.enabled = false then (none, c)
  else
    match lookup c.entries requestId with
    | none => (none, c)
    | some e =>
      if e.expiresAtMs ≤ now then
        (none, { entries := eraseKey c.entries requestId, order := c.order.erase e.orderIter })
      else (some e.response, c)

/-- The first key leaves the list, and its entry the map. -/
def dropFront (key : Bytes) (c : DedupIndex) : DedupIndex :=
  { entries := eraseKey c.entries key, order := c.order.popFront }

/-- `evict_oldest_locked`. -/
def evictOldestLocked (c : DedupIndex) : DedupIndex :=
  match c.order.front? with
  | none => c
  | some key => c.dropFront key

/-- The loop of `evict_expired_locked`; `none` when the fuel is used up. -/
def evictExpiredLocked (now : ℕ) : ℕ → DedupIndex → Option DedupIndex
  | 0, _ => none
  | fuel + 1, c =>
    match c.order.front? with
    | none => some c
    | some key =>
      match lookup c.entries key with
      | none => some c
      | some e =>
        if now < e.expiresAtMs then some c else evictExpiredLocked now fuel (c.dropFront key)

/-- The capacity loop of `store`; `none` when the fuel is used up. -/
def evictToCapacity (maxEntries : ℕ) : ℕ → DedupIndex → Option DedupIndex
  | 0, _ => none
  | fuel + 1, c =>
    if maxEntries ≤ c.entries.length then evictToCapacity maxEntries fuel c.evictOldestLocked
    else some c

/-- The part of `store` behind the expiry. -/
def place (cfg : DedupConfig) (fuel now : ℕ) (requestId response : Bytes) (c : DedupIndex) :
    Option DedupIndex :=
  match lookup c.entries requestId with
  | some e =>
    some
      { entries := modify c.entries requestId fun e =>
          { e with response := response, expiresAtMs := now + cfg.ttlMs }
        order := c.order.moveToBack e.orderIter }
  | none =>
    (if cfg.maxEntries ≠ 0 then evictToCapacity cfg.maxEntries fuel c else some c).map fun c =>
      { entries := (requestId,
          { response, expiresAtMs := now + cfg.ttlMs, orderIter := c.order.next }) :: c.entries
        order := c.order.pushBack requestId }

/-- `store`. -/
def store (cfg : DedupConfig) (fuel now : ℕ) (requestId response : Bytes) (c : DedupIndex) :
    Option DedupIndex :=
  if cfg.enabled = false then some c
  else (evictExpiredLocked now fuel c).bind fun c => c.place cfg fuel now requestId response

/-- An entry without its iterator. -/
def toEntry (e : IndexedEntry) : DedupEntry := ⟨e.response, e.expiresAtMs⟩

/-- What the keys alone say of the cache. -/
def toCache (c : DedupIndex) : DedupCache where
  entries := c.entries.map fun e => (e.1, toEntry e.2)
  order := c.order.values

/-- The entries and the nodes of the list are in bijection. -/
def IsLinked (c : DedupIndex) : Prop := Linked IndexedEntry.orderIter c.entries c.order

/-- The map has the keys of the list, each once and with an iterator to it, and the capacity
is kept. -/
structure WellFormed (cfg : DedupConfig) (c : DedupIndex) : Prop where
  linked : c.IsLinked
  size_le : cfg.maxEntries ≠ 0 → c.entries.length ≤ cfg.maxEntries

/-! ## The operations on the keys -/

variable {cfg : DedupConfig} {c : DedupIndex} {now : ℕ} {requestId response : Bytes}

theorem wellFormed_empty (cfg : DedupConfig) : WellFormed cfg empty :=
  ⟨linked_empty _, fun _ => Nat.zero_le _⟩

theorem lookup_toCache (c : DedupIndex) (key : Bytes) :
    DedupCache.lookup c.toCache.entries key =
      (lookup c.entries key).map toEntry :=
  lookup_map c.entries key toEntry

theorem eraseKey_toCache (c : DedupIndex) (key : Bytes) :
    DedupCache.eraseKey c.toCache.entries key =
      (eraseKey c.entries key).map fun e => (e.1, toEntry e.2) :=
  eraseKey_map c.entries key toEntry

theorem length_toCache (c : DedupIndex) : c.toCache.entries.length = c.entries.length :=
  List.length_map _

theorem IsLinked.dropFront {key : Bytes} (h : c.IsLinked) (hfront : c.order.front? = some key) :
    (c.dropFront key).IsLinked :=
  h.popFront hfront

/-- The keys behind an erased one. -/
theorem erase_values (h : c.IsLinked) (key : Bytes) :
    c.order.values.erase key = c.order.values.filter fun k => k ≠ key := by
  rw [h.values_nodup.erase_eq_filter]
  refine List.filter_congr fun k _ => ?_
  by_cases hk : k = key
  · simp [hk]
  · simp [hk]

/-- **A find** is that of the keys, and keeps the bijection. -/
theorem find_toCache (h : WellFormed cfg c) (now : ℕ) (requestId : Bytes) :
    WellFormed cfg (c.find cfg now requestId).2 ∧
      (c.find cfg now requestId).1 = (c.toCache.find cfg now requestId).1 ∧
      (c.find cfg now requestId).2.toCache = (c.toCache.find cfg now requestId).2 := by
  unfold find DedupCache.find
  rw [lookup_toCache]
  split
  · exact ⟨h, rfl, rfl⟩
  · cases hlookup : lookup c.entries requestId with
    | none => exact ⟨h, rfl, rfl⟩
    | some e =>
      have hmem := mem_of_lookup hlookup
      simp only [Option.map_some, toEntry]
      split
      · refine ⟨⟨h.linked.erase hmem, fun hmax => ?_⟩, rfl, ?_⟩
        · exact Nat.le_trans (List.length_filter_le _ _) (h.size_le hmax)
        · rw [eraseKey_toCache, toCache]
          congr 1
          exact (h.linked.values_erase hmem).trans (erase_values h.linked _).symm
      · exact ⟨h, rfl, rfl⟩

/-- The first key of the list has an entry. -/
theorem IsLinked.exists_lookup {key : Bytes} {rest : List Bytes} (h : c.IsLinked)
    (hvalues : c.order.values = key :: rest) : ∃ e, lookup c.entries key = some e := by
  refine Option.isSome_iff_exists.mp (isSome_lookup_iff.mpr (h.mem_values_iff.mp ?_))
  rw [hvalues]
  exact List.mem_cons_self

theorem front?_of_values {key : Bytes} {rest : List Bytes}
    (hvalues : c.order.values = key :: rest) : c.order.front? = some key := by
  rw [NodeList.front?, hvalues]
  rfl

theorem values_dropFront {key : Bytes} {rest : List Bytes}
    (hvalues : c.order.values = key :: rest) : (c.dropFront key).order.values = rest := by
  rw [dropFront, NodeList.values_popFront, hvalues]
  rfl

/-- The map gets smaller by one. -/
theorem IsLinked.length_dropFront {key : Bytes} {rest : List Bytes} (h : c.IsLinked)
    (hvalues : c.order.values = key :: rest) :
    (c.dropFront key).entries.length + 1 = c.entries.length := by
  refine length_eraseKey h.keys_nodup (h.mem_values_iff.mp ?_)
  rw [hvalues]
  exact List.mem_cons_self

/-- **The expiry loop ends**, and is that of the keys. -/
theorem evictExpiredLocked_toCache (h : c.IsLinked) (now : ℕ) :
    ∃ c', (∀ fuel, c.entries.length < fuel → evictExpiredLocked now fuel c = some c') ∧
      c'.IsLinked ∧ c'.entries.length ≤ c.entries.length ∧
      c'.toCache = DedupCache.evictExpired now c.toCache.order c.toCache.entries := by
  -- by induction on the keys in the list: each round drops the first of them
  induction hvalues : c.order.values generalizing c with
  | nil =>
    refine ⟨c, ?_, h, Nat.le_refl _, ?_⟩
    · rintro (_ | fuel) hfuel
      · omega
      · simp only [evictExpiredLocked, NodeList.front?, hvalues, List.head?_nil]
    · show c.toCache = DedupCache.evictExpired now c.order.values _
      rw [hvalues, DedupCache.evictExpired, toCache, hvalues]
  | cons key rest ih =>
    obtain ⟨e, he⟩ := h.exists_lookup hvalues
    have hfront := front?_of_values hvalues
    have hlookup : DedupCache.lookup c.toCache.entries key = some (toEntry e) := by
      rw [lookup_toCache, he]
      rfl
    have hcache : DedupCache.evictExpired now c.toCache.order c.toCache.entries =
        if now < e.expiresAtMs then c.toCache
        else DedupCache.evictExpired now (c.dropFront key).toCache.order
          (c.dropFront key).toCache.entries := by
      show DedupCache.evictExpired now c.order.values _ = _
      rw [hvalues, DedupCache.evictExpired, hlookup, eraseKey_toCache]
      simp only [toEntry]
      congr 1
      · rw [toCache, hvalues]
      · rw [← values_dropFront hvalues]
        rfl
    by_cases hlive : now < e.expiresAtMs
    · refine ⟨c, ?_, h, Nat.le_refl _, by rw [hcache, if_pos hlive]⟩
      rintro (_ | fuel) hfuel
      · omega
      · simp only [evictExpiredLocked, hfront, he, hlive, if_true]
    · obtain ⟨c', hloop, hlinked, hle, hsame⟩ :=
        ih (h.dropFront hfront) (values_dropFront hvalues)
      have hlength := h.length_dropFront hvalues
      refine ⟨c', ?_, hlinked, by omega, by rw [hcache, if_neg hlive, hsame]⟩
      rintro (_ | fuel) hfuel
      · omega
      · simp only [evictExpiredLocked, hfront, he, hlive, if_false]
        exact hloop fuel (by omega)

/-- **The capacity loop ends**, below the capacity, and is that of the keys. -/
theorem evictToCapacity_toCache (h : c.IsLinked) {maxEntries : ℕ} (hmax : maxEntries ≠ 0) :
    ∃ c', (∀ fuel, c.entries.length < fuel → evictToCapacity maxEntries fuel c = some c') ∧
      c'.IsLinked ∧ c'.entries.length < maxEntries ∧
      (∀ key, key ∈ c'.entries.map Prod.fst → key ∈ c.entries.map Prod.fst) ∧
      c'.toCache = DedupCache.evictOldest maxEntries c.toCache.order c.toCache.entries := by
  -- the list is empty only when the map is, so every round makes the map smaller
  induction hvalues : c.order.values generalizing c with
  | nil =>
    have hlength := h.length_values
    rw [hvalues, List.length_nil] at hlength
    refine ⟨c, ?_, h, by omega, fun _ hkey => hkey, ?_⟩
    · rintro (_ | fuel) hfuel
      · omega
      · rw [evictToCapacity, if_neg (by omega)]
    · show c.toCache = DedupCache.evictOldest maxEntries c.order.values _
      rw [hvalues, DedupCache.evictOldest, toCache, hvalues]
  | cons key rest ih =>
    have hfront := front?_of_values hvalues
    have hcache : DedupCache.evictOldest maxEntries c.toCache.order c.toCache.entries =
        if maxEntries ≤ c.entries.length then
          DedupCache.evictOldest maxEntries (c.dropFront key).toCache.order
            (c.dropFront key).toCache.entries
        else c.toCache := by
      show DedupCache.evictOldest maxEntries c.order.values _ = _
      rw [hvalues, DedupCache.evictOldest, eraseKey_toCache, length_toCache]
      congr 1
      · rw [← values_dropFront hvalues]
        rfl
      · rw [toCache, hvalues]
    by_cases hfull : maxEntries ≤ c.entries.length
    · obtain ⟨c', hloop, hlinked, hlt, hkeys, hsame⟩ :=
        ih (h.dropFront hfront) (values_dropFront hvalues)
      have hlength := h.length_dropFront hvalues
      refine ⟨c', ?_, hlinked, hlt, fun k hk => ?_, by rw [hcache, if_pos hfull, hsame]⟩
      · rintro (_ | fuel) hfuel
        · omega
        · rw [evictToCapacity, if_pos hfull, evictOldestLocked, hfront]
          exact hloop fuel (by omega)
      · exact (List.filter_sublist.map Prod.fst).subset (hkeys k hk)
    · refine ⟨c, ?_, h, by omega, fun _ hkey => hkey, by rw [hcache, if_neg hfull]⟩
      rintro (_ | fuel) hfuel
      · omega
      · rw [evictToCapacity, if_neg hfull]

/-- A response that is stored again replaces the old one, and its key moves to the end. -/
theorem refresh_toCache {e : IndexedEntry} (h : WellFormed cfg c)
    (he : lookup c.entries requestId = some e) (now : ℕ) (response : Bytes) :
    ∃ c', (∀ fuel, c.place cfg fuel now requestId response = some c') ∧ WellFormed cfg c' ∧
      c'.toCache =
        { entries := c.toCache.entries.map fun e =>
            if e.1 = requestId then (requestId, ⟨response, now + cfg.ttlMs⟩) else e
          order := c.toCache.order.erase requestId ++ [requestId] } := by
  have hmem := mem_of_lookup he
  refine ⟨_, fun fuel => by rw [place, he], ⟨?_, fun hmax => ?_⟩, ?_⟩
  · have hmodify := h.linked.modify requestId
      (f := fun e => { e with response := response, expiresAtMs := now + cfg.ttlMs }) fun _ => rfl
    exact hmodify.touch e.orderIter
  · rw [LinkedMap.modify, List.length_map]
    exact h.size_le hmax
  · rw [toCache, DedupCache.mk.injEq]
    constructor
    · rw [toCache, LinkedMap.modify, List.map_map, List.map_map]
      refine List.map_congr_left fun x _ => ?_
      by_cases hx : x.1 = requestId
      · simp [hx, toEntry]
      · simp [hx]
    · show (c.order.moveToBack e.orderIter).values = _
      rw [h.linked.values_moveToBack hmem, ← erase_values h.linked]
      rfl

/-- A new key is put at the end, when the capacity loop has made room. -/
theorem insert_toCache (h : c.IsLinked) (hnone : lookup c.entries requestId = none)
    (hroom : cfg.maxEntries ≠ 0 → c.entries.length < cfg.maxEntries) (now : ℕ) (response : Bytes) :
    WellFormed cfg
        { entries := (requestId, ⟨response, now + cfg.ttlMs, c.order.next⟩) :: c.entries
          order := c.order.pushBack requestId } ∧
      toCache
          { entries := (requestId, ⟨response, now + cfg.ttlMs, c.order.next⟩) :: c.entries
            order := c.order.pushBack requestId } =
        { entries := (requestId, ⟨response, now + cfg.ttlMs⟩) :: c.toCache.entries
          order := c.toCache.order ++ [requestId] } := by
  refine ⟨⟨h.insert (lookup_eq_none_iff.mp hnone) rfl, hroom⟩, ?_⟩
  rw [toCache, NodeList.values_pushBack]
  rfl

/-- **A store** ends, is that of the keys and keeps the cache well formed. -/
theorem store_toCache (h : WellFormed cfg c) (now : ℕ) (requestId response : Bytes) :
    ∃ c', (∀ fuel, c.entries.length < fuel →
        c.store cfg fuel now requestId response = some c') ∧
      WellFormed cfg c' ∧ c'.toCache = c.toCache.store cfg now requestId response := by
  by_cases hdisabled : cfg.enabled = false
  · refine ⟨c, fun fuel _ => ?_, h, ?_⟩
    · rw [store, if_pos hdisabled]
    · rw [DedupCache.store, if_pos hdisabled]
  obtain ⟨c₁, hloop, hlinked, hle, hcache⟩ := evictExpiredLocked_toCache h.linked now
  have hwell : WellFormed cfg c₁ := ⟨hlinked, fun hmax => Nat.le_trans hle (h.size_le hmax)⟩
  -- behind the expiry loop both stores go on from the same cache
  suffices hplace : ∃ c', (∀ fuel, c₁.entries.length < fuel →
      c₁.place cfg fuel now requestId response = some c') ∧ WellFormed cfg c' ∧
      c'.toCache = c.toCache.store cfg now requestId response by
    obtain ⟨c', hfuel, hrest⟩ := hplace
    refine ⟨c', fun fuel hlt => ?_, hrest⟩
    rw [store, if_neg hdisabled, hloop fuel hlt, Option.bind_some]
    exact hfuel fuel (by omega)
  rw [DedupCache.store, if_neg hdisabled, ← hcache]
  simp only [lookup_toCache]
  cases hlookup : lookup c₁.entries requestId with
  | some e =>
    obtain ⟨c', hfuel, hwell', hsame⟩ := refresh_toCache hwell hlookup now response
    exact ⟨c', fun fuel _ => hfuel fuel, hwell', hsame⟩
  | none =>
    by_cases hmax : cfg.maxEntries = 0
    · obtain ⟨hwell', hsame⟩ :=
        insert_toCache hlinked hlookup (fun hne => absurd hmax hne) now response
      refine ⟨_, fun fuel _ => ?_, hwell', ?_⟩
      · rw [place, hlookup]
        simp only [hmax, ne_eq, not_true, if_false, Option.map_some]
      · simpa [hmax] using hsame
    · obtain ⟨c₂, hcapacity, hlinked₂, hlt, hkeys, hcache₂⟩ :=
        evictToCapacity_toCache hlinked hmax
      have hnone : lookup c₂.entries requestId = none :=
        lookup_eq_none_iff.mpr fun hkey => lookup_eq_none_iff.mp hlookup (hkeys _ hkey)
      obtain ⟨hwell', hsame⟩ := insert_toCache hlinked₂ hnone (fun _ => hlt) now response
      refine ⟨_, fun fuel hfuel => ?_, hwell', ?_⟩
      · rw [place, hlookup]
        simp only [ne_eq, hmax, not_false_eq_true, if_true, hcapacity fuel hfuel, Option.map_some]
      · rw [hcache₂] at hsame
        simpa [hmax] using hsame

end DedupIndex
end Worker
end HttpDataDiod
