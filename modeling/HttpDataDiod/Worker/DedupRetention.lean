import HttpDataDiod.Worker.DedupIndex
import Mathlib.Data.List.Dedup

/-!
# How long the dedup cache remembers a response

The order list of the cache runs from the oldest store to the newest, and entries leave it
at the front when they have expired or when the cache is full, and anywhere when a find meets
an expired one.  When the clock readings do not go back, an entry that is older than another
one expires first, so a response that is still there and has not expired has all newer ones
behind it.

* `DedupCall`, `dedupStep`: the calls, in the order in which they take the lock.
* `lastStored`, `storedSince`: the last store of a key and the keys stored after it.
* `Remembers`: an entry is the last store of its key.
* `Retained`: which keys the order list holds, kept by every call.
* `dedup_cache_correct`: a response is found exactly while it has not expired and fewer than
  `max_entries` other keys were stored after it.
-/

namespace HttpDataDiod
namespace Worker

open ByteText Transition

/-! ## Calls and histories -/

/-- A call, with the clock reading it took before the lock. -/
inductive DedupCall where
  | find (now : ℕ) (requestId : Bytes)
  | store (now : ℕ) (requestId response : Bytes)

/-- The clock reading of a call. -/
def DedupCall.now : DedupCall → ℕ
  | .find now _ => now
  | .store now _ _ => now

/-- One call.  The loops of a store get one round more than there are entries; a store that
does not end is no step. -/
def dedupStep (cfg : DedupConfig) (c : DedupIndex) : DedupCall → Option DedupIndex
  | .find now requestId => some (c.find cfg now requestId).2
  | .store now requestId response =>
    c.store cfg (c.entries.length + 1) now requestId response

/-- The time and the response of the last store of a key, in a history that starts with the
newest call. -/
def lastStored (key : Bytes) : List DedupCall → Option (ℕ × Bytes)
  | [] => none
  | .find _ _ :: history => lastStored key history
  | .store now k response :: history =>
    if k = key then some (now, response) else lastStored key history

/-- The keys of the stores since then. -/
def storedSince (key : Bytes) : List DedupCall → List Bytes
  | [] => []
  | .find _ _ :: history => storedSince key history
  | .store _ k _ :: history => if k = key then [] else k :: storedSince key history

/-- The clock readings did not go back, and the last one is not after `clock`. -/
def ReadingsUpTo : ℕ → List DedupCall → Prop
  | _, [] => True
  | clock, call :: history => call.now ≤ clock ∧ ReadingsUpTo call.now history

variable {history : List DedupCall} {key k j : Bytes} {now clock t : ℕ} {response r : Bytes}

theorem notMem_storedSince_self (key : Bytes) (history : List DedupCall) :
    key ∉ storedSince key history := by
  induction history with
  | nil => exact List.not_mem_nil
  | cons call history ih =>
    cases call with
    | find now k => exact ih
    | store now k r =>
      rw [storedSince]
      split
      · exact List.not_mem_nil
      · rename_i hk
        rw [List.mem_cons, not_or]
        exact ⟨fun heq => hk heq.symm, ih⟩

/-- Of two keys only one was stored after the other. -/
theorem storedSince_asymm (hj : j ∈ storedSince k history) : k ∉ storedSince j history := by
  induction history with
  | nil => exact absurd hj List.not_mem_nil
  | cons call history ih =>
    cases call with
    | find now k' => exact ih hj
    | store now k' r =>
      rw [storedSince] at hj ⊢
      split at hj
      · exact absurd hj List.not_mem_nil
      · rename_i hk
        split
        · exact List.not_mem_nil
        · rename_i hj'
          rw [List.mem_cons, not_or]
          refine ⟨fun heq => hk heq.symm, ih ?_⟩
          rcases List.mem_cons.mp hj with heq | hmem
          · exact absurd heq.symm hj'
          · exact hmem

theorem lastStored_le (hreadings : ReadingsUpTo clock history)
    (hlast : lastStored k history = some (t, r)) : t ≤ clock := by
  induction history generalizing clock with
  | nil => cases hlast
  | cons call history ih =>
    obtain ⟨hcall, hrest⟩ := hreadings
    cases call with
    | find now k' => exact Nat.le_trans (ih hrest hlast) hcall
    | store now k' r' =>
      rw [lastStored] at hlast
      split at hlast
      · cases hlast
        exact hcall
      · exact Nat.le_trans (ih hrest hlast) hcall

/-- What was stored later was stored at no earlier time. -/
theorem exists_lastStored_of_mem (hreadings : ReadingsUpTo clock history)
    (hlast : lastStored k history = some (t, r)) (hj : j ∈ storedSince k history) :
    ∃ t' r', lastStored j history = some (t', r') ∧ t ≤ t' := by
  induction history generalizing clock with
  | nil => exact absurd hj List.not_mem_nil
  | cons call history ih =>
    obtain ⟨hcall, hrest⟩ := hreadings
    cases call with
    | find now k' => exact ih hrest hlast hj
    | store now k' r' =>
      rw [storedSince] at hj
      rw [lastStored] at hlast ⊢
      split at hj
      · exact absurd hj List.not_mem_nil
      · rename_i hk
        rw [if_neg hk] at hlast
        split
        · exact ⟨now, r', rfl, lastStored_le hrest hlast⟩
        · rename_i hj'
          rcases List.mem_cons.mp hj with heq | hmem
          · exact absurd heq.symm hj'
          · exact ih hrest hlast hmem

/-! ## What the order list holds -/

/-- An entry is the last store of its key. -/
def Remembers (cfg : DedupConfig) (history : List DedupCall)
    (entries : List (Bytes × DedupEntry)) : Prop :=
  ∀ key e, DedupCache.lookup entries key = some e →
    ∃ t, lastStored key history = some (t, e.response) ∧ e.expiresAtMs = t + cfg.ttlMs

/-- The order list, with the clock not before `clock`: it is in the order of the last stores,
behind a key that has not expired there are all newer keys, and a key is missing only when it
has expired or when as many others as the cache holds came after it. -/
structure Retained (cfg : DedupConfig) (history : List DedupCall) (clock : ℕ)
    (order : List Bytes) : Prop where
  newer : order.Pairwise fun k j => j ∈ storedSince k history
  kept : ∀ k t r, lastStored k history = some (t, r) → k ∈ order → clock < t + cfg.ttlMs →
    ∀ j ∈ storedSince k history, j ∈ order
  gone : ∀ k t r, lastStored k history = some (t, r) → k ∉ order →
    t + cfg.ttlMs ≤ clock ∨
      (cfg.maxEntries ≠ 0 ∧ cfg.maxEntries ≤ (storedSince k history).dedup.length)

variable {cfg : DedupConfig} {order order' : List Bytes}

theorem retained_nil (cfg : DedupConfig) (clock : ℕ) : Retained cfg [] clock [] where
  newer := List.Pairwise.nil
  kept := nofun
  gone := nofun

/-- **Expired keys may leave** the list, and time may pass. -/
theorem Retained.remove (h : Retained cfg history clock order)
    (hreadings : ReadingsUpTo clock history) (hclock : clock ≤ now) (hsub : order'.Sublist order)
    (hexpired : ∀ k ∈ order, k ∉ order' →
      ∃ t r, lastStored k history = some (t, r) ∧ t + cfg.ttlMs ≤ now) :
    Retained cfg history now order' where
  newer := h.newer.sublist hsub
  kept := by
    intro k t r hlast hk hlive j hj
    have hj' := h.kept k t r hlast (hsub.subset hk) (Nat.lt_of_le_of_lt hclock hlive) j hj
    by_contra hmissing
    -- a newer key that has expired would make this one expire as well
    obtain ⟨t₁, r₁, hlast₁, hle⟩ := hexpired j hj' hmissing
    obtain ⟨t₂, r₂, hlast₂, hle₂⟩ := exists_lastStored_of_mem hreadings hlast hj
    rw [hlast₁] at hlast₂
    cases hlast₂
    omega
  gone := by
    intro k t r hlast hk
    by_cases hmem : k ∈ order
    · obtain ⟨t₁, r₁, hlast₁, hle⟩ := hexpired k hmem hk
      rw [hlast] at hlast₁
      cases hlast₁
      exact .inl hle
    · rcases h.gone k t r hlast hmem with hle | hfull
      · exact .inl (Nat.le_trans hle hclock)
      · exact .inr hfull

theorem length_dedup_le_cons (k : Bytes) (l : List Bytes) :
    l.dedup.length ≤ (k :: l).dedup.length := by
  by_cases hk : k ∈ l
  · rw [List.dedup_cons_of_mem hk]
  · rw [List.dedup_cons_of_notMem hk]
    exact Nat.le_succ _

/-- Distinct keys of a list are counted. -/
theorem length_le_dedup {l l' : List Bytes} (hnodup : l.Nodup) (hsub : l ⊆ l') :
    l.length ≤ l'.dedup.length :=
  (List.subperm_of_subset hnodup fun _ hk => List.mem_dedup.mpr (hsub hk)).length_le

/-- **A store** puts its key behind the others.  Of the others at most the oldest is missing
then, for a cache that was full. -/
theorem Retained.store (h : Retained cfg history now order) (hsub : order'.Sublist order)
    (hnodup : order'.Nodup) (hkey : key ∉ order')
    (hevicted : ∀ k ∈ order, k ∉ order' → k ≠ key →
      cfg.maxEntries ≠ 0 ∧ cfg.maxEntries ≤ order'.length + 1 ∧
        ∀ j ∈ order', j ∈ storedSince k history) :
    Retained cfg (.store now key response :: history) now (order' ++ [key]) where
  newer := by
    rw [List.pairwise_append]
    have hsince : ∀ k ∈ order', ∀ j, j = key ∨ j ∈ storedSince k history →
        j ∈ storedSince k (.store now key response :: history) := by
      intro k hk j hj
      have hne : key ≠ k := by
        rintro rfl
        exact hkey hk
      rw [storedSince, if_neg hne]
      exact List.mem_cons.mpr hj
    refine ⟨?_, List.pairwise_singleton _ _, ?_⟩
    · exact (h.newer.sublist hsub).imp_of_mem fun hk _ hj => hsince _ hk _ (.inr hj)
    · intro k hk j hj
      exact hsince k hk j (.inl (List.mem_singleton.mp hj))
  kept := by
    intro k t r hlast hk hlive j hj
    rw [storedSince] at hj
    rw [lastStored] at hlast
    split at hj
    · exact absurd hj List.not_mem_nil
    · rename_i hne
      rw [if_neg hne] at hlast
      rcases List.mem_append.mp hk with hk | hk
      · rcases List.mem_cons.mp hj with rfl | hj
        · exact List.mem_append_right _ List.mem_cons_self
        · have hj' := h.kept k t r hlast (hsub.subset hk) hlive j hj
          by_cases hjkey : j = key
          · rw [hjkey]
            exact List.mem_append_right _ List.mem_cons_self
          · by_contra hmissing
            -- the key that is missing would be older than this one, and newer
            obtain ⟨-, -, holder⟩ := hevicted j hj'
              (fun hmem => hmissing (List.mem_append_left _ hmem)) hjkey
            exact storedSince_asymm hj (holder k hk)
      · exact absurd (List.mem_singleton.mp hk).symm hne
  gone := by
    intro k t r hlast hk
    rw [List.mem_append, List.mem_singleton, not_or] at hk
    obtain ⟨hk, hne⟩ := hk
    rw [lastStored, if_neg (Ne.symm hne)] at hlast
    rw [storedSince, if_neg (Ne.symm hne)]
    by_cases hmem : k ∈ order
    · obtain ⟨hmax, hfull, holder⟩ := hevicted k hmem hk hne
      refine .inr ⟨hmax, Nat.le_trans hfull ?_⟩
      have hcount : (key :: order').length ≤ (key :: storedSince k history).dedup.length :=
        length_le_dedup (List.nodup_cons.mpr ⟨hkey, hnodup⟩) (List.cons_subset_cons _ holder)
      exact hcount
    · rcases h.gone k t r hlast hmem with hle | ⟨hmax, hfull⟩
      · exact .inl hle
      · exact .inr ⟨hmax, Nat.le_trans hfull (length_dedup_le_cons _ _)⟩

/-! ## The calls -/

/-- The keys of the map are those of the list, without repetition. -/
structure Matched (c : DedupCache) : Prop where
  keys_nodup : (c.entries.map Prod.fst).Nodup
  order_nodup : c.order.Nodup
  mem_order_iff : ∀ key, key ∈ c.order ↔ key ∈ c.entries.map Prod.fst

theorem matched_toCache {c : DedupIndex} (h : c.IsLinked) : Matched c.toCache where
  keys_nodup := by
    rw [DedupIndex.toCache, List.map_map]
    exact h.keys_nodup
  order_nodup := h.values_nodup
  mem_order_iff := by
    intro key
    rw [DedupIndex.toCache, List.map_map]
    exact h.mem_values_iff

variable {c : DedupCache}

theorem Matched.exists_lookup (h : Matched c) (hkey : key ∈ c.order) :
    ∃ e, DedupCache.lookup c.entries key = some e :=
  Option.isSome_iff_exists.mp (LinkedMap.isSome_lookup_iff.mpr ((h.mem_order_iff key).mp hkey))

/-- Without the first key. -/
theorem Matched.dropFront {entries : List (Bytes × DedupEntry)} {rest : List Bytes}
    (h : Matched ⟨entries, key :: rest⟩) : Matched ⟨DedupCache.eraseKey entries key, rest⟩ where
  keys_nodup := LinkedMap.nodup_eraseKey h.keys_nodup key
  order_nodup := (List.nodup_cons.mp h.order_nodup).2
  mem_order_iff := by
    intro k
    have hiff := h.mem_order_iff k
    have hnotMem := (List.nodup_cons.mp h.order_nodup).1
    rw [DedupCache.eraseKey]
    refine Iff.trans ?_ LinkedMap.mem_keys_eraseKey.symm
    rw [← hiff, List.mem_cons]
    constructor
    · intro hk
      refine ⟨.inr hk, ?_⟩
      rintro rfl
      exact hnotMem hk
    · rintro ⟨rfl | hk, hne⟩
      · exact absurd rfl hne
      · exact hk

/-- The expiry loop drops expired keys off the front. -/
theorem evictExpired_spec {entries : List (Bytes × DedupEntry)} {order : List Bytes}
    (h : Matched ⟨entries, order⟩) (now : ℕ) :
    Matched (DedupCache.evictExpired now order entries) ∧
      ∃ dropped, order = dropped ++ (DedupCache.evictExpired now order entries).order ∧
        ∀ k ∈ dropped, ∃ e, DedupCache.lookup entries k = some e ∧ e.expiresAtMs ≤ now := by
  induction order generalizing entries with
  | nil => exact ⟨h, [], rfl, nofun⟩
  | cons key rest ih =>
    obtain ⟨e, he⟩ := h.exists_lookup List.mem_cons_self
    rw [DedupCache.evictExpired, he]
    simp only
    split
    · exact ⟨h, [], rfl, nofun⟩
    · rename_i hexpired
      obtain ⟨hmatched, dropped, hrest, hdropped⟩ := ih h.dropFront
      refine ⟨hmatched, key :: dropped, congrArg (key :: ·) hrest, ?_⟩
      intro k hk
      rcases List.mem_cons.mp hk with rfl | hk
      · exact ⟨e, he, Nat.not_lt.mp hexpired⟩
      · obtain ⟨e', he', hle⟩ := hdropped k hk
        rw [DedupCache.lookup_eraseKey] at he'
        split at he'
        · cases he'
        · exact ⟨e', he', hle⟩

/-- The capacity loop drops the first key, and only if the cache is full. -/
theorem evictOldest_order {maxEntries : ℕ} {entries : List (Bytes × DedupEntry)}
    {order : List Bytes} (h : Matched ⟨entries, order⟩) (hle : entries.length ≤ maxEntries) :
    (DedupCache.evictOldest maxEntries order entries).order =
      if entries.length = maxEntries then order.tail else order := by
  cases order with
  | nil =>
    rw [DedupCache.evictOldest]
    split <;> rfl
  | cons key rest =>
    rw [DedupCache.evictOldest]
    by_cases hfull : entries.length = maxEntries
    · have hkey := (h.mem_order_iff key).mp List.mem_cons_self
      have hlength : (LinkedMap.eraseKey entries key).length + 1 = entries.length :=
        LinkedMap.length_eraseKey h.keys_nodup hkey
      rw [if_pos (Nat.le_of_eq hfull.symm), if_pos hfull]
      cases rest with
      | nil => rfl
      | cons key' rest =>
        rw [DedupCache.evictOldest, if_neg]
        · rfl
        · show ¬ maxEntries ≤ (LinkedMap.eraseKey entries key).length
          omega
    · rw [if_neg hfull, if_neg (by omega)]

/-- The list gets no shorter than the map. -/
theorem Matched.length_order (h : Matched c) : c.order.length = c.entries.length := by
  have hperm : c.order.Perm (c.entries.map Prod.fst) :=
    (List.perm_ext_iff_of_nodup h.order_nodup h.keys_nodup).mpr fun _ => h.mem_order_iff _
  rw [hperm.length_eq, List.length_map]

theorem remembers_find (h : Remembers cfg history c.entries) (now : ℕ) (requestId : Bytes) :
    Remembers cfg (.find now requestId :: history) (c.find cfg now requestId).2.entries := by
  intro k e he
  exact h k e ((DedupCache.lookup_find cfg now requestId k c).2 e he)

theorem remembers_store (henabled : cfg.enabled = true) (h : Remembers cfg history c.entries)
    (now : ℕ) (requestId response : Bytes) :
    Remembers cfg (.store now requestId response :: history)
      (c.store cfg now requestId response).entries := by
  intro k e he
  rw [lastStored]
  by_cases hk : requestId = k
  · subst hk
    rw [DedupCache.lookup_store_self henabled] at he
    cases he
    exact ⟨now, if_pos rfl, rfl⟩
  · rw [if_neg hk]
    exact h k e (DedupCache.lookup_of_lookup_store (Ne.symm hk) he)

/-- A key whose entry has expired. -/
theorem Remembers.expired {e : DedupEntry} (h : Remembers cfg history c.entries)
    (he : DedupCache.lookup c.entries k = some e) (hle : e.expiresAtMs ≤ now) :
    ∃ t r, lastStored k history = some (t, r) ∧ t + cfg.ttlMs ≤ now := by
  obtain ⟨t, hlast, hexpires⟩ := h k e he
  exact ⟨t, e.response, hlast, by omega⟩

theorem retained_find (henabled : cfg.enabled = true) (h : Remembers cfg history c.entries)
    (hretained : Retained cfg history clock c.order) (hreadings : ReadingsUpTo clock history)
    (hclock : clock ≤ now) (requestId : Bytes) :
    Retained cfg (.find now requestId :: history) now (c.find cfg now requestId).2.order := by
  suffices hsame : Retained cfg history now (c.find cfg now requestId).2.order from
    ⟨hsame.newer, hsame.kept, hsame.gone⟩
  rw [DedupCache.find, if_neg (by rw [henabled]; exact Bool.noConfusion)]
  cases hlookup : DedupCache.lookup c.entries requestId with
  | none =>
    exact hretained.remove hreadings hclock (List.Sublist.refl _) fun k hk hk' => absurd hk hk'
  | some e =>
    simp only
    split
    · rename_i hexpired
      refine hretained.remove hreadings hclock List.erase_sublist fun k hk hk' => ?_
      obtain rfl : k = requestId := by
        by_contra hne
        exact hk' ((List.mem_erase_of_ne hne).mpr hk)
      exact h.expired hlookup hexpired
    · exact hretained.remove hreadings hclock (List.Sublist.refl _) fun k hk hk' => absurd hk hk'

theorem retained_store (henabled : cfg.enabled = true) (hmatched : Matched c)
    (hsize : cfg.maxEntries ≠ 0 → c.entries.length ≤ cfg.maxEntries)
    (h : Remembers cfg history c.entries) (hretained : Retained cfg history clock c.order)
    (hreadings : ReadingsUpTo clock history) (hclock : clock ≤ now) (requestId response : Bytes) :
    Retained cfg (.store now requestId response :: history) now
      (c.store cfg now requestId response).order := by
  obtain ⟨hmatched₁, dropped, hdrop, hexpired⟩ := evictExpired_spec hmatched now
  have hlength := DedupCache.length_evictExpired_le now c.order c.entries
  rw [DedupCache.store, if_neg (by rw [henabled]; exact Bool.noConfusion)]
  generalize hc₁ : DedupCache.evictExpired now c.order c.entries = c₁ at *
  have hretained₁ : Retained cfg history now c₁.order := by
    refine hretained.remove hreadings hclock ?_ fun k hk hk' => ?_
    · rw [hdrop]
      exact List.sublist_append_right _ _
    · rw [hdrop] at hk
      rcases List.mem_append.mp hk with hk | hk
      · obtain ⟨e, he, hle⟩ := hexpired k hk
        exact h.expired he hle
      · exact absurd hk hk'
  simp only
  split
  · -- the key is there: it moves to the end, and nothing is missing
    refine hretained₁.store List.erase_sublist (hmatched₁.order_nodup.erase _)
      hmatched₁.order_nodup.not_mem_erase fun k hk hk' hne => ?_
    exact absurd ((List.mem_erase_of_ne hne).mpr hk) hk'
  · rename_i hnew
    have hkey : requestId ∉ c₁.order := fun hmem =>
      hnew (LinkedMap.isSome_lookup_iff.mpr ((hmatched₁.mem_order_iff _).mp hmem))
    split
    · rename_i hmax
      rw [evictOldest_order hmatched₁ (Nat.le_trans hlength (hsize hmax))]
      split
      · -- the cache is full: the oldest key makes room
        rename_i hfull
        rw [← hmatched₁.length_order] at hfull
        obtain ⟨oldest, rest, horder⟩ : ∃ oldest rest, c₁.order = oldest :: rest :=
          List.exists_cons_of_length_pos (by omega)
        have hnewer := hretained₁.newer
        have hnodup := hmatched₁.order_nodup
        rw [horder] at hretained₁ hkey hfull hnewer hnodup ⊢
        refine hretained₁.store (List.sublist_cons_self _ _) (List.nodup_cons.mp hnodup).2
          (fun hmem => hkey (List.mem_cons_of_mem _ hmem)) fun k hk hk' _ => ?_
        rcases List.mem_cons.mp hk with rfl | hk
        · exact ⟨hmax, Nat.le_of_eq hfull.symm, (List.pairwise_cons.mp hnewer).1⟩
        · exact absurd hk hk'
      · exact hretained₁.store (List.Sublist.refl _) hmatched₁.order_nodup hkey
          fun k hk hk' => absurd hk hk'
    · exact hretained₁.store (List.Sublist.refl _) hmatched₁.order_nodup hkey
        fun k hk hk' => absurd hk hk'

/-! ## Whole runs -/

/-- What the calls leave: the cache is well formed and remembers last stores, and if the
clock readings did not go back, nothing is missing that should be there. -/
structure CacheInv (cfg : DedupConfig) (history : List DedupCall) (c : DedupIndex) : Prop where
  wellFormed : c.WellFormed cfg
  remembers : cfg.enabled = true → Remembers cfg history c.toCache.entries
  retained : cfg.enabled = true → ∀ clock, ReadingsUpTo clock history →
    Retained cfg history clock c.toCache.order

/-- **One call** ends and keeps the invariant. -/
theorem CacheInv.step {c : DedupIndex} (h : CacheInv cfg history c) (call : DedupCall) :
    ∃ c', dedupStep cfg c call = some c' ∧ CacheInv cfg (call :: history) c' := by
  have hlater : ∀ {order : List Bytes}, Retained cfg (call :: history) call.now order →
      ReadingsUpTo call.now history → ∀ clock, ReadingsUpTo clock (call :: history) →
        Retained cfg (call :: history) clock order := by
    intro order hretained hreadings clock hclock
    exact hretained.remove ⟨Nat.le_refl _, hreadings⟩ hclock.1 (List.Sublist.refl _)
      fun k hk hk' => absurd hk hk'
  cases call with
  | find now requestId =>
    obtain ⟨hwell, -, hcache⟩ := DedupIndex.find_toCache h.wellFormed now requestId
    refine ⟨_, rfl, hwell, fun henabled => ?_, fun henabled clock hclock => ?_⟩
    · rw [hcache]
      exact remembers_find (h.remembers henabled) now requestId
    · refine hlater ?_ hclock.2 clock hclock
      rw [hcache]
      exact retained_find henabled (h.remembers henabled) (h.retained henabled now hclock.2)
        hclock.2 (Nat.le_refl _) requestId
  | store now requestId response =>
    obtain ⟨c', hstore, hwell, hcache⟩ :=
      DedupIndex.store_toCache h.wellFormed now requestId response
    refine ⟨c', hstore _ (Nat.lt_succ_self _), hwell, fun henabled => ?_,
      fun henabled clock hclock => ?_⟩
    · rw [hcache]
      exact remembers_store henabled (h.remembers henabled) now requestId response
    · refine hlater ?_ hclock.2 clock hclock
      rw [hcache]
      refine retained_store henabled (matched_toCache h.wellFormed.linked) ?_
        (h.remembers henabled) (h.retained henabled now hclock.2) hclock.2 (Nat.le_refl _)
        requestId response
      rw [DedupIndex.length_toCache]
      exact h.wellFormed.size_le

theorem run_dedupStep (cfg : DedupConfig) (calls : List DedupCall) :
    ∃ c, run (dedupStep cfg) .empty calls = some c ∧ CacheInv cfg calls.reverse c := by
  induction calls using List.reverseRecOn with
  | nil =>
    exact ⟨.empty, rfl, DedupIndex.wellFormed_empty cfg, fun _ => nofun,
      fun _ clock _ => retained_nil cfg clock⟩
  | append_singleton calls call ih =>
    obtain ⟨c, hrun, hinv⟩ := ih
    obtain ⟨c', hstep, hinv'⟩ := hinv.step call
    refine ⟨c', ?_, ?_⟩
    · rw [run_append, hrun, Option.bind_some, run_cons_of_step hstep, run_nil]
    · rw [List.reverse_append]
      exact hinv'

/-- A find returns the last response of a key that is in the list, if it has not expired. -/
theorem CacheInv.find_eq_some_iff {c : DedupIndex} (h : CacheInv cfg history c) :
    (c.find cfg now key).1 = some r ↔
      cfg.enabled = true ∧ ∃ t, lastStored key history = some (t, r) ∧ now < t + cfg.ttlMs ∧
        key ∈ c.toCache.order := by
  obtain ⟨-, hfind, -⟩ := DedupIndex.find_toCache h.wellFormed now key
  have hmatched := matched_toCache h.wellFormed.linked
  by_cases henabled : cfg.enabled = true
  · rw [hfind, DedupCache.find_eq_some_iff henabled]
    constructor
    · rintro ⟨e, he, hlive, rfl⟩
      obtain ⟨t, hlast, hexpires⟩ := h.remembers henabled key e he
      refine ⟨henabled, t, hlast, by omega, (hmatched.mem_order_iff key).mpr ?_⟩
      exact LinkedMap.isSome_lookup_iff.mp (Option.isSome_iff_exists.mpr ⟨e, he⟩)
    · rintro ⟨-, t, hlast, hlive, hmem⟩
      obtain ⟨e, he⟩ := hmatched.exists_lookup hmem
      obtain ⟨t', hlast', hexpires⟩ := h.remembers henabled key e he
      rw [hlast] at hlast'
      cases hlast'
      exact ⟨e, he, by omega, rfl⟩
  · rw [DedupIndex.find, if_pos (Bool.eq_false_iff.mpr henabled)]
    exact ⟨nofun, fun hboth => absurd hboth.1 henabled⟩

/-- Of the responses that have not expired, those are in the list that had fewer than
`max_entries` other keys stored after them. -/
theorem CacheInv.mem_order_iff {c : DedupIndex} (h : CacheInv cfg history c)
    (henabled : cfg.enabled = true) (hreadings : ReadingsUpTo now history)
    (hlast : lastStored key history = some (t, r)) (hlive : now < t + cfg.ttlMs) :
    key ∈ c.toCache.order ↔
      (cfg.maxEntries ≠ 0 → (storedSince key history).dedup.length < cfg.maxEntries) := by
  have hretained := h.retained henabled now hreadings
  have hmatched := matched_toCache h.wellFormed.linked
  constructor
  · intro hmem hmax
    have hsub : key :: (storedSince key history).dedup ⊆ c.toCache.order :=
      List.cons_subset.mpr ⟨hmem, fun j hj =>
        hretained.kept key t r hlast hmem hlive j (List.mem_dedup.mp hj)⟩
    have hnodup : (key :: (storedSince key history).dedup).Nodup :=
      List.nodup_cons.mpr ⟨fun hself =>
        notMem_storedSince_self key history (List.mem_dedup.mp hself), List.nodup_dedup _⟩
    have hcount := (List.subperm_of_subset hnodup hsub).length_le
    rw [List.length_cons, hmatched.length_order, DedupIndex.length_toCache] at hcount
    have hsize := h.wellFormed.size_le hmax
    omega
  · intro hfew
    by_contra hmissing
    rcases hretained.gone key t r hlast hmissing with hexpired | ⟨hmax, hmany⟩
    · omega
    · have hlt := hfew hmax
      omega

/-- **The dedup cache.**  Whatever is called: every call ends; the map has the keys of the
list, each once and with an iterator to it, and not more of them than the capacity; a find
returns the last response that was stored under its key, and only while it has not expired.
If the clock readings do not go back, it returns it exactly as long as it has not expired and
fewer than `max_entries` distinct other keys were stored after it. -/
theorem dedup_cache_correct (cfg : DedupConfig) (calls : List DedupCall) :
    ∃ c, run (dedupStep cfg) .empty calls = some c ∧ c.WellFormed cfg ∧
      c.order.values.Nodup ∧ (∀ key, key ∈ c.order.values ↔ key ∈ c.entries.map Prod.fst) ∧
      (∀ now key response, (c.find cfg now key).1 = some response →
        ∃ t, lastStored key calls.reverse = some (t, response) ∧ now < t + cfg.ttlMs) ∧
      ∀ now, ReadingsUpTo now calls.reverse → ∀ key response,
        ((c.find cfg now key).1 = some response ↔
          cfg.enabled = true ∧ ∃ t, lastStored key calls.reverse = some (t, response) ∧
            now < t + cfg.ttlMs ∧
            (cfg.maxEntries ≠ 0 →
              (storedSince key calls.reverse).dedup.length < cfg.maxEntries)) := by
  obtain ⟨c, hrun, hinv⟩ := run_dedupStep cfg calls
  have hlinked := hinv.wellFormed.linked
  refine ⟨c, hrun, hinv.wellFormed, hlinked.values_nodup, fun _ => hlinked.mem_values_iff, ?_, ?_⟩
  · intro now key response hfind
    obtain ⟨-, t, hlast, hlive, -⟩ := hinv.find_eq_some_iff.mp hfind
    exact ⟨t, hlast, hlive⟩
  · intro now hreadings key response
    rw [hinv.find_eq_some_iff]
    constructor
    · rintro ⟨henabled, t, hlast, hlive, hmem⟩
      exact ⟨henabled, t, hlast, hlive,
        (hinv.mem_order_iff henabled hreadings hlast hlive).mp hmem⟩
    · rintro ⟨henabled, t, hlast, hlive, hfew⟩
      exact ⟨henabled, t, hlast, hlive,
        (hinv.mem_order_iff henabled hreadings hlast hlive).mpr hfew⟩

end Worker
end HttpDataDiod
