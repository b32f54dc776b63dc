import HttpDataDiod.Lib.ByteText
import HttpDataDiod.Lib.LinkedMap
import HttpDataDiod.Proxy.RateLimiter

/-!
# The limiters of the clients

`PerIPRateLimiter` gives every client IP a token bucket of its own.  The limiters are in a
hash map, with the IPs in a list from the one seen longest ago to the one seen last.  A full
map drops the limiter at the front of the list, and a background thread drops those that
were not used for a while; a call that already holds its limiter goes on with it.

* `getOrCreateLimiter`, `doCleanupExpired`, `evictOldestIps`, `recordRejection`: the locked
  sections.
* `IpPhase`, `perIpStep`: the calls of `acquire`, one locked section or one step of the token
  bucket at a time.
* `CacheWellFormed`: the map and the list are in bijection through the iterators, the list is
  in the order of `last_seen`, and the capacity is kept.
* `perIp_consistent`: this holds in every run, a limiter is always found, and the counters
  add up.
-/

namespace HttpDataDiod
namespace Proxy

open ByteText LinkedMap Transition

/-! ## The locked sections -/

/-- `PerIPRateLimiter::Config` of a validated configuration. -/
structure PerIpConfig where
  bucket : RateLimiterConfig
  maxIps : ℕ
  cleanupIntervalSeconds : ℕ
  maxIps_pos : 0 < maxIps
  maxIps_lt : maxIps < 2147483648

/-- `IPEntry`.  The limiter is the place of its object in memory, the time is in
nanoseconds. -/
structure IpEntry where
  limiter : ℕ
  lastSeen : ℕ
  lruIt : ℕ
  requests : UInt64
  rejected : UInt64
  deriving DecidableEq

/-- The entry of an IP that was seen again. -/
def IpEntry.seenAgain (now : ℕ) (e : IpEntry) : IpEntry :=
  { e with lastSeen := now, requests := e.requests + 1 }

/-- The entry with one more rejection. -/
def IpEntry.countRejection (e : IpEntry) : IpEntry := { e with rejected := e.rejected + 1 }

/-- `IpCache`. -/
structure IpCache where
  ipEntries : List (Bytes × IpEntry)
  lruList : NodeList Bytes

/-- The limiter: the cache, the objects its entries point at, and the counters. -/
structure PerIpRateLimiter where
  cache : IpCache
  limiters : ℕ → RateLimiter
  nextLimiter : ℕ
  counters : RateLimiterCounters
  uniqueIps : UInt64
  evictions : UInt64

/-- A new limiter tracks no IP. -/
def PerIpRateLimiter.new (cfg : PerIpConfig) : PerIpRateLimiter where
  cache := { ipEntries := [], lruList := .empty }
  limiters := fun _ => .new cfg.bucket 0
  nextLimiter := 0
  counters := ⟨0, 0, 0⟩
  uniqueIps := 0
  evictions := 0

namespace IpCache

/-- An entry leaves the map, and its node the list. -/
def drop (c : IpCache) (ip : Bytes) (e : IpEntry) : IpCache :=
  { ipEntries := eraseKey c.ipEntries ip, lruList := c.lruList.erase e.lruIt }

/-- The loop of `evict_oldest_ips`, with the number of entries removed. -/
def evictOldest : ℕ → IpCache → ℕ × IpCache
  | 0, c => (0, c)
  | count + 1, c =>
    match c.lruList.front? with
    | none => (0, c)
    | some ip =>
      let r := evictOldest count
        { ipEntries := eraseKey c.ipEntries ip, lruList := c.lruList.popFront }
      (r.1 + 1, r.2)

/-- The age of an entry in whole seconds has reached `m_cleanup_interval_seconds`. -/
def expired (cfg : PerIpConfig) (now : ℕ) (e : IpEntry) : Bool :=
  decide (cfg.cleanupIntervalSeconds ≤ (now - e.lastSeen) / nsPerSecond)

/-- The loop of `do_cleanup_expired`, over the entries of the map. -/
def sweep (cfg : PerIpConfig) (now : ℕ) : List (Bytes × IpEntry) → ℕ × IpCache → ℕ × IpCache
  | [], r => r
  | (ip, e) :: rest, r =>
    if expired cfg now e then sweep cfg now rest (r.1 + 1, r.2.drop ip e)
    else sweep cfg now rest r

end IpCache

namespace PerIpRateLimiter

/-- `evict_oldest_ips`. -/
def evictOldestIps (count : ℕ) (s : PerIpRateLimiter) : PerIpRateLimiter :=
  let r := s.cache.evictOldest count
  { s with cache := r.2, evictions := s.evictions + UInt64.ofNat r.1 }

/-- `do_cleanup_expired`, which `cleanup_expired_ips` calls under the lock. -/
def doCleanupExpired (cfg : PerIpConfig) (now : ℕ) (s : PerIpRateLimiter) : PerIpRateLimiter :=
  let r := IpCache.sweep cfg now s.cache.ipEntries (0, s.cache)
  { s with cache := r.2, evictions := s.evictions + UInt64.ofNat r.1 }

/-- `record_rejection`. -/
def recordRejection (ip : Bytes) (s : PerIpRateLimiter) : PerIpRateLimiter :=
  { s with cache := { s.cache with
      ipEntries := modify s.cache.ipEntries ip IpEntry.countRejection } }

/-- An IP that is tracked was seen again. -/
def touch (now : ℕ) (ip : Bytes) (e : IpEntry) (s : PerIpRateLimiter) : PerIpRateLimiter :=
  { s with cache :=
      { ipEntries := modify s.cache.ipEntries ip (IpEntry.seenAgain now)
        lruList := s.cache.lruList.moveToBack e.lruIt } }

/-- The entry of a new IP, with its first request counted. -/
def newEntry (now : ℕ) (s : PerIpRateLimiter) : IpEntry where
  limiter := s.nextLimiter
  lastSeen := now
  lruIt := s.cache.lruList.next
  requests := 1
  rejected := 0

/-- A new IP, with a new limiter. -/
def create (cfg : PerIpConfig) (now : ℕ) (ip : Bytes) (s : PerIpRateLimiter) : PerIpRateLimiter :=
  { s with
    cache :=
      { ipEntries := (ip, s.newEntry now) :: s.cache.ipEntries
        lruList := s.cache.lruList.pushBack ip }
    limiters := Function.update s.limiters s.nextLimiter (.new cfg.bucket now)
    nextLimiter := s.nextLimiter + 1
    uniqueIps := s.uniqueIps + 1 }

/-- `get_or_create_limiter`. -/
def getOrCreateLimiter (cfg : PerIpConfig) (now : ℕ) (ip : Bytes) (s : PerIpRateLimiter) :
    Option ℕ × PerIpRateLimiter :=
  match lookup s.cache.ipEntries ip with
  | some e => (some e.limiter, s.touch now ip e)
  | none =>
    if cfg.maxIps ≤ s.cache.ipEntries.length then
      let s := s.evictOldestIps 1
      if cfg.maxIps ≤ s.cache.ipEntries.length then (none, s)
      else (some s.nextLimiter, s.create cfg now ip)
    else (some s.nextLimiter, s.create cfg now ip)

/-- The end of `acquire`, behind the token bucket. -/
def countOutcome (ip : Bytes) (allowed : Bool) (s : PerIpRateLimiter) : Bool × PerIpRateLimiter :=
  if allowed then (true, { s with counters := s.counters.countAllowed })
  else (false, recordRejection ip { s with counters := s.counters.countRejected })

/-- `acquire`, when no other thread uses the limiter during the call. -/
def acquire (cfg : PerIpConfig) (now : ℕ) (ip : Bytes) (s : PerIpRateLimiter) :
    Bool × PerIpRateLimiter :=
  match getOrCreateLimiter cfg now ip { s with counters := s.counters.countRequest } with
  | (none, s) => (false, { s with counters := s.counters.countRejected })
  | (some limiter, s) =>
    let r := (s.limiters limiter).acquire cfg.bucket now
    countOutcome ip r.1 { s with limiters := Function.update s.limiters limiter r.2 }

end PerIpRateLimiter

/-! ## The calls of many threads -/

/-- Where a call of `acquire` stands. -/
inductive IpPhase where
  /-- Before `count_request`. -/
  | called
  /-- Before `get_or_create_limiter`. -/
  | counted
  /-- There is no limiter, before `count_rejected`. -/
  | noLimiter
  /-- Inside of `acquire` of the limiter, or behind it and before the outcome is counted. -/
  | acquiring (limiter : ℕ) (phase : AcquirePhase)
  /-- Before `record_rejection`. -/
  | rejected
  | returned (allowed : Bool)

/-- A call. -/
structure IpCall where
  ip : Bytes
  phase : IpPhase

/-- The limiter, the clock, and the calls so far. -/
structure PerIpState where
  clock : ℕ
  limiter : PerIpRateLimiter
  calls : List IpCall

/-- The clock moves on, a client calls, a call makes its next step, or the background thread
cleans up. -/
inductive PerIpEvent where
  | tick (ns : ℕ)
  | call (ip : Bytes)
  | next (i : ℕ) (spurious : Bool)
  | cleanup

/-- The next step of a call. -/
def ipNext (cfg : PerIpConfig) (now : ℕ) (spurious : Bool) (ip : Bytes) (s : PerIpRateLimiter) :
    IpPhase → Option (IpPhase × PerIpRateLimiter)
  | .called => some (.counted, { s with counters := s.counters.countRequest })
  | .counted =>
    match s.getOrCreateLimiter cfg now ip with
    | (none, s) => some (.noLimiter, s)
    | (some limiter, s) => some (.acquiring limiter .called, s)
  | .noLimiter => some (.returned false, { s with counters := s.counters.countRejected })
  | .acquiring _ (.returned allowed) =>
    if allowed then some (.returned true, { s with counters := s.counters.countAllowed })
    else some (.rejected, { s with counters := s.counters.countRejected })
  | .acquiring limiter phase =>
    (acquireNext cfg.bucket now spurious (s.limiters limiter) phase).map fun r =>
      (.acquiring limiter r.1, { s with limiters := Function.update s.limiters limiter r.2 })
  | .rejected => some (.returned false, s.recordRejection ip)
  | .returned _ => none

/-- One step. -/
def perIpStep (cfg : PerIpConfig) (s : PerIpState) : PerIpEvent → Option PerIpState
  | .tick ns => some { s with clock := s.clock + ns }
  | .call ip => some { s with calls := s.calls ++ [⟨ip, .called⟩] }
  | .next i spurious =>
    (s.calls[i]?).bind fun call =>
      (ipNext cfg s.clock spurious call.ip s.limiter call.phase).map fun r =>
        { s with limiter := r.2, calls := s.calls.set i { call with phase := r.1 } }
  | .cleanup => some { s with limiter := s.limiter.doCleanupExpired cfg s.clock }

/-- A new limiter, and nobody calls it. -/
def initialPerIp (cfg : PerIpConfig) (origin : ℕ) : PerIpState where
  clock := origin
  limiter := .new cfg
  calls := []

/-! ## The cache -/

/-- The IPs of the list were seen in this order. -/
def SeenInOrder (entries : List (Bytes × IpEntry)) (order : List Bytes) : Prop :=
  order.Pairwise fun ip ip' => ∀ e e', (ip, e) ∈ entries → (ip', e') ∈ entries →
    e.lastSeen ≤ e'.lastSeen

/-- The map and the list are in bijection through the iterators, the list is in the order of
`last_seen`, which is not in the future, and the capacity is kept. -/
structure CacheWellFormed (cfg : PerIpConfig) (clock : ℕ) (c : IpCache) : Prop where
  linked : Linked IpEntry.lruIt c.ipEntries c.lruList
  seen : SeenInOrder c.ipEntries c.lruList.values
  seen_le : ∀ ip e, (ip, e) ∈ c.ipEntries → e.lastSeen ≤ clock
  size_le : c.ipEntries.length ≤ cfg.maxIps

variable {cfg : PerIpConfig} {clock now : ℕ} {ip : Bytes} {e : IpEntry} {c c' : IpCache}

theorem SeenInOrder.mono {entries entries' : List (Bytes × IpEntry)} {order order' : List Bytes}
    (h : SeenInOrder entries order) (hentries : entries' ⊆ entries)
    (horder : order'.Sublist order) : SeenInOrder entries' order' :=
  (h.sublist horder).imp fun hle e e' he he' => hle e e' (hentries he) (hentries he')

/-- The IP that was seen last comes last. -/
theorem SeenInOrder.snoc {entries entries' : List (Bytes × IpEntry)} {order : List Bytes}
    (h : SeenInOrder entries order) (hip : ip ∉ order)
    (hentries : ∀ k e, (k, e) ∈ entries' → k ≠ ip → (k, e) ∈ entries)
    (hlast : ∀ k e e', (k, e) ∈ entries → (ip, e') ∈ entries' → e.lastSeen ≤ e'.lastSeen) :
    SeenInOrder entries' (order ++ [ip]) := by
  have hne : ∀ k ∈ order, k ≠ ip := by
    rintro k hk rfl
    exact hip hk
  refine List.pairwise_append.mpr ⟨?_, List.pairwise_singleton _ _, ?_⟩
  · refine h.imp_of_mem fun hk hk' hle e e' he he' => ?_
    exact hle e e' (hentries _ _ he (hne _ hk)) (hentries _ _ he' (hne _ hk'))
  · intro k hk k' hk' e e' he he'
    obtain rfl := List.mem_singleton.mp hk'
    exact hlast k e e' (hentries k e he (hne k hk)) he'

theorem cacheWellFormed_empty (cfg : PerIpConfig) (clock : ℕ) :
    CacheWellFormed cfg clock { ipEntries := [], lruList := .empty } where
  linked := linked_empty _
  seen := List.Pairwise.nil
  seen_le := nofun
  size_le := Nat.zero_le _

theorem CacheWellFormed.later (h : CacheWellFormed cfg clock c) (hclock : clock ≤ now) :
    CacheWellFormed cfg now c :=
  { h with seen_le := fun ip e he => Nat.le_trans (h.seen_le ip e he) hclock }

/-- Entries may leave the map, if their nodes leave the list. -/
theorem CacheWellFormed.shrink (h : CacheWellFormed cfg clock c)
    (hlinked : Linked IpEntry.lruIt c'.ipEntries c'.lruList)
    (hentries : c'.ipEntries.Sublist c.ipEntries)
    (horder : c'.lruList.values.Sublist c.lruList.values) :
    CacheWellFormed cfg clock c' where
  linked := hlinked
  seen := h.seen.mono hentries.subset horder
  seen_le := fun ip e he => h.seen_le ip e (hentries.subset he)
  size_le := Nat.le_trans hentries.length_le h.size_le

theorem sublist_values_erase (l : NodeList Bytes) (i : ℕ) : (l.erase i).values.Sublist l.values :=
  List.filter_sublist.map _

/-- The loop of the LRU eviction removes as many entries as it counts. -/
theorem evictOldest_spec (h : CacheWellFormed cfg clock c) (count : ℕ) :
    CacheWellFormed cfg clock (c.evictOldest count).2 ∧
      (c.evictOldest count).2.ipEntries.Sublist c.ipEntries ∧
      (c.evictOldest count).1 + (c.evictOldest count).2.ipEntries.length = c.ipEntries.length := by
  induction count generalizing c with
  | zero => exact ⟨h, List.Sublist.refl _, Nat.zero_add _⟩
  | succ count ih =>
    rw [IpCache.evictOldest]
    cases hfront : c.lruList.front? with
    | none => exact ⟨h, List.Sublist.refl _, Nat.zero_add _⟩
    | some ip =>
      have hmem : ip ∈ c.ipEntries.map Prod.fst :=
        h.linked.mem_values_iff.mp (List.mem_of_mem_head? hfront)
      have hlength := length_eraseKey h.linked.keys_nodup hmem
      have hpopped : CacheWellFormed cfg clock
          { ipEntries := eraseKey c.ipEntries ip, lruList := c.lruList.popFront } :=
        h.shrink (h.linked.popFront hfront) List.filter_sublist
          (by rw [NodeList.values_popFront]; exact List.tail_sublist _)
      obtain ⟨hwell, hsub, hcount⟩ := ih hpopped
      refine ⟨hwell, hsub.trans List.filter_sublist, ?_⟩
      simp only at hcount ⊢
      omega

/-- The loop of the cleanup removes the expired entries, and counts them. -/
theorem sweep_spec (now removed : ℕ) {rest : List (Bytes × IpEntry)}
    (h : CacheWellFormed cfg clock c) (hnodup : (rest.map Prod.fst).Nodup)
    (hrest : rest ⊆ c.ipEntries) :
    CacheWellFormed cfg clock (IpCache.sweep cfg now rest (removed, c)).2 ∧
      (IpCache.sweep cfg now rest (removed, c)).1 +
          (IpCache.sweep cfg now rest (removed, c)).2.ipEntries.length =
        removed + c.ipEntries.length ∧
      ∀ x, x ∈ (IpCache.sweep cfg now rest (removed, c)).2.ipEntries ↔
        x ∈ c.ipEntries ∧ (x ∈ rest → IpCache.expired cfg now x.2 = false) := by
  induction rest generalizing c removed with
  | nil => exact ⟨h, rfl, fun x => ⟨fun hx => ⟨hx, nofun⟩, fun hx => hx.1⟩⟩
  | cons x rest ih =>
    obtain ⟨ip, e⟩ := x
    obtain ⟨hip, hnodup⟩ := List.nodup_cons.mp hnodup
    obtain ⟨he, hrest⟩ := List.cons_subset.mp hrest
    rw [IpCache.sweep]
    split
    · rename_i hexpired
      have hdropped : CacheWellFormed cfg clock (c.drop ip e) :=
        h.shrink (h.linked.erase he) List.filter_sublist (sublist_values_erase _ _)
      have hlength : (eraseKey c.ipEntries ip).length + 1 = c.ipEntries.length :=
        length_eraseKey h.linked.keys_nodup (List.mem_map_of_mem (f := Prod.fst) he)
      have hrest' : rest ⊆ (c.drop ip e).ipEntries := by
        intro y hy
        refine mem_eraseKey.mpr ⟨hrest hy, fun heq => hip ?_⟩
        rw [show (ip, e).1 = y.1 from heq.symm]
        exact List.mem_map_of_mem hy
      obtain ⟨hwell, hcount, hmem⟩ := ih (removed + 1) hdropped hnodup hrest'
      refine ⟨hwell, ?_, fun y => ?_⟩
      · rw [hcount]
        show removed + 1 + (eraseKey c.ipEntries ip).length = _
        omega
      · have hsame : y ∈ c.ipEntries → y.1 = ip → y = (ip, e) := fun hy heq =>
          List.inj_on_of_nodup_map h.linked.keys_nodup hy he heq
        rw [hmem y, List.mem_cons]
        constructor
        · rintro ⟨hy, hkeep⟩
          obtain ⟨hy, hne⟩ := mem_eraseKey.mp hy
          refine ⟨hy, ?_⟩
          rintro (rfl | hmem)
          · exact absurd rfl hne
          · exact hkeep hmem
        · rintro ⟨hy, hkeep⟩
          refine ⟨mem_eraseKey.mpr ⟨hy, fun heq => ?_⟩, fun hmem => hkeep (.inr hmem)⟩
          obtain rfl := hsame hy heq
          exact absurd hexpired (Bool.eq_false_iff.mp (hkeep (.inl rfl)))
    · rename_i hlive
      obtain ⟨hwell, hcount, hmem⟩ := ih removed h hnodup hrest
      refine ⟨hwell, hcount, fun y => ?_⟩
      rw [hmem y, List.mem_cons]
      constructor
      · rintro ⟨hy, hkeep⟩
        refine ⟨hy, ?_⟩
        rintro (rfl | hmem)
        · exact Bool.eq_false_iff.mpr hlive
        · exact hkeep hmem
      · rintro ⟨hy, hkeep⟩
        exact ⟨hy, fun hmem => hkeep (.inr hmem)⟩

/-! ## The operations keep the cache well formed -/

/-- An entry that is seen now goes to the end of the list. -/
theorem CacheWellFormed.touch {f : IpEntry → IpEntry} (h : CacheWellFormed cfg clock c)
    (he : (ip, e) ∈ c.ipEntries) (hit : ∀ e, (f e).lruIt = e.lruIt)
    (hseen : ∀ e, (f e).lastSeen = clock) :
    CacheWellFormed cfg clock
      { ipEntries := LinkedMap.modify c.ipEntries ip f
        lruList := c.lruList.moveToBack e.lruIt } := by
  have hold : ∀ k x, (k, x) ∈ LinkedMap.modify c.ipEntries ip f →
      ((k, x) ∈ c.ipEntries ∧ k ≠ ip) ∨ (k = ip ∧ x.lastSeen = clock) := by
    intro k x hx
    rcases mem_modify.mp hx with hx | ⟨value, hvalue, heq⟩
    · exact .inl hx
    · obtain ⟨rfl, rfl⟩ := Prod.mk.inj heq
      exact .inr ⟨rfl, hseen value⟩
  exact
    { linked := (h.linked.modify ip hit).touch e.lruIt
      seen := by
        rw [h.linked.values_moveToBack he]
        refine SeenInOrder.snoc (h.seen.mono (List.Subset.refl _) List.filter_sublist) ?_ ?_ ?_
        · simp
        · intro k x hx hne
          rcases hold k x hx with ⟨hx, -⟩ | ⟨heq, -⟩
          · exact hx
          · exact absurd heq hne
        · intro k x x' hx hx'
          rcases hold ip x' hx' with ⟨-, hne⟩ | ⟨-, heq⟩
          · exact absurd rfl hne
          · rw [heq]
            exact h.seen_le k x hx
      seen_le := fun k x hx => by
        rcases hold k x hx with ⟨hx, -⟩ | ⟨-, heq⟩
        · exact h.seen_le k x hx
        · rw [heq]
      size_le := by
        rw [length_modify]
        exact h.size_le }

/-- A change of an entry that leaves its time and its iterator. -/
theorem CacheWellFormed.modify {f : IpEntry → IpEntry} (h : CacheWellFormed cfg clock c)
    (ip : Bytes) (hit : ∀ e, (f e).lruIt = e.lruIt) (hseen : ∀ e, (f e).lastSeen = e.lastSeen) :
    CacheWellFormed cfg clock { c with ipEntries := LinkedMap.modify c.ipEntries ip f } := by
  have hold : ∀ k x, (k, x) ∈ LinkedMap.modify c.ipEntries ip f →
      ∃ x', (k, x') ∈ c.ipEntries ∧ x.lastSeen = x'.lastSeen := by
    intro k x hx
    rcases mem_modify.mp hx with ⟨hx, -⟩ | ⟨value, hvalue, heq⟩
    · exact ⟨x, hx, rfl⟩
    · obtain ⟨rfl, rfl⟩ := Prod.mk.inj heq
      exact ⟨value, hvalue, hseen value⟩
  exact
    { linked := h.linked.modify ip hit
      seen := h.seen.imp fun hle x x' hx hx' => by
        obtain ⟨y, hy, heq⟩ := hold _ x hx
        obtain ⟨y', hy', heq'⟩ := hold _ x' hx'
        rw [heq, heq']
        exact hle y y' hy hy'
      seen_le := fun k x hx => by
        obtain ⟨y, hy, heq⟩ := hold k x hx
        rw [heq]
        exact h.seen_le k y hy
      size_le := by
        rw [length_modify]
        exact h.size_le }

theorem CacheWellFormed.create (h : CacheWellFormed cfg clock c)
    (hnew : lookup c.ipEntries ip = none) (hroom : c.ipEntries.length < cfg.maxIps)
    (hit : e.lruIt = c.lruList.next) (hseen : e.lastSeen = clock) :
    CacheWellFormed cfg clock
      { ipEntries := (ip, e) :: c.ipEntries, lruList := c.lruList.pushBack ip } where
  linked := h.linked.insert (lookup_eq_none_iff.mp hnew) hit
  seen := by
    have hkey := lookup_eq_none_iff.mp hnew
    rw [NodeList.values_pushBack]
    refine h.seen.snoc (fun hmem => hkey (h.linked.mem_values_iff.mp hmem)) ?_ ?_
    · intro k x hx hne
      rcases List.mem_cons.mp hx with heq | hx
      · exact absurd (congrArg Prod.fst heq) hne
      · exact hx
    · intro k x x' hx hx'
      rcases List.mem_cons.mp hx' with heq | hx'
      · obtain ⟨-, rfl⟩ := Prod.mk.inj heq
        rw [hseen]
        exact h.seen_le k x hx
      · exact absurd (List.mem_map_of_mem (f := Prod.fst) hx') hkey
  seen_le := by
    intro k x hx
    rcases List.mem_cons.mp hx with heq | hx
    · obtain ⟨-, rfl⟩ := Prod.mk.inj heq
      exact Nat.le_of_eq hseen
    · exact h.seen_le k x hx
  size_le := hroom

/-! ## The locked sections keep the account of the entries -/

/-- The entries are those that were ever made, without those that were evicted. -/
def Tracked (s : PerIpRateLimiter) : Prop :=
  s.uniqueIps = s.evictions + UInt64.ofNat s.cache.ipEntries.length

variable {s s' : PerIpRateLimiter}

theorem Tracked.of_length (h : Tracked s) (hunique : s'.uniqueIps = s.uniqueIps)
    (hevictions : s'.evictions = s.evictions)
    (hlength : s'.cache.ipEntries.length = s.cache.ipEntries.length) : Tracked s' := by
  rw [Tracked, hunique, hevictions, hlength]
  exact h

/-- Entries that leave the map are counted as evictions. -/
theorem Tracked.evict {removed : ℕ} (h : Tracked s)
    (hcount : removed + c.ipEntries.length = s.cache.ipEntries.length) :
    Tracked { s with cache := c, evictions := s.evictions + UInt64.ofNat removed } := by
  show s.uniqueIps = s.evictions + UInt64.ofNat removed + UInt64.ofNat c.ipEntries.length
  rw [UInt64.add_assoc, ← UInt64.ofNat_add, hcount]
  exact h

theorem Tracked.create (h : Tracked s) (cfg : PerIpConfig) (now : ℕ) (ip : Bytes) :
    Tracked (s.create cfg now ip) := by
  show s.uniqueIps + 1 = s.evictions + UInt64.ofNat (s.cache.ipEntries.length + 1)
  rw [UInt64.ofNat_add, ← UInt64.add_assoc, ← h]
  rfl

/-- An eviction from a full cache makes room. -/
theorem length_evictOldest_one (h : CacheWellFormed cfg clock c)
    (hfull : cfg.maxIps ≤ c.ipEntries.length) :
    (c.evictOldest 1).2.ipEntries.length < cfg.maxIps := by
  have hcount := (evictOldest_spec h 1).2.2
  have hsize := h.size_le
  have hpos := cfg.maxIps_pos
  have hone : (c.evictOldest 1).1 = 1 := by
    cases hvalues : c.lruList.values with
    | nil =>
      have hlength := h.linked.length_values
      rw [hvalues, List.length_nil] at hlength
      omega
    | cons ip rest =>
      rw [IpCache.evictOldest, NodeList.front?, hvalues]
      rfl
  omega

/-- **`get_or_create_limiter`** never returns null, and keeps the cache. -/
theorem getOrCreateLimiter_spec (hcache : CacheWellFormed cfg now s.cache) (htracked : Tracked s)
    (ip : Bytes) :
    ∃ limiter s', s.getOrCreateLimiter cfg now ip = (some limiter, s') ∧
      CacheWellFormed cfg now s'.cache ∧ Tracked s' ∧ s'.counters = s.counters := by
  rw [PerIpRateLimiter.getOrCreateLimiter]
  cases hlookup : lookup s.cache.ipEntries ip with
  | some e =>
    refine ⟨e.limiter, s.touch now ip e, rfl, ?_, ?_, rfl⟩
    · exact hcache.touch (mem_of_lookup hlookup) (fun _ => rfl) fun _ => rfl
    · refine htracked.of_length rfl rfl ?_
      rw [PerIpRateLimiter.touch, length_modify]
  | none =>
    by_cases hfull : cfg.maxIps ≤ s.cache.ipEntries.length
    · obtain ⟨hwell, hsub, hcount⟩ := evictOldest_spec hcache 1
      have hroom := length_evictOldest_one hcache hfull
      have hnone : lookup (s.cache.evictOldest 1).2.ipEntries ip = none :=
        lookup_eq_none_iff.mpr fun hmem =>
          lookup_eq_none_iff.mp hlookup ((hsub.map Prod.fst).subset hmem)
      have htracked₁ : Tracked (s.evictOldestIps 1) := htracked.evict hcount
      refine ⟨(s.evictOldestIps 1).nextLimiter, (s.evictOldestIps 1).create cfg now ip, ?_,
        hwell.create hnone hroom rfl rfl, htracked₁.create cfg now ip, rfl⟩
      rw [if_pos hfull]
      exact if_neg (Nat.not_le.mpr hroom)
    · refine ⟨s.nextLimiter, s.create cfg now ip, ?_,
        hcache.create hlookup (Nat.not_le.mp hfull) rfl rfl, htracked.create cfg now ip, rfl⟩
      exact if_neg hfull

theorem cleanup_spec (hcache : CacheWellFormed cfg clock s.cache) (htracked : Tracked s) (now : ℕ) :
    CacheWellFormed cfg clock (s.doCleanupExpired cfg now).cache ∧
      Tracked (s.doCleanupExpired cfg now) := by
  obtain ⟨hwell, hcount, -⟩ := sweep_spec now 0 hcache hcache.linked.keys_nodup
    (List.Subset.refl _)
  rw [Nat.zero_add] at hcount
  exact ⟨hwell, htracked.evict hcount⟩

/-! ## Whole runs -/

/-- The call has been counted as a request, and its outcome has not. -/
def IpPhase.owed : IpPhase → Bool
  | .counted | .noLimiter | .acquiring _ _ => true
  | .called | .rejected | .returned _ => false

/-- The requests without an outcome. -/
def balance (c : RateLimiterCounters) : UInt64 :=
  c.totalRequests - c.allowedRequests - c.rejectedRequests

theorem balance_countRequest (c : RateLimiterCounters) :
    balance c.countRequest = balance c + 1 := by
  show c.totalRequests + 1 - c.allowedRequests - c.rejectedRequests =
    c.totalRequests - c.allowedRequests - c.rejectedRequests + 1
  grind

theorem balance_countAllowed (c : RateLimiterCounters) :
    balance c.countAllowed + 1 = balance c := by
  show c.totalRequests - (c.allowedRequests + 1) - c.rejectedRequests + 1 =
    c.totalRequests - c.allowedRequests - c.rejectedRequests
  grind

theorem balance_countRejected (c : RateLimiterCounters) :
    balance c.countRejected + 1 = balance c := by
  show c.totalRequests - c.allowedRequests - (c.rejectedRequests + 1) + 1 =
    c.totalRequests - c.allowedRequests - c.rejectedRequests
  grind

theorem eq_add_of_balance {c : RateLimiterCounters} (h : balance c = 0) :
    c.totalRequests = c.allowedRequests + c.rejectedRequests := by
  unfold balance at h
  grind

/-- Inside of the token bucket only the bucket changes; behind it the outcome is counted. -/
theorem ipNext_acquiring {spurious : Bool} {limiter : ℕ} {phase : AcquirePhase}
    {phase' : IpPhase}
    (h : ipNext cfg now spurious ip s (.acquiring limiter phase) = some (phase', s')) :
    (∃ phase'' l, phase' = .acquiring limiter phase'' ∧
      s' = { s with limiters := Function.update s.limiters limiter l }) ∨
    (phase' = .returned true ∧ s' = { s with counters := s.counters.countAllowed }) ∨
    (phase' = .rejected ∧ s' = { s with counters := s.counters.countRejected }) := by
  by_cases hreturned : ∃ allowed, phase = .returned allowed
  · obtain ⟨allowed, rfl⟩ := hreturned
    cases allowed with
    | true =>
      obtain ⟨rfl, rfl⟩ := Prod.mk.inj (Option.some.inj h)
      exact .inr (.inl ⟨rfl, rfl⟩)
    | false =>
      obtain ⟨rfl, rfl⟩ := Prod.mk.inj (Option.some.inj h)
      exact .inr (.inr ⟨rfl, rfl⟩)
  · rw [ipNext] at h
    · obtain ⟨⟨phase'', l⟩, -, heq⟩ := Option.map_eq_some_iff.mp h
      obtain ⟨rfl, rfl⟩ := Prod.mk.inj heq
      exact .inl ⟨phase'', l, rfl, rfl⟩
    · intro allowed heq
      exact hreturned ⟨allowed, heq⟩

/-- **A step of a call** keeps the cache, finds a limiter, and counts the outcome of every
request once. -/
theorem ipNext_spec {spurious : Bool} {phase phase' : IpPhase}
    (hcache : CacheWellFormed cfg now s.cache) (htracked : Tracked s) (hphase : phase ≠ .noLimiter)
    (h : ipNext cfg now spurious ip s phase = some (phase', s')) :
    CacheWellFormed cfg now s'.cache ∧ Tracked s' ∧ phase' ≠ .noLimiter ∧
      balance s'.counters + UInt64.ofNat phase.owed.toNat =
        balance s.counters + UInt64.ofNat phase'.owed.toNat := by
  cases phase with
  | called =>
    obtain ⟨rfl, rfl⟩ := Prod.mk.inj (Option.some.inj h)
    refine ⟨hcache, htracked, nofun, ?_⟩
    rw [balance_countRequest]
    exact UInt64.add_zero _
  | counted =>
    obtain ⟨limiter, s₁, hget, hwell, htracked₁, hcounters⟩ :=
      getOrCreateLimiter_spec hcache htracked ip
    rw [ipNext, hget] at h
    obtain ⟨rfl, rfl⟩ := Prod.mk.inj (Option.some.inj h)
    refine ⟨hwell, htracked₁, nofun, ?_⟩
    rw [hcounters]
    rfl
  | noLimiter => exact absurd rfl hphase
  | acquiring limiter phase =>
    rcases ipNext_acquiring h with ⟨phase'', l, rfl, rfl⟩ | ⟨rfl, rfl⟩ | ⟨rfl, rfl⟩
    · exact ⟨hcache, htracked, nofun, rfl⟩
    · refine ⟨hcache, htracked, nofun, ?_⟩
      rw [← balance_countAllowed s.counters]
      exact (UInt64.add_zero _).symm
    · refine ⟨hcache, htracked, nofun, ?_⟩
      rw [← balance_countRejected s.counters]
      exact (UInt64.add_zero _).symm
  | rejected =>
    obtain ⟨rfl, rfl⟩ := Prod.mk.inj (Option.some.inj h)
    refine ⟨hcache.modify ip (fun _ => rfl) fun _ => rfl, htracked.of_length rfl rfl ?_, nofun, rfl⟩
    rw [PerIpRateLimiter.recordRejection, length_modify]
  | returned allowed => exact absurd h nofun

/-- What every step keeps. -/
structure PerIpInv (cfg : PerIpConfig) (s : PerIpState) : Prop where
  cache : CacheWellFormed cfg s.clock s.limiter.cache
  tracked : Tracked s.limiter
  found : ∀ call ∈ s.calls, call.phase ≠ .noLimiter
  balanced : balance s.limiter.counters =
    UInt64.ofNat (s.calls.countP fun call => call.phase.owed)

theorem perIpInv_initial (cfg : PerIpConfig) (origin : ℕ) :
    PerIpInv cfg (initialPerIp cfg origin) where
  cache := cacheWellFormed_empty cfg origin
  tracked := rfl
  found := nofun
  balanced := by
    show (0 : UInt64) - 0 - 0 = 0
    rfl

theorem PerIpInv.step {s s' : PerIpState} {event : PerIpEvent} (h : PerIpInv cfg s)
    (hstep : perIpStep cfg s event = some s') : PerIpInv cfg s' := by
  cases event with
  | tick ns =>
    obtain rfl := Option.some.inj hstep
    exact { h with cache := h.cache.later (Nat.le_add_right _ _) }
  | call ip =>
    obtain rfl := Option.some.inj hstep
    refine { h with found := ?_, balanced := ?_ }
    · intro call hcall
      rcases List.mem_append.mp hcall with hcall | hcall
      · exact h.found call hcall
      · rw [List.mem_singleton.mp hcall]
        exact nofun
    · show balance s.limiter.counters = _
      rw [List.countP_append, h.balanced]
      rfl
  | next i spurious =>
    obtain ⟨call, hcall, hmap⟩ := Option.bind_eq_some_iff.mp hstep
    obtain ⟨⟨phase', limiter⟩, hnext, rfl⟩ := Option.map_eq_some_iff.mp hmap
    obtain ⟨hcache, htracked, hfound, hbalance⟩ :=
      ipNext_spec h.cache h.tracked (h.found call (List.mem_of_getElem? hcall)) hnext
    have hcount := countP_set (fun call : IpCall => call.phase.owed) hcall
      { call with phase := phase' }
    refine ⟨hcache, htracked, ?_, ?_⟩
    · intro call' hcall'
      rcases List.mem_or_eq_of_mem_set hcall' with hcall' | rfl
      · exact h.found call' hcall'
      · exact hfound
    · rw [h.balanced, ← UInt64.ofNat_add, ← hcount, UInt64.ofNat_add] at hbalance
      exact (UInt64.add_left_inj _).mp hbalance
  | cleanup =>
    obtain rfl := Option.some.inj hstep
    obtain ⟨hcache, htracked⟩ := cleanup_spec h.cache h.tracked s.clock
    exact ⟨hcache, htracked, h.found, h.balanced⟩

/-- What the limiter looks like at any time. -/
structure PerIpConsistent (cfg : PerIpConfig) (s : PerIpState) : Prop where
  /-- The keys of `m_ip_entries` and the elements of `m_lru_list`. -/
  linked : Linked IpEntry.lruIt s.limiter.cache.ipEntries s.limiter.cache.lruList
  seen : SeenInOrder s.limiter.cache.ipEntries s.limiter.cache.lruList.values
  size_le : s.limiter.cache.ipEntries.length ≤ cfg.maxIps
  /-- `get_or_create_limiter` does not return null, and did not for any call. -/
  limiter_found : ∀ ip, (s.limiter.getOrCreateLimiter cfg s.clock ip).1 ≠ none
  calls_found : ∀ call ∈ s.calls, call.phase ≠ .noLimiter
  tracked : (s.limiter.uniqueIps - s.limiter.evictions).toNat = s.limiter.cache.ipEntries.length
  /-- When no call is in progress. -/
  counted : (∀ call ∈ s.calls, ∃ allowed, call.phase = .returned allowed) →
    s.limiter.counters.totalRequests =
      s.limiter.counters.allowedRequests + s.limiter.counters.rejectedRequests

theorem PerIpInv.consistent {s : PerIpState} (h : PerIpInv cfg s) : PerIpConsistent cfg s where
  linked := h.cache.linked
  seen := h.cache.seen
  size_le := h.cache.size_le
  limiter_found := by
    intro ip
    obtain ⟨limiter, s', hget, -⟩ := getOrCreateLimiter_spec h.cache h.tracked ip
    rw [hget]
    exact nofun
  calls_found := h.found
  tracked := by
    have hlt : s.limiter.cache.ipEntries.length < 18446744073709551616 :=
      Nat.lt_of_le_of_lt h.cache.size_le (Nat.lt_trans cfg.maxIps_lt (by decide))
    have hsub : s.limiter.uniqueIps - s.limiter.evictions =
        UInt64.ofNat s.limiter.cache.ipEntries.length := by
      rw [h.tracked, UInt64.add_comm]
      exact UInt64.add_sub_cancel _ _
    rw [hsub]
    exact UInt64.toNat_ofNat_of_lt' hlt
  counted := by
    intro hreturned
    have hnone : (s.calls.countP fun call => call.phase.owed) = 0 := by
      rw [List.countP_eq_zero]
      intro call hcall
      obtain ⟨allowed, hphase⟩ := hreturned call hcall
      rw [hphase]
      exact Bool.noConfusion
    refine eq_add_of_balance ?_
    rw [h.balanced, hnone]
    rfl

/-- **The per-IP limiter**, in every run of calls, cleanups and ticks of the clock: the map
and the list are in bijection through the iterators, the list is in the order of `last_seen`,
the capacity is kept, a limiter is always found, the entries are the unique IPs without the
evictions, and the outcomes add up to the requests when no call is in progress. -/
theorem perIp_consistent (cfg : PerIpConfig) (origin : ℕ) (events : List PerIpEvent) :
    Always (perIpStep cfg) (PerIpConsistent cfg) (initialPerIp cfg origin) events :=
  always_of_step (fun _ _ _ h hstep => PerIpInv.step h hstep) (fun _ h => h.consistent)
    (perIpInv_initial cfg origin) events

end Proxy
end HttpDataDiod
