import HttpDataDiod.Proxy.PerIpRateLimiter

/-!
# The buckets of the clients

What `PerIPRateLimiter::acquire` decides for an IP depends on one thing only: the token bucket
of the limiter that the entry of the IP points at.  Calls come one after the other here.

* `bucketOf`: the bucket of an IP that is tracked.
* `evictedFor`: the IP that has to go for a new one, when the cache is full.
* `BucketsInv`: every entry has a limiter of its own, within the configured bounds.
* `acquire_buckets`: a call decides by the bucket of its IP, or by a full one for a new IP,
  and leaves the buckets of the others.
* `cleanup_buckets`: a cleanup drops buckets, and changes none.
-/

namespace HttpDataDiod
namespace Proxy

open ByteText LinkedMap

/-! ## One limiter -/

/-- The token count is within the configured bound, the last refill between the origin of
the clock and now. -/
structure RateLimiter.Fits (cfg : RateLimiterConfig) (origin now : ℕ) (l : RateLimiter) :
    Prop where
  tokens_le : l.tokens.toNat ≤ cfg.maxTokens.toNat
  origin_le : origin ≤ l.lastRefill
  last_le : l.lastRefill ≤ now

variable {bucket : RateLimiterConfig} {origin now t : ℕ} {l : RateLimiter}

theorem fits_new (bucket : RateLimiterConfig) (horigin : origin ≤ now) :
    (RateLimiter.new bucket now).Fits bucket origin now :=
  ⟨Nat.le_refl _, horigin, Nat.le_refl _⟩

/-- Within the span of the clock a refill is that of the token bucket. -/
theorem RateLimiter.Fits.bucket_refill (h : l.Fits bucket origin now)
    (hspan : now - origin < clockSpan) :
    (l.refill bucket now).bucket = TokenBucket.refill bucket.params now l.bucket := by
  have horigin := h.origin_le
  exact Proxy.bucket_refill h.tokens_le (refillExact_of_span h.tokens_le (by omega))

theorem RateLimiter.Fits.refill (h : l.Fits bucket origin now)
    (hspan : now - origin < clockSpan) : (l.refill bucket now).Fits bucket origin now := by
  have hbucket := h.bucket_refill hspan
  have htokens := congrArg TokenBucket.Bucket.tokens hbucket
  have hlast := congrArg TokenBucket.Bucket.last hbucket
  refine ⟨?_, ?_, ?_⟩
  · show (l.refill bucket now).bucket.tokens ≤ _
    rw [htokens]
    exact TokenBucket.refill_tokens_le _ _
  · show origin ≤ (l.refill bucket now).bucket.last
    rw [hlast]
    exact Nat.le_add_right_of_le h.origin_le
  · show (l.refill bucket now).bucket.last ≤ now
    rw [hlast]
    exact TokenBucket.refill_last_le h.last_le

/-- **A call** of `acquire` is a request to the token bucket. -/
theorem RateLimiter.Fits.acquire (h : l.Fits bucket origin now)
    (hspan : now - origin < clockSpan) :
    (l.acquire bucket now).1 = (TokenBucket.request bucket.params now l.bucket).1 ∧
      (l.acquire bucket now).2.bucket = (TokenBucket.request bucket.params now l.bucket).2 ∧
      (l.acquire bucket now).2.Fits bucket origin now := by
  have hcounted : ({ l with stats := l.stats.countRequest } : RateLimiter).Fits bucket origin now :=
    ⟨h.tokens_le, h.origin_le, h.last_le⟩
  have hrefill := hcounted.bucket_refill hspan
  have hfits := hcounted.refill hspan
  rw [RateLimiter.acquire, TokenBucket.request]
  rw [show ({ l with stats := l.stats.countRequest } : RateLimiter).bucket = l.bucket from rfl]
    at hrefill
  generalize RateLimiter.refill bucket now { l with stats := l.stats.countRequest } = r at *
  rw [← hrefill]
  by_cases hpos : 0 < r.tokens
  · have hpos' : 0 < r.bucket.tokens := UInt64.lt_iff_toNat_lt.mp hpos
    have htake := bucket_take hpos
    rw [if_pos hpos, if_pos hpos']
    refine ⟨rfl, htake, ?_, hfits.origin_le, hfits.last_le⟩
    show ({ r with tokens := r.tokens - 1 } : RateLimiter).bucket.tokens ≤ _
    rw [htake]
    exact Nat.le_trans (Nat.sub_le _ _) hfits.tokens_le
  · have hpos' : ¬ 0 < r.bucket.tokens := fun hlt =>
      hpos (UInt64.lt_iff_toNat_lt.mpr hlt)
    rw [if_neg hpos, if_neg hpos']
    exact ⟨rfl, rfl, hfits.tokens_le, hfits.origin_le, hfits.last_le⟩

/-! ## The limiters of all IPs -/

/-- The bucket of an IP that is tracked. -/
def bucketOf (s : PerIpRateLimiter) (ip : Bytes) : Option TokenBucket.Bucket :=
  (lookup s.cache.ipEntries ip).map fun e => (s.limiters e.limiter).bucket

/-- The IP that has to go for a new one. -/
def evictedFor (cfg : PerIpConfig) (ip : Bytes) (s : PerIpRateLimiter) : Option Bytes :=
  if (lookup s.cache.ipEntries ip).isNone ∧ cfg.maxIps ≤ s.cache.ipEntries.length then
    s.cache.lruList.front?
  else none

/-- Every entry has a limiter of its own, within the configured bounds. -/
structure BucketsInv (cfg : PerIpConfig) (origin now : ℕ) (s : PerIpRateLimiter) : Prop where
  cache : CacheWellFormed cfg now s.cache
  allocated : ∀ ip e, (ip, e) ∈ s.cache.ipEntries → e.limiter < s.nextLimiter
  distinct : ∀ ip ip' e e', (ip, e) ∈ s.cache.ipEntries → (ip', e') ∈ s.cache.ipEntries →
    e.limiter = e'.limiter → ip = ip'
  fits : ∀ ip e, (ip, e) ∈ s.cache.ipEntries →
    (s.limiters e.limiter).Fits cfg.bucket origin now

variable {cfg : PerIpConfig} {ip k : Bytes} {e : IpEntry} {c : IpCache} {s s' : PerIpRateLimiter}

theorem bucketsInv_new (cfg : PerIpConfig) (origin now : ℕ) :
    BucketsInv cfg origin now (.new cfg) where
  cache := cacheWellFormed_empty cfg now
  allocated := nofun
  distinct := nofun
  fits := nofun

theorem BucketsInv.later (h : BucketsInv cfg origin now s) (hlater : now ≤ t) :
    BucketsInv cfg origin t s :=
  { h with
    cache := h.cache.later hlater
    fits := fun ip e he =>
      { h.fits ip e he with last_le := Nat.le_trans (h.fits ip e he).last_le hlater } }

/-- Entries may leave, and counters may count. -/
theorem BucketsInv.shrink (h : BucketsInv cfg origin now s)
    (hcache : CacheWellFormed cfg now s'.cache) (hsub : s'.cache.ipEntries ⊆ s.cache.ipEntries)
    (hlimiters : s'.limiters = s.limiters) (hnext : s'.nextLimiter = s.nextLimiter) :
    BucketsInv cfg origin now s' where
  cache := hcache
  allocated := by
    intro ip e he
    rw [hnext]
    exact h.allocated ip e (hsub he)
  distinct := fun ip ip' e e' he he' => h.distinct ip ip' e e' (hsub he) (hsub he')
  fits := by
    intro ip e he
    rw [hlimiters]
    exact h.fits ip e (hsub he)

/-- An entry may change, but for its limiter. -/
theorem BucketsInv.modify {f : IpEntry → IpEntry} (h : BucketsInv cfg origin now s)
    (hf : ∀ e, (f e).limiter = e.limiter) (hcache : CacheWellFormed cfg now s'.cache)
    (hentries : s'.cache.ipEntries = LinkedMap.modify s.cache.ipEntries ip f)
    (hlimiters : s'.limiters = s.limiters) (hnext : s'.nextLimiter = s.nextLimiter) :
    BucketsInv cfg origin now s' := by
  have hold : ∀ k x, (k, x) ∈ s'.cache.ipEntries →
      ∃ x', (k, x') ∈ s.cache.ipEntries ∧ x.limiter = x'.limiter := by
    intro k x hx
    rw [hentries] at hx
    rcases mem_modify.mp hx with ⟨hx, -⟩ | ⟨value, hvalue, heq⟩
    · exact ⟨x, hx, rfl⟩
    · obtain ⟨rfl, rfl⟩ := Prod.mk.inj heq
      exact ⟨value, hvalue, hf value⟩
  refine ⟨hcache, fun k x hx => ?_, fun k k' x x' hx hx' hsame => ?_, fun k x hx => ?_⟩
  · obtain ⟨y, hy, heq⟩ := hold k x hx
    rw [heq, hnext]
    exact h.allocated k y hy
  · obtain ⟨y, hy, heq⟩ := hold k x hx
    obtain ⟨y', hy', heq'⟩ := hold k' x' hx'
    exact h.distinct k k' y y' hy hy' (heq.symm.trans (hsame.trans heq'))
  · obtain ⟨y, hy, heq⟩ := hold k x hx
    rw [heq, hlimiters]
    exact h.fits k y hy

theorem bucketOf_modify {f : IpEntry → IpEntry} (hf : ∀ e, (f e).limiter = e.limiter)
    (hentries : s'.cache.ipEntries = LinkedMap.modify s.cache.ipEntries ip f)
    (hlimiters : s'.limiters = s.limiters) (k : Bytes) : bucketOf s' k = bucketOf s k := by
  rw [bucketOf, bucketOf, hentries, hlimiters, lookup_modify]
  split
  · rw [Option.map_map]
    congr 1
    funext e
    show (s.limiters (f e).limiter).bucket = _
    rw [hf]
  · rfl

/-- The LRU eviction drops the bucket at the front of the list. -/
theorem bucketOf_evictOldestIps (s : PerIpRateLimiter) (k : Bytes) :
    bucketOf (s.evictOldestIps 1) k =
      if s.cache.lruList.front? = some k then none else bucketOf s k := by
  rw [PerIpRateLimiter.evictOldestIps, IpCache.evictOldest]
  cases hfront : s.cache.lruList.front? with
  | none =>
    rw [if_neg (Option.some_ne_none k).symm]
    rfl
  | some oldest =>
    show (lookup (eraseKey s.cache.ipEntries oldest) k).map _ = _
    rw [lookup_eraseKey]
    by_cases hk : k = oldest
    · rw [if_pos hk, if_pos (by rw [hk])]
      rfl
    · rw [if_neg hk, if_neg fun heq => hk (Option.some.inj heq).symm]
      rfl

/-- A new IP has a new, full bucket. -/
theorem BucketsInv.create (h : BucketsInv cfg origin now s) (horigin : origin ≤ now)
    (hnew : lookup s.cache.ipEntries ip = none) (hroom : s.cache.ipEntries.length < cfg.maxIps) :
    BucketsInv cfg origin now (s.create cfg now ip) ∧
      ∀ k, bucketOf (s.create cfg now ip) k =
        if k = ip then some (TokenBucket.full cfg.bucket.params now) else bucketOf s k := by
  have hkey := lookup_eq_none_iff.mp hnew
  -- the limiters of the other entries were made before
  have hother : ∀ k e, (k, e) ∈ s.cache.ipEntries →
      (s.create cfg now ip).limiters e.limiter = s.limiters e.limiter := fun k e he =>
    Function.update_of_ne (Nat.ne_of_lt (h.allocated k e he)) _ _
  have hself : (s.create cfg now ip).limiters s.nextLimiter = .new cfg.bucket now :=
    Function.update_self _ _ _
  have hentries : (s.create cfg now ip).cache.ipEntries =
      (ip, s.newEntry now) :: s.cache.ipEntries := rfl
  refine ⟨⟨h.cache.create hnew hroom rfl rfl, ?_, ?_, ?_⟩, fun k => ?_⟩
  · intro k e he
    rcases List.mem_cons.mp he with heq | he
    · obtain ⟨-, rfl⟩ := Prod.mk.inj heq
      exact Nat.lt_succ_self _
    · exact Nat.lt_succ_of_lt (h.allocated k e he)
  · intro k k' e e' he he' hsame
    rcases List.mem_cons.mp he with heq | he
    · rcases List.mem_cons.mp he' with heq' | he'
      · rw [(Prod.mk.inj heq).1, (Prod.mk.inj heq').1]
      · obtain ⟨-, rfl⟩ := Prod.mk.inj heq
        exact absurd hsame.symm (Nat.ne_of_lt (h.allocated k' e' he'))
    · rcases List.mem_cons.mp he' with heq' | he'
      · obtain ⟨-, rfl⟩ := Prod.mk.inj heq'
        exact absurd hsame (Nat.ne_of_lt (h.allocated k e he))
      · exact h.distinct k k' e e' he he' hsame
  · intro k e he
    rcases List.mem_cons.mp he with heq | he
    · obtain ⟨-, rfl⟩ := Prod.mk.inj heq
      show ((s.create cfg now ip).limiters s.nextLimiter).Fits _ _ _
      rw [hself]
      exact fits_new cfg.bucket horigin
    · rw [hother k e he]
      exact h.fits k e he
  · rw [bucketOf, hentries, lookup_cons]
    by_cases hk : k = ip
    · subst hk
      rw [if_pos rfl, if_pos rfl]
      show some ((s.create cfg now k).limiters s.nextLimiter).bucket = _
      rw [hself]
      rfl
    · rw [if_neg (Ne.symm hk), if_neg hk, bucketOf]
      cases hlookup : lookup s.cache.ipEntries k with
      | none => rfl
      | some e =>
        show some ((s.create cfg now ip).limiters e.limiter).bucket = _
        rw [hother k e (mem_of_lookup hlookup)]
        rfl

/-- **`get_or_create_limiter`** finds the bucket of its IP or makes a full one, and drops the
bucket of the IP that has to go. -/
theorem BucketsInv.getOrCreateLimiter (h : BucketsInv cfg origin now s) (horigin : origin ≤ now)
    (ip : Bytes) :
    ∃ e s', s.getOrCreateLimiter cfg now ip = (some e.limiter, s') ∧
      BucketsInv cfg origin now s' ∧ (ip, e) ∈ s'.cache.ipEntries ∧
      ∀ k, bucketOf s' k =
        if k = ip then some ((bucketOf s ip).getD (TokenBucket.full cfg.bucket.params now))
        else if evictedFor cfg ip s = some k then none else bucketOf s k := by
  rw [PerIpRateLimiter.getOrCreateLimiter]
  cases hlookup : lookup s.cache.ipEntries ip with
  | some e =>
    have hmem := mem_of_lookup hlookup
    have hbuckets : ∀ k, bucketOf (s.touch now ip e) k = bucketOf s k :=
      bucketOf_modify (f := IpEntry.seenAgain now) (fun _ => rfl) rfl rfl
    have hevicted : evictedFor cfg ip s = none := by
      rw [evictedFor, hlookup]
      exact if_neg fun hboth => absurd hboth.1 Bool.noConfusion
    refine ⟨e.seenAgain now, s.touch now ip e, rfl, ?_, ?_, fun k => ?_⟩
    · exact h.modify (f := IpEntry.seenAgain now) (fun _ => rfl)
        (h.cache.touch (c := s.cache) hmem (fun _ => rfl) fun _ => rfl) rfl rfl rfl
    · exact mem_modify.mpr (.inr ⟨e, hmem, rfl⟩)
    · rw [hbuckets k, hevicted, if_neg (Option.some_ne_none k).symm]
      by_cases hk : k = ip
      · subst hk
        rw [if_pos rfl, bucketOf, hlookup]
        rfl
      · rw [if_neg hk]
  | none =>
    have hnone : bucketOf s ip = none := by rw [bucketOf, hlookup]; rfl
    rw [hnone, Option.getD_none]
    by_cases hfull : cfg.maxIps ≤ s.cache.ipEntries.length
    · obtain ⟨hwell, hsub, -⟩ := evictOldest_spec h.cache 1
      have hroom := length_evictOldest_one h.cache hfull
      have hnew : lookup (s.evictOldestIps 1).cache.ipEntries ip = none :=
        lookup_eq_none_iff.mpr fun hmem =>
          lookup_eq_none_iff.mp hlookup ((hsub.map Prod.fst).subset hmem)
      have hinv : BucketsInv cfg origin now (s.evictOldestIps 1) :=
        h.shrink hwell hsub.subset rfl rfl
      obtain ⟨hcreated, hbuckets⟩ := hinv.create horigin hnew hroom
      refine ⟨(s.evictOldestIps 1).newEntry now, (s.evictOldestIps 1).create cfg now ip, ?_,
        hcreated, List.mem_cons_self, fun k => ?_⟩
      · rw [if_pos hfull]
        exact if_neg (Nat.not_le.mpr hroom)
      · have hevicted : evictedFor cfg ip s = s.cache.lruList.front? := by
          rw [evictedFor, hlookup]
          exact if_pos ⟨rfl, hfull⟩
        rw [hbuckets k, bucketOf_evictOldestIps, hevicted]
    · obtain ⟨hcreated, hbuckets⟩ := h.create horigin hlookup (Nat.not_le.mp hfull)
      refine ⟨s.newEntry now, s.create cfg now ip, if_neg hfull, hcreated, List.mem_cons_self,
        fun k => ?_⟩
      have hevicted : evictedFor cfg ip s = none := if_neg fun hboth => hfull hboth.2
      rw [hbuckets k, hevicted, if_neg (Option.some_ne_none k).symm]

/-- One limiter changes. -/
theorem BucketsInv.update (h : BucketsInv cfg origin now s) (he : (ip, e) ∈ s.cache.ipEntries)
    (hfits : l.Fits cfg.bucket origin now) :
    BucketsInv cfg origin now { s with limiters := Function.update s.limiters e.limiter l } ∧
      ∀ k, bucketOf { s with limiters := Function.update s.limiters e.limiter l } k =
        if k = ip then some l.bucket else bucketOf s k := by
  have hother : ∀ k x, (k, x) ∈ s.cache.ipEntries → k ≠ ip →
      Function.update s.limiters e.limiter l x.limiter = s.limiters x.limiter := fun k x hx hne =>
    Function.update_of_ne (fun hsame => hne (h.distinct k ip x e hx he hsame)) _ _
  have hself : ∀ x, (ip, x) ∈ s.cache.ipEntries →
      Function.update s.limiters e.limiter l x.limiter = l := by
    intro x hx
    rw [eq_of_mem h.cache.linked.keys_nodup hx he]
    exact Function.update_self _ _ _
  refine ⟨{ h with fits := fun k x hx => ?_ }, fun k => ?_⟩
  · show (Function.update s.limiters e.limiter l x.limiter).Fits _ _ _
    by_cases hk : k = ip
    · subst hk
      rw [hself x hx]
      exact hfits
    · rw [hother k x hx hk]
      exact h.fits k x hx
  · rw [bucketOf, bucketOf]
    by_cases hk : k = ip
    · subst hk
      rw [lookup_of_mem h.cache.linked.keys_nodup he, if_pos rfl]
      show some (Function.update s.limiters e.limiter l e.limiter).bucket = _
      rw [hself e he]
    · rw [if_neg hk]
      cases hlookup : lookup s.cache.ipEntries k with
      | none => rfl
      | some x =>
        show some (Function.update s.limiters e.limiter l x.limiter).bucket = _
        rw [hother k x (mem_of_lookup hlookup) hk]
        rfl

/-- The counters do not touch the buckets. -/
theorem BucketsInv.countOutcome (h : BucketsInv cfg origin now s) (ip : Bytes) (allowed : Bool) :
    BucketsInv cfg origin now (s.countOutcome ip allowed).2 ∧
      (s.countOutcome ip allowed).1 = allowed ∧
      ∀ k, bucketOf (s.countOutcome ip allowed).2 k = bucketOf s k := by
  cases allowed with
  | true => exact ⟨h.shrink h.cache (List.Subset.refl _) rfl rfl, rfl, fun _ => rfl⟩
  | false =>
    refine ⟨?_, rfl, fun k => ?_⟩
    · exact h.modify (f := IpEntry.countRejection) (fun _ => rfl)
        (h.cache.modify (f := IpEntry.countRejection) ip (fun _ => rfl) fun _ => rfl) rfl rfl rfl
    · have hentries : (s.countOutcome ip false).2.cache.ipEntries =
          LinkedMap.modify s.cache.ipEntries ip IpEntry.countRejection := rfl
      exact bucketOf_modify (f := IpEntry.countRejection) (fun _ => rfl) hentries rfl k

/-- The bucket that a call of an IP meets. -/
def bucketFor (cfg : PerIpConfig) (now : ℕ) (ip : Bytes) (s : PerIpRateLimiter) :
    TokenBucket.Bucket :=
  (bucketOf s ip).getD (TokenBucket.full cfg.bucket.params now)

/-- **A call** decides by the bucket of its IP, or by a full one for a new IP, and leaves the
buckets of the others, but for the IP that has to go. -/
theorem acquire_buckets (h : BucketsInv cfg origin now s) (horigin : origin ≤ now)
    (hspan : now - origin < clockSpan) (ip : Bytes) :
    BucketsInv cfg origin now (s.acquire cfg now ip).2 ∧
      (s.acquire cfg now ip).1 =
        (TokenBucket.request cfg.bucket.params now (bucketFor cfg now ip s)).1 ∧
      ∀ k, bucketOf (s.acquire cfg now ip).2 k =
        if k = ip then
          some (TokenBucket.request cfg.bucket.params now (bucketFor cfg now ip s)).2
        else if evictedFor cfg ip s = some k then none else bucketOf s k := by
  have hcounted : BucketsInv cfg origin now { s with counters := s.counters.countRequest } :=
    h.shrink h.cache (List.Subset.refl _) rfl rfl
  obtain ⟨e, s₁, hget, hinv₁, hmem, hbuckets₁⟩ := hcounted.getOrCreateLimiter horigin ip
  have hbucket : (s₁.limiters e.limiter).bucket = bucketFor cfg now ip s := by
    have hself := hbuckets₁ ip
    rw [if_pos rfl, bucketOf, lookup_of_mem hinv₁.cache.linked.keys_nodup hmem] at hself
    exact Option.some.inj hself
  obtain ⟨hgranted, hafter, hfits⟩ := (hinv₁.fits ip e hmem).acquire hspan
  obtain ⟨hinv₂, hbuckets₂⟩ := hinv₁.update hmem hfits
  rw [hbucket] at hgranted hafter
  obtain ⟨hinv₃, hresult, hbuckets₃⟩ :=
    hinv₂.countOutcome ip ((s₁.limiters e.limiter).acquire cfg.bucket now).1
  rw [PerIpRateLimiter.acquire, hget]
  refine ⟨hinv₃, hresult.trans hgranted, fun k => ?_⟩
  refine (hbuckets₃ k).trans ?_
  rw [hbuckets₂ k, hbuckets₁ k, hafter]
  by_cases hk : k = ip
  · rw [if_pos hk, if_pos hk]
  · rw [if_neg hk, if_neg hk, if_neg hk]
    rfl

/-- **A cleanup** drops buckets, and changes none. -/
theorem cleanup_buckets (h : BucketsInv cfg origin now s) :
    BucketsInv cfg origin now (s.doCleanupExpired cfg now) ∧
      ∀ k b, bucketOf (s.doCleanupExpired cfg now) k = some b → bucketOf s k = some b := by
  obtain ⟨hwell, -, hmem⟩ := sweep_spec now 0 h.cache h.cache.linked.keys_nodup
    (List.Subset.refl _)
  have hsub : (s.doCleanupExpired cfg now).cache.ipEntries ⊆ s.cache.ipEntries :=
    fun x hx => ((hmem x).mp hx).1
  refine ⟨h.shrink hwell hsub rfl rfl, fun k b hb => ?_⟩
  obtain ⟨e, he, rfl⟩ := Option.map_eq_some_iff.mp hb
  rw [bucketOf, lookup_of_mem h.cache.linked.keys_nodup (hsub (mem_of_lookup he))]
  rfl

end Proxy
end HttpDataDiod
