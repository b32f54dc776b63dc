import HttpDataDiod.Proxy.IdleCleanup

/-!
# The two levels of rate limiting

`check_rate_limits` asks the global limiter first and the limiter of the client then, and the
documentation calls them two independent levels.  They are not: the token that the global
limiter has granted is gone when the second level refuses the request, so a client that is
over its own limit uses up the budget of the others.  A refused request also moves its IP to
the end of the LRU list, which matters when an IP has to go for a new one.

Two runs get the same requests here, but the second one leaves out some of those that the
per-IP limiter refuses in the first.

* `Limits.checkRateLimits`: the two levels.
* `limitsStep`: the two runs.
* `KeepsApart`: what the levels need to be independent.
* `limits_independent`: then all other requests are decided alike, and a refusal leaves the
  global bucket as it was.
* `limits_not_independent`: a client over its limit uses up the global bucket.
-/

namespace HttpDataDiod
namespace Proxy

open ByteText Transition

/-! ## The two levels -/

/-- The settings of the two limiters. -/
structure LimitsConfig where
  globalEnabled : Bool
  global : RateLimiterConfig
  perIpEnabled : Bool
  perIp : PerIpConfig

/-- The two limiters; one that is not enabled is not asked. -/
structure Limits where
  rateLimiter : RateLimiter
  perIpRateLimiter : PerIpRateLimiter

/-- The outcome of `check_rate_limits`. -/
inductive LimitDecision where
  | allowed
  | rejectedGlobal
  | rejectedPerIp
  deriving DecidableEq

namespace Limits

/-- The first check. -/
def acquireGlobal (cfg : LimitsConfig) (now : ℕ) (s : Limits) : Bool × RateLimiter :=
  if cfg.globalEnabled then s.rateLimiter.acquire cfg.global now else (true, s.rateLimiter)

/-- The second check. -/
def acquirePerIp (cfg : LimitsConfig) (now : ℕ) (ip : Bytes) (s : Limits) :
    Bool × PerIpRateLimiter :=
  if cfg.perIpEnabled then s.perIpRateLimiter.acquire cfg.perIp now ip
  else (true, s.perIpRateLimiter)

/-- `check_rate_limits`, without the answers to the clients and the metrics. -/
def checkRateLimits (cfg : LimitsConfig) (now : ℕ) (ip : Bytes) (s : Limits) :
    LimitDecision × Limits :=
  let global := s.acquireGlobal cfg now
  if global.1 then
    let perIp := s.acquirePerIp cfg now ip
    (if perIp.1 then .allowed else .rejectedPerIp, ⟨global.2, perIp.2⟩)
  else (.rejectedGlobal, { s with rateLimiter := global.2 })

/-- Two new limiters. -/
def new (cfg : LimitsConfig) (origin : ℕ) : Limits :=
  ⟨.new cfg.global origin, .new cfg.perIp⟩

end Limits

/-! ## Two runs -/

/-- The time, the limiters of both runs, their decisions about the requests that they share,
and the global bucket before and after each refusal of the first run by the second level. -/
structure TwoRuns where
  now : ℕ
  first : Limits
  second : Limits
  decisionsFirst : List LimitDecision
  decisionsSecond : List LimitDecision
  refusals : List (TokenBucket.Bucket × TokenBucket.Bucket)

/-- A request, which the second run may leave out. -/
structure LimitsEvent where
  now : ℕ
  ip : Bytes
  omitted : Bool

/-- The global bucket before and after a request that the second level refused. -/
def refusal (before after : Limits) (decision : LimitDecision) :
    List (TokenBucket.Bucket × TokenBucket.Bucket) :=
  if decision = .rejectedPerIp then [(before.rateLimiter.bucket, after.rateLimiter.bucket)] else []

/-- One step.  Only requests that the second level refuses in the first run are left out. -/
def limitsStep (cfg : LimitsConfig) (origin : ℕ) (s : TwoRuns) (e : LimitsEvent) :
    Option TwoRuns :=
  let first := s.first.checkRateLimits cfg e.now e.ip
  let second := s.second.checkRateLimits cfg e.now e.ip
  if TimeGoesOn origin s.now e.now then
    if e.omitted then
      if first.1 = .rejectedPerIp then
        some
          { s with
            now := e.now
            first := first.2
            refusals := refusal s.first first.2 first.1 ++ s.refusals }
      else none
    else
      some
        { now := e.now
          first := first.2
          second := second.2
          decisionsFirst := first.1 :: s.decisionsFirst
          decisionsSecond := second.1 :: s.decisionsSecond
          refusals := refusal s.first first.2 first.1 ++ s.refusals }
  else none

/-- Two runs of new limiters. -/
def initialRuns (cfg : LimitsConfig) (origin : ℕ) : TwoRuns where
  now := origin
  first := .new cfg origin
  second := .new cfg origin
  decisionsFirst := []
  decisionsSecond := []
  refusals := []

/-- The shared requests are decided alike, and the refusals of the second level leave the
global bucket as it was. -/
def Independent (s : TwoRuns) : Prop :=
  s.decisionsFirst = s.decisionsSecond ∧ ∀ r ∈ s.refusals, r.1 = r.2

/-! ## The condition -/

/-- The bucket has a token at this time. -/
def HasToken (p : TokenBucket.Params) (now : ℕ) (b : TokenBucket.Bucket) : Prop :=
  0 < (TokenBucket.refill p now b).tokens

instance (p : TokenBucket.Params) (now : ℕ) (b : TokenBucket.Bucket) :
    Decidable (HasToken p now b) :=
  inferInstanceAs (Decidable (_ < _))

/-- With both levels enabled, a request that the global bucket has a token for finds one in
the bucket of its IP as well; and where an IP has to go for a new one, it is the same IP in
both runs. -/
def KeepsApart (cfg : LimitsConfig) (s : TwoRuns) (e : LimitsEvent) : Prop :=
  (cfg.globalEnabled = true → cfg.perIpEnabled = true →
    HasToken cfg.global.params e.now s.first.rateLimiter.bucket →
    HasToken cfg.perIp.bucket.params e.now
      (bucketFor cfg.perIp e.now e.ip s.first.perIpRateLimiter)) ∧
  evictedFor cfg.perIp e.ip s.first.perIpRateLimiter =
    evictedFor cfg.perIp e.ip s.second.perIpRateLimiter

instance (cfg : LimitsConfig) (s : TwoRuns) (e : LimitsEvent) : Decidable (KeepsApart cfg s e) :=
  inferInstanceAs (Decidable ((_ = true → _ = true → HasToken _ _ _ → HasToken _ _ _) ∧ _ = _))

/-! ## The limiters of one run -/

/-- Both limiters are in order. -/
structure LimitsInv (cfg : LimitsConfig) (origin now : ℕ) (s : Limits) : Prop where
  global : s.rateLimiter.Fits cfg.global origin now
  perIp : BucketsInv cfg.perIp origin now s.perIpRateLimiter

variable {cfg : LimitsConfig} {origin now t : ℕ} {ip : Bytes} {l : Limits} {s s' : TwoRuns}
  {e : LimitsEvent}

theorem limitsInv_new (cfg : LimitsConfig) (origin : ℕ) :
    LimitsInv cfg origin origin (.new cfg origin) :=
  ⟨fits_new cfg.global (Nat.le_refl _), bucketsInv_new cfg.perIp origin origin⟩

theorem LimitsInv.later (h : LimitsInv cfg origin now l) (hlater : now ≤ t) :
    LimitsInv cfg origin t l :=
  ⟨{ h.global with last_le := Nat.le_trans h.global.last_le hlater }, h.perIp.later hlater⟩

theorem LimitsInv.acquireGlobal (h : LimitsInv cfg origin now l)
    (hspan : now - origin < clockSpan) :
    (l.acquireGlobal cfg now).2.Fits cfg.global origin now := by
  rw [Limits.acquireGlobal]
  split
  · exact (h.global.acquire hspan).2.2
  · exact h.global

theorem LimitsInv.acquirePerIp (h : LimitsInv cfg origin now l) (horigin : origin ≤ now)
    (hspan : now - origin < clockSpan) (ip : Bytes) :
    BucketsInv cfg.perIp origin now (l.acquirePerIp cfg now ip).2 := by
  rw [Limits.acquirePerIp]
  split
  · exact (acquire_buckets h.perIp horigin hspan ip).1
  · exact h.perIp

theorem LimitsInv.checkRateLimits (h : LimitsInv cfg origin now l) (horigin : origin ≤ now)
    (hspan : now - origin < clockSpan) (ip : Bytes) :
    LimitsInv cfg origin now (l.checkRateLimits cfg now ip).2 := by
  rw [Limits.checkRateLimits]
  simp only
  split
  · exact ⟨h.acquireGlobal hspan, h.acquirePerIp horigin hspan ip⟩
  · exact ⟨h.acquireGlobal hspan, h.perIp⟩

/-- A request is granted exactly when the refilled bucket has a token. -/
theorem request_fst (p : TokenBucket.Params) (now : ℕ) (b : TokenBucket.Bucket) :
    (TokenBucket.request p now b).1 = true ↔ HasToken p now b := by
  rw [TokenBucket.request, HasToken]
  split
  · exact ⟨fun _ => ‹_›, fun _ => rfl⟩
  · exact ⟨Bool.noConfusion, fun h => absurd h ‹_›⟩

theorem request_snd_of_not {p : TokenBucket.Params} {b : TokenBucket.Bucket}
    (h : (TokenBucket.request p now b).1 = false) :
    (TokenBucket.request p now b).2 = TokenBucket.refill p now b := by
  rw [TokenBucket.request] at h ⊢
  split at h
  · cases h
  · rename_i hpos
    rw [if_neg hpos]

/-- **A refusal by the second level**: the first one let the request pass, and the bucket of
the IP is empty. -/
theorem LimitsInv.rejectedPerIp (h : LimitsInv cfg origin now l) (horigin : origin ≤ now)
    (hspan : now - origin < clockSpan)
    (hrejected : (l.checkRateLimits cfg now ip).1 = .rejectedPerIp) :
    cfg.perIpEnabled = true ∧
      (cfg.globalEnabled = true → HasToken cfg.global.params now l.rateLimiter.bucket) ∧
      ¬ HasToken cfg.perIp.bucket.params now (bucketFor cfg.perIp now ip l.perIpRateLimiter) := by
  rw [Limits.checkRateLimits] at hrejected
  simp only at hrejected
  split at hrejected
  · rename_i hglobal
    split at hrejected
    · cases hrejected
    · rename_i hperIp
      rw [Limits.acquirePerIp] at hperIp
      split at hperIp
      · rename_i henabled
        refine ⟨henabled, fun hg => ?_, fun htoken => hperIp ?_⟩
        · rw [Limits.acquireGlobal, if_pos hg, (h.global.acquire hspan).1] at hglobal
          exact (request_fst _ _ _).mp hglobal
        · rw [(acquire_buckets h.perIp horigin hspan ip).2.1]
          exact (request_fst _ _ _).mpr htoken
      · exact absurd rfl hperIp
  · cases hrejected

/-- Without a global limiter only the second level decides. -/
theorem checkRateLimits_of_disabled (hdisabled : cfg.globalEnabled = false) (now : ℕ) (ip : Bytes)
    (l : Limits) :
    l.checkRateLimits cfg now ip =
      (if (l.acquirePerIp cfg now ip).1 then .allowed else .rejectedPerIp,
        ⟨l.rateLimiter, (l.acquirePerIp cfg now ip).2⟩) := by
  rw [Limits.checkRateLimits, Limits.acquireGlobal, hdisabled]
  rfl

/-! ## The two runs decide alike -/

/-- The buckets of the two runs become the same when they are refilled. -/
def SameBuckets (cfg : LimitsConfig) (now : ℕ) (l l' : PerIpRateLimiter) : Prop :=
  ∀ ip, (bucketOf l ip).map (TokenBucket.refill cfg.perIp.bucket.params now) =
    (bucketOf l' ip).map (TokenBucket.refill cfg.perIp.bucket.params now)

/-- What the two runs keep: with a global limiter they are in the same state, without one
their clients have the same buckets. -/
structure RunsAlike (cfg : LimitsConfig) (origin : ℕ) (s : TwoRuns) : Prop where
  origin_le : origin ≤ s.now
  first : LimitsInv cfg origin s.now s.first
  second : LimitsInv cfg origin s.now s.second
  same : cfg.globalEnabled = true → s.second = s.first
  buckets : SameBuckets cfg s.now s.first.perIpRateLimiter s.second.perIpRateLimiter
  independent : Independent s

theorem runsAlike_initial (cfg : LimitsConfig) (origin : ℕ) :
    RunsAlike cfg origin (initialRuns cfg origin) where
  origin_le := Nat.le_refl _
  first := limitsInv_new cfg origin
  second := limitsInv_new cfg origin
  same := fun _ => rfl
  buckets := fun _ => rfl
  independent := ⟨rfl, nofun⟩

/-- The buckets stay the same as time goes on. -/
theorem SameBuckets.later {a b : PerIpRateLimiter} (h : SameBuckets cfg now a b)
    (ha : BucketsInv cfg.perIp origin now a) (hb : BucketsInv cfg.perIp origin now b)
    (hlater : now ≤ t) : SameBuckets cfg t a b := by
  have hrefill : ∀ {x : PerIpRateLimiter} (ip : Bytes), BucketsInv cfg.perIp origin now x →
      (bucketOf x ip).map (TokenBucket.refill cfg.perIp.bucket.params t) =
        ((bucketOf x ip).map (TokenBucket.refill cfg.perIp.bucket.params now)).map
          (TokenBucket.refill cfg.perIp.bucket.params t) := by
    intro x ip hx
    cases hbucket : bucketOf x ip with
    | none => rfl
    | some bucket =>
      simp only [Option.map_some]
      rw [TokenBucket.refill_refill (hx.last_le hbucket) hlater]
  intro ip
  rw [hrefill ip ha, hrefill ip hb, h ip]

/-- And they answer alike. -/
theorem SameBuckets.request_eq {a b : PerIpRateLimiter} (h : SameBuckets cfg now a b) (ip : Bytes) :
    TokenBucket.request cfg.perIp.bucket.params now (bucketFor cfg.perIp now ip a) =
      TokenBucket.request cfg.perIp.bucket.params now (bucketFor cfg.perIp now ip b) := by
  have hrefill : TokenBucket.refill cfg.perIp.bucket.params now (bucketFor cfg.perIp now ip a) =
      TokenBucket.refill cfg.perIp.bucket.params now (bucketFor cfg.perIp now ip b) := by
    have hsame := h ip
    unfold bucketFor
    cases ha : bucketOf a ip with
    | none =>
      rw [ha, Option.map_none, eq_comm, Option.map_eq_none_iff] at hsame
      rw [hsame]
    | some x =>
      rw [ha, Option.map_some, eq_comm] at hsame
      obtain ⟨y, hy, hxy⟩ := Option.map_eq_some_iff.mp hsame
      rw [hy, Option.getD_some, Option.getD_some, hxy]
  unfold TokenBucket.request
  rw [hrefill]

/-- **A request in both runs** is decided alike. -/
theorem SameBuckets.acquire {a b : PerIpRateLimiter} (h : SameBuckets cfg now a b)
    (ha : BucketsInv cfg.perIp origin now a) (hb : BucketsInv cfg.perIp origin now b)
    (horigin : origin ≤ now) (hspan : now - origin < clockSpan)
    (hevicted : evictedFor cfg.perIp ip a = evictedFor cfg.perIp ip b) :
    (a.acquire cfg.perIp now ip).1 = (b.acquire cfg.perIp now ip).1 ∧
      SameBuckets cfg now (a.acquire cfg.perIp now ip).2 (b.acquire cfg.perIp now ip).2 := by
  obtain ⟨-, hgranted, hbuckets⟩ := acquire_buckets ha horigin hspan ip
  obtain ⟨-, hgranted', hbuckets'⟩ := acquire_buckets hb horigin hspan ip
  have hsame := h.request_eq ip
  refine ⟨by rw [hgranted, hgranted', hsame], fun k => ?_⟩
  rw [hbuckets k, hbuckets' k, hsame, hevicted]
  by_cases hk : k = ip
  · rw [if_pos hk, if_pos hk]
  · rw [if_neg hk, if_neg hk]
    split
    · rfl
    · exact h k

/-- **A refused request in one run** leaves the buckets the same: the refill would have come
with the next request. -/
theorem SameBuckets.refused {a b : PerIpRateLimiter} (h : SameBuckets cfg now a b)
    (ha : BucketsInv cfg.perIp origin now a) (horigin : origin ≤ now)
    (hspan : now - origin < clockSpan)
    (hempty : ¬ HasToken cfg.perIp.bucket.params now (bucketFor cfg.perIp now ip a)) :
    SameBuckets cfg now (a.acquire cfg.perIp now ip).2 b := by
  obtain ⟨-, -, hbuckets⟩ := acquire_buckets ha horigin hspan ip
  have hrefused : (TokenBucket.request cfg.perIp.bucket.params now
      (bucketFor cfg.perIp now ip a)).1 = false :=
    Bool.eq_false_iff.mpr fun hgranted => hempty ((request_fst _ _ _).mp hgranted)
  obtain ⟨bucket, hbucket⟩ : ∃ bucket, bucketOf a ip = some bucket := by
    cases hnone : bucketOf a ip with
    | some bucket => exact ⟨bucket, rfl⟩
    | none =>
      -- a new IP has a full bucket
      refine absurd ?_ hempty
      rw [bucketFor, hnone, Option.getD_none, HasToken, refill_full]
      exact cfg.perIp.bucket.maxTokens_toNat_pos
  have hevicted : evictedFor cfg.perIp ip a = none := by
    obtain ⟨entry, hentry, -⟩ := Option.map_eq_some_iff.mp hbucket
    rw [evictedFor, hentry]
    exact if_neg fun hboth => absurd hboth.1 Bool.noConfusion
  intro k
  rw [hbuckets k, hevicted, ← h k]
  by_cases hk : k = ip
  · subst hk
    rw [if_pos rfl, request_snd_of_not hrefused, bucketFor, hbucket, Option.getD_some,
      Option.map_some, Option.map_some,
      TokenBucket.refill_refill (ha.last_le hbucket) (Nat.le_refl _)]
  · rw [if_neg hk, if_neg (Option.some_ne_none k).symm]

/-- With both levels enabled, the second one refuses nothing. -/
theorem RunsAlike.not_rejectedPerIp (h : RunsAlike cfg origin s)
    (hglobal : cfg.globalEnabled = true)
    (hkeeps : KeepsApart cfg s e) (htime : TimeGoesOn origin s.now e.now) :
    (s.first.checkRateLimits cfg e.now e.ip).1 ≠ .rejectedPerIp := by
  intro hrejected
  obtain ⟨hperIp, htoken, hempty⟩ := (h.first.later htime.1).rejectedPerIp
    (Nat.le_trans h.origin_le htime.1) htime.2 hrejected
  exact hempty (hkeeps.1 hglobal hperIp (htoken hglobal))

/-- Without a global limiter a refusal does not touch its bucket. -/
theorem refusal_of_disabled (hdisabled : cfg.globalEnabled = false) (l : Limits) :
    ∀ r ∈ refusal l (l.checkRateLimits cfg now ip).2 (l.checkRateLimits cfg now ip).1,
      r.1 = r.2 := by
  have hkept : (l.checkRateLimits cfg now ip).2.rateLimiter = l.rateLimiter := by
    rw [checkRateLimits_of_disabled hdisabled]
  intro r hr
  rw [refusal, hkept] at hr
  split at hr
  · rw [List.mem_singleton.mp hr]
  · exact absurd hr List.not_mem_nil

theorem Independent.refusals {s : TwoRuns}
    {refused : List (TokenBucket.Bucket × TokenBucket.Bucket)}
    (h : Independent s) (hrefused : ∀ r ∈ refused, r.1 = r.2) :
    ∀ r ∈ refused ++ s.refusals, r.1 = r.2 := by
  intro r hr
  rcases List.mem_append.mp hr with hr | hr
  · exact hrefused r hr
  · exact h.2 r hr

/-- **A shared request** is decided alike, and leaves the runs alike. -/
theorem RunsAlike.shared (h : RunsAlike cfg origin s) (hkeeps : KeepsApart cfg s e)
    (htime : TimeGoesOn origin s.now e.now) :
    (s.first.checkRateLimits cfg e.now e.ip).1 = (s.second.checkRateLimits cfg e.now e.ip).1 ∧
      (cfg.globalEnabled = true → (s.second.checkRateLimits cfg e.now e.ip).2 =
        (s.first.checkRateLimits cfg e.now e.ip).2) ∧
      SameBuckets cfg e.now (s.first.checkRateLimits cfg e.now e.ip).2.perIpRateLimiter
        (s.second.checkRateLimits cfg e.now e.ip).2.perIpRateLimiter := by
  cases hglobal : cfg.globalEnabled with
  | true =>
    rw [h.same hglobal]
    exact ⟨rfl, fun _ => rfl, fun _ => rfl⟩
  | false =>
    have hbuckets := h.buckets.later h.first.perIp h.second.perIp htime.1
    rw [checkRateLimits_of_disabled hglobal, checkRateLimits_of_disabled hglobal]
    unfold Limits.acquirePerIp
    split
    · obtain ⟨hdecision, hafter⟩ := hbuckets.acquire (h.first.later htime.1).perIp
        (h.second.later htime.1).perIp (Nat.le_trans h.origin_le htime.1) htime.2 hkeeps.2
      exact ⟨by rw [hdecision], nofun, hafter⟩
    · exact ⟨rfl, nofun, hbuckets⟩

theorem RunsAlike.step (h : RunsAlike cfg origin s) (hkeeps : KeepsApart cfg s e)
    (hstep : limitsStep cfg origin s e = some s') : RunsAlike cfg origin s' := by
  simp only [limitsStep] at hstep
  split at hstep
  case isFalse => cases hstep
  rename_i htime
  have horigin := Nat.le_trans h.origin_le htime.1
  have hfirst := h.first.later htime.1
  have hsecond := h.second.later htime.1
  have hbuckets := h.buckets.later h.first.perIp h.second.perIp htime.1
  have hfirst' := hfirst.checkRateLimits horigin htime.2 e.ip
  have hsecond' := hsecond.checkRateLimits horigin htime.2 e.ip
  have hrefusals : ∀ r ∈ refusal s.first (s.first.checkRateLimits cfg e.now e.ip).2
      (s.first.checkRateLimits cfg e.now e.ip).1 ++ s.refusals, r.1 = r.2 := by
    refine h.independent.refusals ?_
    cases hglobal : cfg.globalEnabled with
    | false => exact refusal_of_disabled hglobal s.first
    | true =>
      rw [refusal, if_neg (h.not_rejectedPerIp hglobal hkeeps htime)]
      exact nofun
  split at hstep
  · split at hstep
    · rename_i hrejected
      obtain rfl := Option.some.inj hstep
      have hdisabled : cfg.globalEnabled = false := Bool.eq_false_iff.mpr fun hglobal =>
        h.not_rejectedPerIp hglobal hkeeps htime hrejected
      obtain ⟨hperIp, -, hempty⟩ := hfirst.rejectedPerIp horigin htime.2 hrejected
      refine ⟨horigin, hfirst', hsecond, fun hglobal => ?_, ?_, h.independent.1, hrefusals⟩
      · rw [hdisabled] at hglobal
        cases hglobal
      · show SameBuckets cfg e.now (s.first.checkRateLimits cfg e.now e.ip).2.perIpRateLimiter _
        rw [checkRateLimits_of_disabled hdisabled, Limits.acquirePerIp, if_pos hperIp]
        exact hbuckets.refused hfirst.perIp horigin htime.2 hempty
    · cases hstep
  · obtain rfl := Option.some.inj hstep
    obtain ⟨hdecision, hsame, hafter⟩ := h.shared hkeeps htime
    exact ⟨horigin, hfirst', hsecond', hsame, hafter,
      congrArg₂ List.cons hdecision h.independent.1, hrefusals⟩

/-- **The two levels are independent**, in all runs in which they are kept apart: leaving out
requests that the per-IP limiter refuses changes no other decision, and a refusal by the
per-IP limiter leaves the global bucket as it was. -/
theorem limits_independent (cfg : LimitsConfig) (origin : ℕ) (events : List LimitsEvent)
    (hkeeps : StepsMeet (limitsStep cfg origin) (KeepsApart cfg) (initialRuns cfg origin) events) :
    Always (limitsStep cfg origin) Independent (initialRuns cfg origin) events :=
  always_of_stepsMeet (fun _ _ _ h hkeeps hstep => RunsAlike.step h hkeeps hstep)
    (fun _ h => h.independent) (runsAlike_initial cfg origin) hkeeps

/-- Two tokens for each IP, and without a global limiter. -/
def perIpOnly : LimitsConfig where
  globalEnabled := false
  global := twoTokens
  perIpEnabled := true
  perIp := shortTtl

/-- The first client sends three requests, of which the third is refused and left out in the
second run; the second client sends one. -/
def twoClients : List LimitsEvent :=
  [⟨0, [1], false⟩, ⟨0, [1], false⟩, ⟨0, [1], true⟩, ⟨0, [2], false⟩]

theorem limits_independent_perIpOnly :
    ((run (limitsStep perIpOnly 0) (initialRuns perIpOnly 0) twoClients).map
        TwoRuns.decisionsFirst) = some [.allowed, .allowed, .allowed] ∧
      Always (limitsStep perIpOnly 0) Independent (initialRuns perIpOnly 0) twoClients := by
  have htest : ∀ s e, decide (KeepsApart perIpOnly s e) = true → KeepsApart perIpOnly s e :=
    fun _ _ => of_decide_eq_true
  refine ⟨by decide +kernel, limits_independent perIpOnly 0 twoClients ?_⟩
  exact stepsMeet_of_stepsCheck htest (by decide +kernel)

theorem threeTokens_pos : (0 : UInt64) < 3 := by decide

theorem threeTokens_lt : (3 : UInt64) < 2147483648 := by decide

/-- Two tokens for each IP, and three for all. -/
def bothLevels : LimitsConfig where
  globalEnabled := true
  global :=
    { maxTokens := 3
      refillTokensPerSecond := 1
      maxTokens_pos := threeTokens_pos
      refill_pos := UInt64.zero_lt_one
      maxTokens_lt := threeTokens_lt
      refill_lt := twoTokens.refill_lt }
  perIpEnabled := true
  perIp := shortTtl

/-- **A client over its limit uses up the budget of the others**: the request of the second
client is refused, because of one that the first client was refused. -/
theorem limits_not_independent :
    ¬ ∀ (cfg : LimitsConfig) (origin : ℕ) (events : List LimitsEvent),
      Always (limitsStep cfg origin) Independent (initialRuns cfg origin) events := by
  intro hall
  have hrun : ((run (limitsStep bothLevels 0) (initialRuns bothLevels 0) twoClients).map fun s =>
      (s.decisionsFirst, s.decisionsSecond)) =
      some ([.rejectedGlobal, .allowed, .allowed], [.allowed, .allowed, .allowed]) := by
    decide +kernel
  obtain ⟨s, hs, hdecisions⟩ := Option.map_eq_some_iff.mp hrun
  have hind := always_iff.mp (hall bothLevels 0 twoClients) _ [] s (List.append_nil _).symm hs
  obtain ⟨hfirst, hsecond⟩ := Prod.mk.inj hdecisions
  rw [Independent, hfirst, hsecond] at hind
  exact absurd hind.1 (by decide)

end Proxy
end HttpDataDiod
