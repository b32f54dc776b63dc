import HttpDataDiod.Proxy.ClientBuckets

/-!
# Cleaning up idle clients

The background thread of `PerIPRateLimiter` drops the limiters of clients that were idle for
`PER_IP_CLEANUP_TTL_SECONDS`.  A client that comes back gets a new limiter with a full bucket,
while the one that was dropped may have been empty, and may have been refilled at other times.
Nothing relates the TTL to the size of the bucket and its refill rate, so a client can wait for
the cleanup and exceed the rate it is limited to.

Two limiters get the same requests here, and only one of them is cleaned up.

* `cleanupStep`: the two limiters.
* `FullAgain`: a bucket that has become like a new one.
* `cleanup_not_looser`: if a client whose limiter was dropped comes back only when its bucket
  would be like a new one, then the cleanups grant it nothing in addition.
* `cleanup_looser`: a client that comes back earlier.
-/

namespace HttpDataDiod
namespace Proxy

open ByteText Transition

/-! ## Two limiters -/

/-- The time, a limiter with its cleanups and one without, and whom they granted a token. -/
structure CleanupState where
  now : ℕ
  cleaned : PerIpRateLimiter
  kept : PerIpRateLimiter
  grantedCleaned : List Bytes
  grantedKept : List Bytes

/-- A request, or a run of `cleanup_expired_ips`. -/
inductive CleanupEvent where
  | request (now : ℕ) (ip : Bytes)
  | cleanup (now : ℕ)

/-- The IP, if it was granted a token. -/
def grantedTo (ip : Bytes) (granted : Bool) : List Bytes := if granted then [ip] else []

/-- The time does not go back and does not leave the span of the clock. -/
def TimeGoesOn (origin before now : ℕ) : Prop := before ≤ now ∧ now - origin < clockSpan

instance (origin before now : ℕ) : Decidable (TimeGoesOn origin before now) :=
  inferInstanceAs (Decidable (_ ∧ _))

/-- One step.  No IP has to go for another one. -/
def cleanupStep (cfg : PerIpConfig) (origin : ℕ) (s : CleanupState) :
    CleanupEvent → Option CleanupState
  | .request now ip =>
    if TimeGoesOn origin s.now now ∧ evictedFor cfg ip s.cleaned = none ∧
        evictedFor cfg ip s.kept = none then
      let cleaned := s.cleaned.acquire cfg now ip
      let kept := s.kept.acquire cfg now ip
      some
        { now
          cleaned := cleaned.2
          kept := kept.2
          grantedCleaned := grantedTo ip cleaned.1 ++ s.grantedCleaned
          grantedKept := grantedTo ip kept.1 ++ s.grantedKept }
    else none
  | .cleanup now =>
    if TimeGoesOn origin s.now now then
      some { s with now, cleaned := s.cleaned.doCleanupExpired cfg now }
    else none

/-- Two new limiters. -/
def initialCleanup (cfg : PerIpConfig) (origin : ℕ) : CleanupState where
  now := origin
  cleaned := .new cfg
  kept := .new cfg
  grantedCleaned := []
  grantedKept := []

/-- No IP was granted more with the cleanups than without. -/
def NotLooser (s : CleanupState) : Prop :=
  ∀ ip, s.grantedCleaned.count ip ≤ s.grantedKept.count ip

/-! ## The condition -/

/-- A whole number of seconds has passed since the last refill, and enough of them to fill
the bucket. -/
def FullAgain (cfg : PerIpConfig) (now : ℕ) (b : TokenBucket.Bucket) : Prop :=
  nsPerSecond ∣ now - b.last ∧
    cfg.bucket.maxTokens.toNat ≤
      b.tokens + (now - b.last) / nsPerSecond * cfg.bucket.refillTokensPerSecond.toNat

instance (cfg : PerIpConfig) (now : ℕ) (b : TokenBucket.Bucket) :
    Decidable (FullAgain cfg now b) :=
  inferInstanceAs (Decidable (_ ∧ _))

/-- A client whose limiter was dropped comes back when the bucket it would have had is like a
new one. -/
def ReturnsWhenFull (cfg : PerIpConfig) (s : CleanupState) : CleanupEvent → Prop
  | .request now ip => bucketOf s.cleaned ip = none →
      ∀ b ∈ bucketOf s.kept ip, FullAgain cfg now b
  | .cleanup _ => True

instance (cfg : PerIpConfig) (s : CleanupState) :
    (e : CleanupEvent) → Decidable (ReturnsWhenFull cfg s e)
  | .request now ip => inferInstanceAs (Decidable (bucketOf s.cleaned ip = none →
      ∀ b ∈ bucketOf s.kept ip, FullAgain cfg now b))
  | .cleanup _ => inferInstanceAs (Decidable True)

/-! ## The two limiters decide alike -/

variable {cfg : PerIpConfig} {origin now : ℕ} {s s' : CleanupState}

theorem refill_full (p : TokenBucket.Params) (now : ℕ) :
    TokenBucket.refill p now (TokenBucket.full p now) = TokenBucket.full p now :=
  TokenBucket.refill_eq_self (Nat.le_refl _) (Nat.lt_add_of_pos_right p.period_pos)

/-- Such a bucket is refilled to a new one. -/
theorem FullAgain.refill {b : TokenBucket.Bucket} (h : FullAgain cfg now b) (hlast : b.last ≤ now) :
    TokenBucket.refill cfg.bucket.params now b = TokenBucket.full cfg.bucket.params now := by
  have hticks : (now - b.last) / nsPerSecond * nsPerSecond = now - b.last :=
    Nat.div_mul_cancel h.1
  ext
  · exact Nat.min_eq_right h.2
  · show b.last + (now - b.last) / nsPerSecond * nsPerSecond = now
    omega

/-- Both limiters are in order, they have granted the same, and where the first still has a
bucket, the second has the same one. -/
structure Alike (cfg : PerIpConfig) (origin : ℕ) (s : CleanupState) : Prop where
  origin_le : origin ≤ s.now
  cleaned : BucketsInv cfg origin s.now s.cleaned
  kept : BucketsInv cfg origin s.now s.kept
  granted : s.grantedCleaned = s.grantedKept
  buckets : ∀ ip b, bucketOf s.cleaned ip = some b → bucketOf s.kept ip = some b

theorem alike_initial (cfg : PerIpConfig) (origin : ℕ) :
    Alike cfg origin (initialCleanup cfg origin) where
  origin_le := Nat.le_refl _
  cleaned := bucketsInv_new cfg origin origin
  kept := bucketsInv_new cfg origin origin
  granted := rfl
  buckets := nofun

/-- A bucket has no refill in the future. -/
theorem BucketsInv.last_le {t : ℕ} {l : PerIpRateLimiter} {ip : Bytes} {b : TokenBucket.Bucket}
    (h : BucketsInv cfg origin t l) (hb : bucketOf l ip = some b) : b.last ≤ t := by
  obtain ⟨e, he, rfl⟩ := Option.map_eq_some_iff.mp hb
  exact (h.fits ip e (LinkedMap.mem_of_lookup he)).last_le

/-- The two buckets that a request meets answer alike. -/
theorem Alike.request_eq (h : Alike cfg origin s) {ip : Bytes} (hnow : s.now ≤ now)
    (hreturns : ReturnsWhenFull cfg s (.request now ip)) :
    TokenBucket.request cfg.bucket.params now (bucketFor cfg now ip s.cleaned) =
      TokenBucket.request cfg.bucket.params now (bucketFor cfg now ip s.kept) := by
  unfold bucketFor
  cases hcleaned : bucketOf s.cleaned ip with
  | some b => rw [h.buckets ip b hcleaned]
  | none =>
    cases hkept : bucketOf s.kept ip with
    | none => rfl
    | some b =>
      have hlast := Nat.le_trans (h.kept.last_le hkept) hnow
      have hfull := (hreturns hcleaned b hkept).refill hlast
      unfold TokenBucket.request
      rw [Option.getD_none, Option.getD_some, refill_full, hfull]

theorem Alike.step {e : CleanupEvent} (h : Alike cfg origin s) (hreturns : ReturnsWhenFull cfg s e)
    (hstep : cleanupStep cfg origin s e = some s') : Alike cfg origin s' := by
  cases e with
  | request now ip =>
    simp only [cleanupStep] at hstep
    split at hstep
    · rename_i hguard
      obtain ⟨⟨hnow, hspan⟩, hevicted, hevicted'⟩ := hguard
      obtain rfl := Option.some.inj hstep
      have horigin := Nat.le_trans h.origin_le hnow
      obtain ⟨hcleaned, hgranted, hbuckets⟩ :=
        acquire_buckets (h.cleaned.later hnow) horigin hspan ip
      obtain ⟨hkept, hgranted', hbuckets'⟩ := acquire_buckets (h.kept.later hnow) horigin hspan ip
      have hsame := h.request_eq hnow hreturns
      refine ⟨horigin, hcleaned, hkept, ?_, fun k b hb => ?_⟩
      · show grantedTo ip _ ++ s.grantedCleaned = grantedTo ip _ ++ s.grantedKept
        rw [hgranted, hgranted', hsame, h.granted]
      · rw [hbuckets k, hevicted, hsame] at hb
        rw [hbuckets' k, hevicted']
        by_cases hk : k = ip
        · rw [if_pos hk] at hb ⊢
          exact hb
        · rw [if_neg hk, if_neg (Option.some_ne_none k).symm] at hb ⊢
          exact h.buckets k b hb
    · cases hstep
  | cleanup now =>
    simp only [cleanupStep] at hstep
    split at hstep
    · rename_i hguard
      obtain rfl := Option.some.inj hstep
      obtain ⟨hcleaned, hbuckets⟩ := cleanup_buckets (h.cleaned.later hguard.1)
      exact ⟨Nat.le_trans h.origin_le hguard.1, hcleaned, h.kept.later hguard.1, h.granted,
        fun k b hb => h.buckets k b (hbuckets k b hb)⟩
    · cases hstep

/-- **The cleanups grant nothing in addition**, for all IPs and all schedules of requests and
cleanups, if the clients whose limiters were dropped come back when the buckets they would
have had are like new ones. -/
theorem cleanup_not_looser (cfg : PerIpConfig) (origin : ℕ) (events : List CleanupEvent)
    (hreturns : StepsMeet (cleanupStep cfg origin) (ReturnsWhenFull cfg)
      (initialCleanup cfg origin) events) :
    Always (cleanupStep cfg origin) NotLooser (initialCleanup cfg origin) events := by
  refine always_of_stepsMeet (fun s e s' h hreturns hstep => Alike.step h hreturns hstep)
    (fun s h ip => ?_) (alike_initial cfg origin) hreturns
  rw [h.granted]

/-- Two tokens for every IP, one more for every second, and a TTL of one second. -/
def shortTtl : PerIpConfig where
  bucket := twoTokens
  maxIps := 10
  cleanupIntervalSeconds := 1
  maxIps_pos := by decide
  maxIps_lt := by decide

/-- A client that comes back after five seconds, when its bucket would be full. -/
def lateReturn : List CleanupEvent :=
  [.request 0 [1], .request 0 [1], .cleanup (5 * nsPerSecond), .request (5 * nsPerSecond) [1]]

theorem cleanup_not_looser_lateReturn :
    ((run (cleanupStep shortTtl 0) (initialCleanup shortTtl 0) lateReturn).map fun s =>
        (s.grantedCleaned, s.grantedKept)) = some ([[1], [1], [1]], [[1], [1], [1]]) ∧
      Always (cleanupStep shortTtl 0) NotLooser (initialCleanup shortTtl 0) lateReturn := by
  have htest : ∀ s e, decide (ReturnsWhenFull shortTtl s e) = true → ReturnsWhenFull shortTtl s e :=
    fun _ _ => of_decide_eq_true
  refine ⟨by decide +kernel, cleanup_not_looser shortTtl 0 lateReturn ?_⟩
  exact stepsMeet_of_stepsCheck htest (by decide +kernel)

/-- A client uses its two tokens and comes back after one second, when its limiter has been
dropped. -/
def earlyReturn : List CleanupEvent :=
  [.request 0 [1], .request 0 [1], .cleanup nsPerSecond, .request nsPerSecond [1],
    .request nsPerSecond [1]]

/-- **A cleanup loosens the limit**: four requests are granted instead of three. -/
theorem cleanup_looser :
    ¬ ∀ (cfg : PerIpConfig) (origin : ℕ) (events : List CleanupEvent),
      Always (cleanupStep cfg origin) NotLooser (initialCleanup cfg origin) events := by
  intro hall
  have hrun : ((run (cleanupStep shortTtl 0) (initialCleanup shortTtl 0) earlyReturn).map fun s =>
      (s.grantedCleaned.count [1], s.grantedKept.count [1])) = some (4, 3) := by decide +kernel
  obtain ⟨s, hs, hcounts⟩ := Option.map_eq_some_iff.mp hrun
  have hle := always_iff.mp (hall shortTtl 0 earlyReturn) _ [] s (List.append_nil _).symm hs [1]
  obtain ⟨hfour, hthree⟩ := Prod.mk.inj hcounts
  omega

end Proxy
end HttpDataDiod
