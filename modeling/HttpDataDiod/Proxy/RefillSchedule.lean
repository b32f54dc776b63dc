import HttpDataDiod.Proxy.RateLimiter

/-!
# Polling the rate limiter

A call that is turned away has refilled the bucket all the same.  The refill fills in whole
seconds and moves the last refill on by them, so that the rest of a second is kept; and the
clamp at the maximum does not see how often it was applied.

* `SteadyTime`: a time of the steady clock.
* `refillSchedule`: the refills at some times, one after the other.
* `refill_of_schedule`: a schedule of refills that ends at some time leaves the limiter as the
  refill at that time does.
-/

namespace HttpDataDiod
namespace Proxy

/-- A time point of the steady clock: nanoseconds in a signed 64-bit integer. -/
structure SteadyTime where
  ns : ℕ
  ns_lt : ns < 9223372036854775808

/-- The refills at the times of a schedule. -/
def refillSchedule (cfg : BucketConfig) (l : RateLimiter) (times : List SteadyTime) : RateLimiter :=
  times.foldl (fun l t => l.refillWith cfg t.ns) l

/-- Nothing overflows in the refill at some time. -/
def RefillFits (cfg : BucketConfig) (l : RateLimiter) (now : SteadyTime) : Prop :=
  (now.ns - l.lastRefill) / nsPerSecond * cfg.refillTokensPerSecond.toNat + cfg.maxTokens.toNat <
    18446744073709551616

instance (cfg : BucketConfig) (l : RateLimiter) (now : SteadyTime) :
    Decidable (RefillFits cfg l now) :=
  inferInstanceAs (Decidable (_ < _))

variable {cfg : BucketConfig} {l : RateLimiter}

/-- A limiter is its bucket and its counters. -/
theorem RateLimiter.eq_of_bucket {l l' : RateLimiter} (hbucket : l.bucket = l'.bucket)
    (hstats : l.stats = l'.stats) : l = l' := by
  obtain ⟨tokens, last, stats⟩ := l
  obtain ⟨tokens', last', stats'⟩ := l'
  have htokens : tokens.toNat = tokens'.toNat := congrArg TokenBucket.Bucket.tokens hbucket
  have hlast : last = last' := congrArg TokenBucket.Bucket.last hbucket
  obtain rfl := UInt64.toNat_inj.mp htokens
  obtain rfl := hlast
  obtain rfl : stats = stats' := hstats
  rfl

theorem stats_refillWith (now : ℕ) : (l.refillWith cfg now).stats = l.stats := by
  unfold RateLimiter.refillWith
  split
  · rfl
  · rfl

theorem tokens_refillWith_le (htokens : l.tokens.toNat ≤ cfg.maxTokens.toNat) (now : ℕ) :
    (l.refillWith cfg now).tokens.toNat ≤ cfg.maxTokens.toNat := by
  unfold RateLimiter.refillWith
  split
  · show (stdMin _ _).toNat ≤ _
    rw [toNat_stdMin]
    exact Nat.min_le_right _ _
  · exact htokens

/-- The refill of a bucket at a time at which nothing overflows. -/
theorem bucket_refillWith_of_fits {now : SteadyTime}
    (htokens : l.tokens.toNat ≤ cfg.maxTokens.toNat) (hfits : RefillFits cfg l now) :
    (l.refillWith cfg now.ns).bucket =
      TokenBucket.fill cfg.maxTokens.toNat cfg.refillTokensPerSecond.toNat nsPerSecond now.ns
        l.bucket := by
  have hns := now.ns_lt
  have hperiods : (now.ns - l.lastRefill) / nsPerSecond ≤ now.ns / nsPerSecond :=
    Nat.div_le_div_right (Nat.sub_le _ _)
  unfold RefillFits at hfits
  refine bucket_refillWith htokens ?_ (by omega)
  unfold nsPerSecond at hperiods ⊢
  unfold msPerSecond
  omega

/-- An earlier refill fits as well, and leaves a later one that fits. -/
theorem RefillFits.after {now later : SteadyTime} (hfits : RefillFits cfg l later)
    (htokens : l.tokens.toNat ≤ cfg.maxTokens.toNat) (hlast : l.lastRefill ≤ now.ns)
    (hle : now.ns ≤ later.ns) :
    RefillFits cfg l now ∧ RefillFits cfg (l.refillWith cfg now.ns) later := by
  have hnow : RefillFits cfg l now := by
    have hperiods : (now.ns - l.lastRefill) / nsPerSecond ≤
        (later.ns - l.lastRefill) / nsPerSecond := Nat.div_le_div_right (by omega)
    have := Nat.mul_le_mul_right cfg.refillTokensPerSecond.toNat hperiods
    unfold RefillFits at hfits ⊢
    omega
  refine ⟨hnow, ?_⟩
  have hbucket := bucket_refillWith_of_fits htokens hnow
  have hmoved : l.lastRefill ≤ (l.refillWith cfg now.ns).lastRefill := by
    have hlastEq := congrArg TokenBucket.Bucket.last hbucket
    show l.bucket.last ≤ (l.refillWith cfg now.ns).bucket.last
    rw [hlastEq]
    exact Nat.le_add_right _ _
  have hperiods : (later.ns - (l.refillWith cfg now.ns).lastRefill) / nsPerSecond ≤
      (later.ns - l.lastRefill) / nsPerSecond := Nat.div_le_div_right (by omega)
  have := Nat.mul_le_mul_right cfg.refillTokensPerSecond.toNat hperiods
  unfold RefillFits at hfits ⊢
  omega

/-- **A schedule fills the bucket at its times**, and nothing in it overflows. -/
theorem refillSchedule_spec {times : List SteadyTime} {later : SteadyTime}
    (htokens : l.tokens.toNat ≤ cfg.maxTokens.toNat) (hfits : RefillFits cfg l later)
    (hsorted : times.Pairwise fun t u => t.ns ≤ u.ns) (hlast : ∀ t ∈ times, l.lastRefill ≤ t.ns)
    (hlater : ∀ t ∈ times, t.ns ≤ later.ns) :
    (refillSchedule cfg l times).bucket =
        (times.map SteadyTime.ns).foldl (fun b t => TokenBucket.fill cfg.maxTokens.toNat
          cfg.refillTokensPerSecond.toNat nsPerSecond t b) l.bucket ∧
      (refillSchedule cfg l times).tokens.toNat ≤ cfg.maxTokens.toNat ∧
      (refillSchedule cfg l times).stats = l.stats ∧
      RefillFits cfg (refillSchedule cfg l times) later := by
  induction times generalizing l with
  | nil => exact ⟨rfl, htokens, rfl, hfits⟩
  | cons t times ih =>
    obtain ⟨hle, hsorted⟩ := List.pairwise_cons.mp hsorted
    have ht : l.lastRefill ≤ t.ns := hlast t List.mem_cons_self
    obtain ⟨hnow, hafter⟩ := hfits.after htokens ht (hlater t List.mem_cons_self)
    have hbucket := bucket_refillWith_of_fits htokens hnow
    have hmoved : (l.refillWith cfg t.ns).lastRefill ≤ t.ns := by
      show (l.refillWith cfg t.ns).bucket.last ≤ t.ns
      rw [hbucket]
      exact TokenBucket.fill_last_le ht
    obtain ⟨hrest, hkept, hstats, hend⟩ := ih (tokens_refillWith_le htokens t.ns) hafter hsorted
      (fun u hu => hmoved.trans (hle u hu)) fun u hu => hlater u (List.mem_cons_of_mem t hu)
    refine ⟨?_, hkept, hstats.trans (stats_refillWith t.ns), hend⟩
    rw [List.map_cons, List.foldl_cons, ← hbucket]
    exact hrest

/-- **Polling does not matter**: refills at any times on the way leave the tokens, the last
refill and the counters that the refill at the end leaves without them. -/
theorem refill_of_schedule (cfg : BucketConfig) (l : RateLimiter) (times : List SteadyTime)
    (later : SteadyTime) (htokens : l.tokens ≤ cfg.maxTokens)
    (hsorted : (times ++ [later]).Pairwise fun t u => t.ns ≤ u.ns)
    (hlast : ∀ t ∈ times ++ [later], l.lastRefill ≤ t.ns) (hfits : RefillFits cfg l later) :
    refillSchedule cfg l (times ++ [later]) = l.refillWith cfg later.ns := by
  have htokensNat : l.tokens.toNat ≤ cfg.maxTokens.toNat := UInt64.le_iff_toNat_le.mp htokens
  obtain ⟨hpairs, -, hlater⟩ := List.pairwise_append.mp hsorted
  have hbefore : ∀ t ∈ times, t.ns ≤ later.ns := fun t ht =>
    hlater t ht later List.mem_cons_self
  have hfrom : ∀ t ∈ times, l.lastRefill ≤ t.ns := fun t ht =>
    hlast t (List.mem_append_left _ ht)
  obtain ⟨hbucket, hkept, hstats, hend⟩ :=
    refillSchedule_spec htokensNat hfits hpairs hfrom hbefore
  have hstep : refillSchedule cfg l (times ++ [later]) =
      (refillSchedule cfg l times).refillWith cfg later.ns := by
    rw [refillSchedule, List.foldl_append]
    rfl
  rw [hstep]
  refine RateLimiter.eq_of_bucket ?_ ?_
  · rw [bucket_refillWith_of_fits hkept hend, bucket_refillWith_of_fits htokensNat hfits, hbucket]
    refine TokenBucket.fill_foldl (Nat.succ_pos _) (List.pairwise_map.mpr hpairs) ?_ ?_
    · exact List.forall_mem_map.mpr hfrom
    · exact List.forall_mem_map.mpr hbefore
  · rw [stats_refillWith, stats_refillWith, hstats]

/-- Three polls within five seconds, at a rate of seven tokens. -/
theorem refill_of_schedule_threePolls :
    refillSchedule ⟨100, 7⟩ ⟨2, 500, ⟨0, 0, 0⟩⟩
        [⟨1700000000, by decide⟩, ⟨1900000000, by decide⟩, ⟨3600000000, by decide⟩,
          ⟨5000000499, by decide⟩] =
      (⟨2, 500, ⟨0, 0, 0⟩⟩ : RateLimiter).refillWith ⟨100, 7⟩ 5000000499 :=
  refill_of_schedule ⟨100, 7⟩ _ [⟨1700000000, by decide⟩, ⟨1900000000, by decide⟩,
    ⟨3600000000, by decide⟩] ⟨5000000499, by decide⟩ (by decide) (by decide) (by decide)
    (by decide)

end Proxy
end HttpDataDiod
