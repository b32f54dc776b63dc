import HttpDataDiod.Lib.TokenBucket
import HttpDataDiod.Lib.Transition
import Mathlib.Logic.Function.Basic

/-!
# The token bucket of the rate limiter

`RateLimiter` refills its bucket under a mutex and takes tokens out of it without one: a
call loads the token count and tries to exchange it for one less, until it succeeds or the
count is zero.  So the refills and the tokens taken by different threads interleave, and
time passes between the steps of one call.

* `RateLimiter.refill`, `acquireNext`: the refill, and the steps of one call of `acquire`.
* `bucket_refill`: the 64-bit arithmetic of the refill is that of a token bucket.
* `limiterStep`: the calls of any number of threads, with a clock that moves on.
* `limiter_bounded`: the token count stays within the configured maximum, the refill does
  not overflow, and a window of `d` seconds grants at most
  `max_tokens + refill_rate * (⌊d⌋ + 1)` of the calls that refilled inside the window.
* `grants_exceed_window`: calls that refilled before the window come on top of that.
-/

namespace HttpDataDiod
namespace Proxy

open Transition

/-! ## The limiter -/

/-- `RateLimiterCounters`. -/
structure RateLimiterCounters where
  totalRequests : UInt64
  allowedRequests : UInt64
  rejectedRequests : UInt64
  deriving DecidableEq

namespace RateLimiterCounters

/-- `count_request`. -/
def countRequest (c : RateLimiterCounters) : RateLimiterCounters :=
  { c with totalRequests := c.totalRequests + 1 }

/-- `count_allowed`. -/
def countAllowed (c : RateLimiterCounters) : RateLimiterCounters :=
  { c with allowedRequests := c.allowedRequests + 1 }

/-- `count_rejected`. -/
def countRejected (c : RateLimiterCounters) : RateLimiterCounters :=
  { c with rejectedRequests := c.rejectedRequests + 1 }

end RateLimiterCounters

/-- `RateLimiter::Config`.  `validate_rate_limiting` lets only positive values of type `int`
pass. -/
structure RateLimiterConfig where
  maxTokens : UInt64
  refillTokensPerSecond : UInt64
  maxTokens_pos : 0 < maxTokens
  refill_pos : 0 < refillTokensPerSecond
  maxTokens_lt : maxTokens < 2147483648
  refill_lt : refillTokensPerSecond < 2147483648

/-- `RateLimiter::Config` as the constructor takes it: any two numbers. -/
structure BucketConfig where
  maxTokens : UInt64
  refillTokensPerSecond : UInt64

/-- `BucketState` and the counters.  The times of the steady clock are nanoseconds. -/
structure RateLimiter where
  tokens : UInt64
  lastRefill : ℕ
  stats : RateLimiterCounters
  deriving DecidableEq

/-- `g_rate_limiter_ms_per_second`. -/
def msPerSecond : ℕ := 1000

/-- The nanoseconds of a millisecond. -/
def nsPerMs : ℕ := 1000000

/-- The nanoseconds of a second. -/
def nsPerSecond : ℕ := 1000000000

/-- `std::min`. -/
def stdMin (a b : UInt64) : UInt64 := if b < a then b else a

namespace RateLimiter

/-- The constructor: a full bucket. -/
def new (cfg : RateLimiterConfig) (now : ℕ) : RateLimiter :=
  { tokens := cfg.maxTokens, lastRefill := now, stats := ⟨0, 0, 0⟩ }

/-- The milliseconds since the last refill. -/
def elapsed (now : ℕ) (l : RateLimiter) : ℕ := (now - l.lastRefill) / nsPerMs

/-- `refill`.  Whole seconds are filled in, and the last refill moves on by them. -/
def refill (cfg : RateLimiterConfig) (now : ℕ) (l : RateLimiter) : RateLimiter :=
  if msPerSecond ≤ l.elapsed now then
    let ticks := UInt64.ofNat (l.elapsed now / msPerSecond)
    let tokensToAdd := ticks * cfg.refillTokensPerSecond
    { l with
      tokens := stdMin (l.tokens + tokensToAdd) cfg.maxTokens
      lastRefill := l.lastRefill + (ticks * UInt64.ofNat msPerSecond).toNat * nsPerMs }
  else l

/-- `refill`, whatever the configured numbers are. -/
def refillWith (cfg : BucketConfig) (now : ℕ) (l : RateLimiter) : RateLimiter :=
  if msPerSecond ≤ l.elapsed now then
    let ticks := UInt64.ofNat (l.elapsed now / msPerSecond)
    let tokensToAdd := ticks * cfg.refillTokensPerSecond
    { l with
      tokens := stdMin (l.tokens + tokensToAdd) cfg.maxTokens
      lastRefill := l.lastRefill + (ticks * UInt64.ofNat msPerSecond).toNat * nsPerMs }
  else l

/-- `acquire`, when no other thread uses the limiter during the call. -/
def acquire (cfg : RateLimiterConfig) (now : ℕ) (l : RateLimiter) : Bool × RateLimiter :=
  let l := refill cfg now { l with stats := l.stats.countRequest }
  if 0 < l.tokens then
    (true, { l with tokens := l.tokens - 1, stats := l.stats.countAllowed })
  else (false, { l with stats := l.stats.countRejected })

end RateLimiter

/-- Where a call of `acquire` stands. -/
inductive AcquirePhase where
  /-- Before `count_request`. -/
  | called
  /-- Before `refill`. -/
  | counted
  /-- Before the load of the token count. -/
  | refilled
  /-- In front of the compare-exchange, with the count it expects. -/
  | looping (expected : UInt64)
  /-- The exchange succeeded, before `count_allowed`. -/
  | granted
  /-- No token was left, before `count_rejected`. -/
  | refused
  | returned (allowed : Bool)
  deriving DecidableEq

/-- The head of the `while` loop. -/
def whileTokens (expected : UInt64) : AcquirePhase :=
  if 0 < expected then .looping expected else .refused

/-- The next step of a call.  A weak compare-exchange may fail although the count is the
expected one; a failed one loads the count. -/
def acquireNext (cfg : RateLimiterConfig) (now : ℕ) (spurious : Bool) (l : RateLimiter) :
    AcquirePhase → Option (AcquirePhase × RateLimiter)
  | .called => some (.counted, { l with stats := l.stats.countRequest })
  | .counted => some (.refilled, l.refill cfg now)
  | .refilled => some (whileTokens l.tokens, l)
  | .looping expected =>
    if l.tokens = expected ∧ spurious = false then
      some (.granted, { l with tokens := expected - 1 })
    else some (whileTokens l.tokens, l)
  | .granted => some (.returned true, { l with stats := l.stats.countAllowed })
  | .refused => some (.returned false, { l with stats := l.stats.countRejected })
  | .returned _ => none

/-! ## The refill is that of a token bucket -/

namespace RateLimiterConfig

variable (cfg : RateLimiterConfig)

theorem maxTokens_toNat_pos : 0 < cfg.maxTokens.toNat := UInt64.lt_iff_toNat_lt.mp cfg.maxTokens_pos

theorem refill_toNat_pos : 0 < cfg.refillTokensPerSecond.toNat :=
  UInt64.lt_iff_toNat_lt.mp cfg.refill_pos

theorem maxTokens_toNat_lt : cfg.maxTokens.toNat < 2147483648 :=
  UInt64.lt_iff_toNat_lt.mp cfg.maxTokens_lt

theorem refill_toNat_lt : cfg.refillTokensPerSecond.toNat < 2147483648 :=
  UInt64.lt_iff_toNat_lt.mp cfg.refill_lt

/-- The bucket that the configuration describes. -/
def params : TokenBucket.Params where
  cap := cfg.maxTokens.toNat
  rate := cfg.refillTokensPerSecond.toNat
  period := nsPerSecond
  cap_pos := cfg.maxTokens_toNat_pos
  rate_pos := cfg.refill_toNat_pos
  period_pos := Nat.succ_pos _

end RateLimiterConfig

theorem toNat_stdMin (a b : UInt64) : (stdMin a b).toNat = min a.toNat b.toNat := by
  have hlt := UInt64.lt_iff_toNat_lt (a := b) (b := a)
  rw [stdMin]
  split
  · rename_i h
    exact (Nat.min_eq_right (Nat.le_of_lt (hlt.mp h))).symm
  · rename_i h
    exact (Nat.min_eq_left (Nat.not_lt.mp (mt hlt.mpr h))).symm

/-- The bucket of a limiter. -/
def RateLimiter.bucket (l : RateLimiter) : TokenBucket.Bucket := ⟨l.tokens.toNat, l.lastRefill⟩

/-- The span that the clock keeps below: `2 ^ 32` seconds. -/
def clockSpan : ℕ := 4294967296 * nsPerSecond

/-- The arithmetic of the refill stays within its 64-bit types: the difference of two time
points, the product for the new tokens, their sum with the old ones and the milliseconds by
which the last refill moves on. -/
structure RefillExact (cfg : RateLimiterConfig) (now : ℕ) (l : RateLimiter) : Prop where
  elapsed_lt : now - l.lastRefill < 9223372036854775808
  ticks_lt : l.elapsed now / msPerSecond < 18446744073709551616
  tokensToAdd_lt :
    l.elapsed now / msPerSecond * cfg.refillTokensPerSecond.toNat < 18446744073709551616
  sum_lt : l.tokens.toNat + l.elapsed now / msPerSecond * cfg.refillTokensPerSecond.toNat <
    18446744073709551616
  advance_lt : l.elapsed now / msPerSecond * msPerSecond < 9223372036854775808

variable {cfg : RateLimiterConfig} {now : ℕ} {l : RateLimiter}

theorem elapsed_div (now : ℕ) (l : RateLimiter) :
    l.elapsed now / msPerSecond = (now - l.bucket.last) / nsPerSecond := by
  rw [RateLimiter.elapsed, Nat.div_div_eq_div_mul]
  rfl

/-- **Within the span of the clock the refill does not overflow.** -/
theorem refillExact_of_span (htokens : l.tokens.toNat ≤ cfg.maxTokens.toNat)
    (hspan : now - l.lastRefill < clockSpan) : RefillExact cfg now l := by
  have hmax := cfg.maxTokens_toNat_lt
  have hrate := cfg.refill_toNat_lt
  have hticks : l.elapsed now / msPerSecond < 4294967296 := by
    rw [RateLimiter.elapsed, Nat.div_div_eq_div_mul]
    exact Nat.div_lt_of_lt_mul (by rw [Nat.mul_comm]; exact hspan)
  have hprod : l.elapsed now / msPerSecond * cfg.refillTokensPerSecond.toNat ≤
      4294967295 * 2147483647 := Nat.mul_le_mul (by omega) (by omega)
  refine ⟨?_, by omega, by omega, by omega, ?_⟩
  · unfold clockSpan nsPerSecond at hspan
    omega
  · unfold msPerSecond at hticks ⊢
    omega

/-- **The refill fills the bucket** when nothing in it overflows. -/
theorem bucket_refillWith {cfg : BucketConfig} (htokens : l.tokens.toNat ≤ cfg.maxTokens.toNat)
    (hadvance : (now - l.lastRefill) / nsPerSecond * msPerSecond < 18446744073709551616)
    (hsum : l.tokens.toNat + (now - l.lastRefill) / nsPerSecond * cfg.refillTokensPerSecond.toNat <
      18446744073709551616) :
    (l.refillWith cfg now).bucket =
      TokenBucket.fill cfg.maxTokens.toNat cfg.refillTokensPerSecond.toNat nsPerSecond now
        l.bucket := by
  have helapsed := elapsed_div now l
  obtain ⟨ticks, hticks⟩ : ∃ ticks, (now - l.lastRefill) / nsPerSecond = ticks := ⟨_, rfl⟩
  have hperiods : (now - l.bucket.last) / nsPerSecond = ticks := hticks
  rw [hticks] at hadvance hsum
  rw [hperiods] at helapsed
  rw [TokenBucket.fill_of_periods hperiods, RateLimiter.refillWith]
  split
  · have hofNat : (UInt64.ofNat (l.elapsed now / msPerSecond)).toNat = ticks := by
      rw [helapsed]
      refine UInt64.toNat_ofNat_of_lt' ?_
      unfold msPerSecond at hadvance
      show ticks < 18446744073709551616
      omega
    have htoAdd : (UInt64.ofNat (l.elapsed now / msPerSecond) * cfg.refillTokensPerSecond).toNat =
        ticks * cfg.refillTokensPerSecond.toNat := by
      rw [UInt64.toNat_mul, hofNat]
      exact Nat.mod_eq_of_lt (by omega)
    have hmoves : (UInt64.ofNat (l.elapsed now / msPerSecond) * UInt64.ofNat msPerSecond).toNat =
        ticks * msPerSecond := by
      rw [UInt64.toNat_mul, hofNat]
      exact Nat.mod_eq_of_lt hadvance
    ext
    · show (stdMin (l.tokens + _) cfg.maxTokens).toNat =
        min (l.tokens.toNat + _ * _) cfg.maxTokens.toNat
      rw [toNat_stdMin, UInt64.toNat_add, htoAdd, Nat.mod_eq_of_lt hsum]
    · show l.lastRefill + _ = l.lastRefill + _ * nsPerSecond
      rw [hmoves, Nat.mul_assoc]
      rfl
  · rename_i hms
    have hzero : ticks = 0 := by
      rw [← helapsed]
      exact Nat.div_eq_of_lt (Nat.not_le.mp hms)
    ext
    · show l.tokens.toNat = min (l.tokens.toNat + _ * _) cfg.maxTokens.toNat
      rw [hzero, Nat.zero_mul, Nat.add_zero, Nat.min_eq_left htokens]
    · show l.lastRefill = l.lastRefill + _ * _
      rw [hzero, Nat.zero_mul, Nat.add_zero]

/-- **The refill** is that of the token bucket. -/
theorem bucket_refill (htokens : l.tokens.toNat ≤ cfg.maxTokens.toNat)
    (hexact : RefillExact cfg now l) :
    (l.refill cfg now).bucket = TokenBucket.refill cfg.params now l.bucket := by
  have hadvance := hexact.advance_lt
  have hsum := hexact.sum_lt
  rw [elapsed_div] at hadvance hsum
  have hbucket := @bucket_refillWith now l ⟨cfg.maxTokens, cfg.refillTokensPerSecond⟩ htokens
    (Nat.lt_trans hadvance (by decide)) hsum
  rw [TokenBucket.refill_eq_fill]
  exact hbucket

/-- Taking a token out of a bucket that has one. -/
theorem bucket_take (hpos : 0 < l.tokens) :
    ({ l with tokens := l.tokens - 1 } : RateLimiter).bucket = TokenBucket.take l.bucket := by
  have hone : (1 : UInt64) ≤ l.tokens :=
    UInt64.le_iff_toNat_le.mpr (UInt64.lt_iff_toNat_lt.mp hpos)
  ext
  · exact UInt64.toNat_sub_of_le _ _ hone
  · rfl

/-! ## The steps of one call -/

/-- The call has refilled the bucket, and may still take a token. -/
def AcquirePhase.HasRefilled : AcquirePhase → Prop
  | .refilled | .looping _ => True
  | _ => False

theorem whileTokens_eq_looping {count expected : UInt64}
    (h : whileTokens count = .looping expected) :
    0 < expected := by
  unfold whileTokens at h
  split at h
  · cases h
    assumption
  · cases h

theorem whileTokens_ne (count : UInt64) :
    whileTokens count ≠ .granted ∧ whileTokens count ≠ .refilled := by
  unfold whileTokens
  split
  · exact ⟨AcquirePhase.noConfusion, AcquirePhase.noConfusion⟩
  · exact ⟨AcquirePhase.noConfusion, AcquirePhase.noConfusion⟩

/-- **What a step of a call does**: it refills the bucket, it takes a token, or it leaves the
bucket as it is. -/
theorem acquireNext_cases {spurious : Bool} {phase phase' : AcquirePhase} {l' : RateLimiter}
    (h : acquireNext cfg now spurious l phase = some (phase', l')) :
    (phase = .counted ∧ phase' = .refilled ∧ l' = l.refill cfg now) ∨
    (phase = .looping l.tokens ∧ phase' = .granted ∧ l' = { l with tokens := l.tokens - 1 }) ∨
    (phase ≠ .counted ∧ phase' ≠ .granted ∧ (phase'.HasRefilled → phase.HasRefilled) ∧
      (∀ expected, phase' = .looping expected → 0 < expected) ∧ l'.bucket = l.bucket) := by
  cases phase with
  | called =>
    cases h
    exact .inr (.inr ⟨nofun, nofun, nofun, nofun, rfl⟩)
  | counted =>
    cases h
    exact .inl ⟨rfl, rfl, rfl⟩
  | refilled =>
    cases h
    exact .inr (.inr ⟨nofun, (whileTokens_ne _).1, fun _ => trivial,
      fun _ => whileTokens_eq_looping, rfl⟩)
  | looping expected =>
    simp only [acquireNext] at h
    split at h
    · rename_i hexchanged
      obtain ⟨rfl, -⟩ := hexchanged
      cases h
      exact .inr (.inl ⟨rfl, rfl, rfl⟩)
    · cases h
      exact .inr (.inr ⟨nofun, (whileTokens_ne _).1, fun _ => trivial,
        fun _ => whileTokens_eq_looping, rfl⟩)
  | granted =>
    cases h
    exact .inr (.inr ⟨nofun, nofun, nofun, nofun, rfl⟩)
  | refused =>
    cases h
    exact .inr (.inr ⟨nofun, nofun, nofun, nofun, rfl⟩)
  | returned allowed => cases h

/-- The steps of a call that nobody interrupts are `acquire`. -/
theorem run_acquireNext (cfg : RateLimiterConfig) (now : ℕ) (l : RateLimiter) :
    ∃ n, run (fun (c : AcquirePhase × RateLimiter) (_ : Unit) =>
        acquireNext cfg now false c.2 c.1) (.called, l) (List.replicate n ()) =
      some (.returned (l.acquire cfg now).1, (l.acquire cfg now).2) := by
  by_cases hpos : 0 < (RateLimiter.refill cfg now { l with stats := l.stats.countRequest }).tokens
  · refine ⟨5, ?_⟩
    simp [List.replicate, run, acquireNext, whileTokens, RateLimiter.acquire, hpos]
  · refine ⟨4, ?_⟩
    simp [List.replicate, run, acquireNext, whileTokens, RateLimiter.acquire, hpos]

/-! ## The calls of many threads -/

/-- A call, and the time at which it last refilled the bucket. -/
structure Caller where
  phase : AcquirePhase
  refilledAt : ℕ

/-- A token that was granted: when its call refilled the bucket and when it took the token. -/
structure Grant where
  refilledAt : ℕ
  grantedAt : ℕ

/-- The limiter, the clock, the calls of the threads and the tokens granted so far. -/
structure LimiterState where
  clock : ℕ
  limiter : RateLimiter
  caller : ℕ → Caller
  grants : List Grant

/-- The clock moves on, a thread calls `acquire`, or a call makes its next step. -/
inductive LimiterEvent where
  | tick (ns : ℕ)
  | call (t : ℕ)
  | next (t : ℕ) (spurious : Bool)

/-- One step.  The clock does not leave its span since `origin`. -/
def limiterStep (cfg : RateLimiterConfig) (origin : ℕ) (s : LimiterState) :
    LimiterEvent → Option LimiterState
  | .tick ns =>
    if s.clock + ns - origin < clockSpan then some { s with clock := s.clock + ns } else none
  | .call t =>
    match (s.caller t).phase with
    | .returned _ =>
      some { s with caller := Function.update s.caller t { s.caller t with phase := .called } }
    | _ => none
  | .next t spurious =>
    (acquireNext cfg s.clock spurious s.limiter (s.caller t).phase).map fun r =>
      { s with
        limiter := r.2
        caller := Function.update s.caller t
          { phase := r.1
            refilledAt :=
              if (s.caller t).phase = .counted then s.clock else (s.caller t).refilledAt }
        grants :=
          if r.1 = .granted then ⟨(s.caller t).refilledAt, s.clock⟩ :: s.grants else s.grants }

/-- A new limiter, and nobody calls it. -/
def initialLimiter (cfg : RateLimiterConfig) (origin : ℕ) : LimiterState where
  clock := origin
  limiter := .new cfg origin
  caller := fun _ => ⟨.returned false, origin⟩
  grants := []

/-- The tokens granted within the `length` nanoseconds from `start`. -/
def grantsIn (start length : ℕ) (grants : List Grant) : ℕ :=
  grants.countP fun g => decide (start ≤ g.grantedAt ∧ g.grantedAt ≤ start + length)

/-- Those among them whose calls did not refill the bucket before `start`. -/
def grantsWithin (start length : ℕ) (grants : List Grant) : ℕ :=
  grants.countP fun g =>
    decide (start ≤ g.refilledAt ∧ start ≤ g.grantedAt ∧ g.grantedAt ≤ start + length)

/-- The bound for a window: `max_tokens + refill_rate * (⌊d⌋ + 1)`. -/
def windowBound (cfg : RateLimiterConfig) (length : ℕ) : ℕ :=
  cfg.maxTokens.toNat + cfg.refillTokensPerSecond.toNat * (length / nsPerSecond + 1)

/-- What holds of the limiter at any time. -/
structure LimiterBounded (cfg : RateLimiterConfig) (s : LimiterState) : Prop where
  tokens_le : s.limiter.tokens ≤ cfg.maxTokens
  /-- The count that a call will exchange for one less is not zero. -/
  expected_pos : ∀ t expected, (s.caller t).phase = .looping expected → 0 < expected
  refillExact : RefillExact cfg s.clock s.limiter
  window : ∀ start length, grantsWithin start length s.grants ≤ windowBound cfg length

/-! ## The invariants -/

variable {origin start length : ℕ} {s s' : LimiterState}

/-- **What one step does**: the clock moves on, a call refills the bucket, a call takes a
token, or a call moves on and leaves the bucket as it is. -/
theorem limiterStep_cases {e : LimiterEvent} (h : limiterStep cfg origin s e = some s') :
    (∃ ns, s.clock + ns - origin < clockSpan ∧ s' = { s with clock := s.clock + ns }) ∨
    (∃ t, s' = { s with
        limiter := s.limiter.refill cfg s.clock
        caller := Function.update s.caller t ⟨.refilled, s.clock⟩ }) ∨
    (∃ t, (s.caller t).phase = .looping s.limiter.tokens ∧ s' = { s with
        limiter := { s.limiter with tokens := s.limiter.tokens - 1 }
        caller := Function.update s.caller t ⟨.granted, (s.caller t).refilledAt⟩
        grants := ⟨(s.caller t).refilledAt, s.clock⟩ :: s.grants }) ∨
    (∃ t phase l, (phase.HasRefilled → (s.caller t).phase.HasRefilled) ∧
      (∀ expected, phase = .looping expected → 0 < expected) ∧ l.bucket = s.limiter.bucket ∧
      s' = { s with
        limiter := l
        caller := Function.update s.caller t ⟨phase, (s.caller t).refilledAt⟩ }) := by
  cases e with
  | tick ns =>
    simp only [limiterStep] at h
    split at h
    · cases h
      exact .inl ⟨ns, ‹_›, rfl⟩
    · cases h
  | call t =>
    simp only [limiterStep] at h
    split at h
    · cases h
      exact .inr (.inr (.inr ⟨t, .called, s.limiter, nofun, nofun, rfl, rfl⟩))
    · cases h
  | next t spurious =>
    obtain ⟨⟨phase, l⟩, hnext, rfl⟩ := Option.map_eq_some_iff.mp h
    rcases acquireNext_cases hnext with ⟨hphase, rfl, rfl⟩ | ⟨hphase, rfl, rfl⟩ |
      ⟨hcounted, hgranted, hrefilled, hpos, hbucket⟩
    · refine .inr (.inl ⟨t, ?_⟩)
      rw [if_pos hphase, if_neg nofun]
    · refine .inr (.inr (.inl ⟨t, hphase, ?_⟩))
      rw [if_neg (by rw [hphase]; exact nofun), if_pos rfl]
    · refine .inr (.inr (.inr ⟨t, phase, l, hrefilled, hpos, hbucket, ?_⟩))
      rw [if_neg hcounted, if_neg hgranted]

/-- The bucket and the clock: the last refill lies between the origin and now. -/
structure LimiterInv (cfg : RateLimiterConfig) (origin : ℕ) (s : LimiterState) : Prop where
  tokens_le : s.limiter.bucket.tokens ≤ cfg.maxTokens.toNat
  origin_le : origin ≤ s.limiter.bucket.last
  last_le : s.limiter.bucket.last ≤ s.clock
  span : s.clock - origin < clockSpan
  expected_pos : ∀ t expected, (s.caller t).phase = .looping expected → 0 < expected

theorem limiterInv_initial (cfg : RateLimiterConfig) (origin : ℕ) :
    LimiterInv cfg origin (initialLimiter cfg origin) where
  tokens_le := Nat.le_refl _
  origin_le := Nat.le_refl _
  last_le := Nat.le_refl _
  span := by
    show origin - origin < clockSpan
    rw [Nat.sub_self]
    exact Nat.succ_pos _
  expected_pos := nofun

theorem LimiterInv.refillExact (h : LimiterInv cfg origin s) :
    RefillExact cfg s.clock s.limiter := by
  have hspan := h.span
  have horigin : origin ≤ s.limiter.lastRefill := h.origin_le
  exact refillExact_of_span h.tokens_le (by omega)

theorem LimiterInv.bucket_refill (h : LimiterInv cfg origin s) :
    (s.limiter.refill cfg s.clock).bucket =
      TokenBucket.refill cfg.params s.clock s.limiter.bucket :=
  Proxy.bucket_refill h.tokens_le h.refillExact

/-- The calls after one of them has moved on. -/
theorem expected_pos_update {caller : ℕ → Caller} {t : ℕ} {c : Caller}
    (h : ∀ t expected, (caller t).phase = .looping expected → 0 < expected)
    (hc : ∀ expected, c.phase = .looping expected → 0 < expected) (u : ℕ) (expected : UInt64)
    (hu : (Function.update caller t c u).phase = .looping expected) : 0 < expected := by
  by_cases hut : u = t
  · subst hut
    rw [Function.update_self] at hu
    exact hc expected hu
  · rw [Function.update_of_ne hut] at hu
    exact h u expected hu

theorem LimiterInv.step {e : LimiterEvent} (h : LimiterInv cfg origin s)
    (hstep : limiterStep cfg origin s e = some s') : LimiterInv cfg origin s' := by
  rcases limiterStep_cases hstep with ⟨ns, hspan, rfl⟩ | ⟨t, rfl⟩ | ⟨t, hphase, rfl⟩ |
    ⟨t, phase, l, -, hpos, hbucket, rfl⟩
  · exact { h with last_le := Nat.le_add_right_of_le h.last_le, span := hspan }
  · exact
      { tokens_le := by
          rw [h.bucket_refill]
          exact TokenBucket.refill_tokens_le _ _
        origin_le := by
          rw [h.bucket_refill]
          exact Nat.le_add_right_of_le h.origin_le
        last_le := by
          rw [h.bucket_refill]
          exact TokenBucket.refill_last_le h.last_le
        span := h.span
        expected_pos := expected_pos_update h.expected_pos nofun }
  · have htake := bucket_take (h.expected_pos t _ hphase)
    exact
      { tokens_le := by
          rw [htake]
          exact Nat.le_trans (Nat.sub_le _ _) h.tokens_le
        origin_le := h.origin_le
        last_le := h.last_le
        span := h.span
        expected_pos := expected_pos_update h.expected_pos nofun }
  · exact
      { tokens_le := by
          rw [hbucket]
          exact h.tokens_le
        origin_le := by
          rw [hbucket]
          exact h.origin_le
        last_le := by
          rw [hbucket]
          exact h.last_le
        span := h.span
        expected_pos := expected_pos_update h.expected_pos hpos }

/-! ## The tokens of a window -/

/-- No call has refilled the bucket since `start`, and may still be granted a token. -/
def BeforeRefill (start length : ℕ) (s : LimiterState) : Prop :=
  grantsWithin start length s.grants = 0 ∧
    ∀ t, (s.caller t).phase.HasRefilled → (s.caller t).refilledAt < start

/-- The tokens of the window come from a bucket that was filled up to less than a second
before `start`. -/
def SinceRefill (cfg : RateLimiterConfig) (start length : ℕ) (s : LimiterState) : Prop :=
  ∃ base, start < base + nsPerSecond ∧
    TokenBucket.Supplied cfg.params base (grantsWithin start length s.grants) s.limiter.bucket

/-- The account of a window, until its end. -/
structure WindowInv (cfg : RateLimiterConfig) (start length : ℕ) (s : LimiterState) : Prop where
  bound : grantsWithin start length s.grants ≤ windowBound cfg length
  account : s.clock ≤ start + length → BeforeRefill start length s ∨ SinceRefill cfg start length s

theorem windowInv_initial (cfg : RateLimiterConfig) (origin start length : ℕ) :
    WindowInv cfg start length (initialLimiter cfg origin) where
  bound := Nat.zero_le _
  account := fun _ => .inl ⟨rfl, nofun⟩

/-- The calls that refilled before the window, after one of them has moved on. -/
theorem refilledAt_update {caller : ℕ → Caller} {t : ℕ} {c : Caller}
    (h : ∀ t, (caller t).phase.HasRefilled → (caller t).refilledAt < start)
    (hc : c.phase.HasRefilled → c.refilledAt < start) (u : ℕ)
    (hu : (Function.update caller t c u).phase.HasRefilled) :
    (Function.update caller t c u).refilledAt < start := by
  by_cases hut : u = t
  · subst hut
    rw [Function.update_self] at hu ⊢
    exact hc hu
  · rw [Function.update_of_ne hut] at hu ⊢
    exact h u hu

/-- A grant outside of the window, or of a call that refilled before it, does not count. -/
theorem grantsWithin_cons_of_not {g : Grant} {grants : List Grant}
    (h : ¬ (start ≤ g.refilledAt ∧ g.grantedAt ≤ start + length)) :
    grantsWithin start length (g :: grants) = grantsWithin start length grants := by
  refine List.countP_cons_of_neg fun hg => h ?_
  obtain ⟨hrefilled, -, hend⟩ := of_decide_eq_true hg
  exact ⟨hrefilled, hend⟩

theorem grantsWithin_cons_le (start length : ℕ) (g : Grant) (grants : List Grant) :
    grantsWithin start length (g :: grants) ≤ grantsWithin start length grants + 1 := by
  unfold grantsWithin
  rw [List.countP_cons]
  split
  · exact Nat.le_refl _
  · exact Nat.le_succ _

/-- A refill inside the window starts its account, or goes on with it. -/
theorem WindowInv.refill (hinv : LimiterInv cfg origin s) (h : WindowInv cfg start length s)
    (t : ℕ) :
    WindowInv cfg start length { s with
      limiter := s.limiter.refill cfg s.clock
      caller := Function.update s.caller t ⟨.refilled, s.clock⟩ } := by
  refine ⟨h.bound, fun hclock => ?_⟩
  rcases h.account hclock with ⟨hnone, hearlier⟩ | ⟨base, hbase, hsupplied⟩
  · rcases Nat.lt_or_ge s.clock start with hlt | hge
    · exact .inl ⟨hnone, refilledAt_update hearlier fun _ => hlt⟩
    · have hlast := TokenBucket.lt_refill_last (p := cfg.params) s.clock s.limiter.bucket
      refine .inr ⟨_, Nat.lt_of_le_of_lt hge hlast, ?_⟩
      show TokenBucket.Supplied _ _ (grantsWithin start length s.grants) _
      rw [hnone, hinv.bucket_refill]
      exact TokenBucket.supplied_zero (TokenBucket.refill_tokens_le _ _)
  · refine .inr ⟨base, hbase, ?_⟩
    show TokenBucket.Supplied _ _ _ (s.limiter.refill cfg s.clock).bucket
    rw [hinv.bucket_refill]
    exact hsupplied.refill _

/-- A token that is taken inside the window is on its account. -/
theorem WindowInv.take (hinv : LimiterInv cfg origin s) (h : WindowInv cfg start length s)
    {t : ℕ} (hphase : (s.caller t).phase = .looping s.limiter.tokens) :
    WindowInv cfg start length { s with
      limiter := { s.limiter with tokens := s.limiter.tokens - 1 }
      caller := Function.update s.caller t ⟨.granted, (s.caller t).refilledAt⟩
      grants := ⟨(s.caller t).refilledAt, s.clock⟩ :: s.grants } := by
  have hpos := hinv.expected_pos t _ hphase
  rcases Nat.lt_or_ge (start + length) s.clock with hlate | hclock
  · refine ⟨?_, fun hle => absurd hle (Nat.not_le.mpr hlate)⟩
    show grantsWithin start length (_ :: s.grants) ≤ _
    rw [grantsWithin_cons_of_not fun hin => Nat.not_le.mpr hlate hin.2]
    exact h.bound
  · rcases h.account hclock with ⟨hnone, hearlier⟩ | ⟨base, hbase, hsupplied⟩
    · have hbefore : (s.caller t).refilledAt < start :=
        hearlier t (by rw [hphase]; trivial)
      have hcount :
          grantsWithin start length (⟨(s.caller t).refilledAt, s.clock⟩ :: s.grants) = 0 := by
        rw [grantsWithin_cons_of_not fun hin => Nat.not_le.mpr hbefore hin.1, hnone]
      exact ⟨by show grantsWithin start length (_ :: s.grants) ≤ _; omega,
        fun _ => .inl ⟨hcount, refilledAt_update hearlier nofun⟩⟩
    · have htaken : TokenBucket.Supplied cfg.params base
          (grantsWithin start length (⟨(s.caller t).refilledAt, s.clock⟩ :: s.grants))
          (TokenBucket.take s.limiter.bucket) :=
        (hsupplied.take (UInt64.lt_iff_toNat_lt.mp hpos)).mono
          (Nat.add_le_add_right (grantsWithin_cons_le ..) _)
      refine ⟨TokenBucket.le_of_supplied htaken hbase (Nat.le_trans hinv.last_le hclock),
        fun _ => .inr ⟨base, hbase, ?_⟩⟩
      rw [← bucket_take hpos] at htaken
      exact htaken

theorem WindowInv.step {e : LimiterEvent} (hinv : LimiterInv cfg origin s)
    (h : WindowInv cfg start length s) (hstep : limiterStep cfg origin s e = some s') :
    WindowInv cfg start length s' := by
  rcases limiterStep_cases hstep with ⟨ns, -, rfl⟩ | ⟨t, rfl⟩ | ⟨t, hphase, rfl⟩ |
    ⟨t, phase, l, hrefilled, -, hbucket, rfl⟩
  · exact ⟨h.bound, fun hclock => h.account (Nat.le_trans (Nat.le_add_right _ _) hclock)⟩
  · exact h.refill hinv t
  · exact h.take hinv hphase
  · refine ⟨h.bound, fun hclock => ?_⟩
    rcases h.account hclock with ⟨hnone, hearlier⟩ | ⟨base, hbase, hsupplied⟩
    · exact .inl ⟨hnone, refilledAt_update hearlier fun hc => hearlier t (hrefilled hc)⟩
    · refine .inr ⟨base, hbase, ?_⟩
      rw [← hbucket] at hsupplied
      exact hsupplied

/-! ## The bounds -/

/-- **The limiter keeps its bounds**, whatever the threads do: the token count never exceeds
`max_tokens` and is never taken below zero, the refill does not overflow, and in a window of
`length` nanoseconds, from any time on, at most
`max_tokens + refill_rate * (⌊length in seconds⌋ + 1)` tokens go to calls that refilled the
bucket within the window. -/
theorem limiter_bounded (cfg : RateLimiterConfig) (origin : ℕ) (events : List LimiterEvent) :
    Always (limiterStep cfg origin) (LimiterBounded cfg) (initialLimiter cfg origin) events := by
  refine always_of_step
    (P := fun s => LimiterInv cfg origin s ∧ ∀ start length, WindowInv cfg start length s)
    ?_ ?_ ?_ events
  · rintro s e s' ⟨hinv, hwindow⟩ hstep
    exact ⟨hinv.step hstep, fun start length => (hwindow start length).step hinv hstep⟩
  · rintro s ⟨hinv, hwindow⟩
    exact
      { tokens_le := UInt64.le_iff_toNat_le.mpr hinv.tokens_le
        expected_pos := hinv.expected_pos
        refillExact := hinv.refillExact
        window := fun start length => (hwindow start length).bound }
  · exact ⟨limiterInv_initial cfg origin, windowInv_initial cfg origin⟩

/-- A bucket of two tokens that gets one token a second. -/
def twoTokens : RateLimiterConfig where
  maxTokens := 2
  refillTokensPerSecond := 1
  maxTokens_pos := by decide
  refill_pos := by decide
  maxTokens_lt := by decide
  refill_lt := by decide

/-- The steps of one call up to its refill, and the three steps from there to the token. -/
def upToRefill (t : ℕ) : List LimiterEvent := [.call t, .next t false, .next t false]

def fromLoad (t : ℕ) : List LimiterEvent := [.next t false, .next t false, .next t false]

/-- Two calls refill the bucket and are held up for ten seconds; then they take the two
tokens, and the next two calls find the bucket filled again. -/
def delayedCalls : List LimiterEvent :=
  upToRefill 0 ++ upToRefill 1 ++ [.tick (10 * nsPerSecond)] ++ fromLoad 0 ++ fromLoad 1 ++
    (upToRefill 2 ++ fromLoad 2) ++ (upToRefill 3 ++ fromLoad 3)

/-- **The calls that refilled before a window come on top of the bound**: four tokens are
granted at one moment, where the bound is three. -/
theorem grants_exceed_window :
    ¬ ∀ (cfg : RateLimiterConfig) (origin : ℕ) (events : List LimiterEvent) (s : LimiterState)
      (start length : ℕ), run (limiterStep cfg origin) (initialLimiter cfg origin) events = some s →
        grantsIn start length s.grants ≤ windowBound cfg length := by
  intro h
  have hrun : ((run (limiterStep twoTokens 0) (initialLimiter twoTokens 0) delayedCalls).map
      fun s => grantsIn (10 * nsPerSecond) 0 s.grants) = some 4 := by decide +kernel
  obtain ⟨s, hs, hcount⟩ := Option.map_eq_some_iff.mp hrun
  have hle := h twoTokens 0 delayedCalls s (10 * nsPerSecond) 0 hs
  rw [hcount] at hle
  exact absurd hle (by decide)

end Proxy
end HttpDataDiod
