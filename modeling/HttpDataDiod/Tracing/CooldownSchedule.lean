import Mathlib.Algebra.Group.Int.Defs
import HttpDataDiod.Tracing.Acceptance

/-!
# The schedule of the cooldowns

`TracingBreakerSettings` documents the base as the first cooldown window after opening,
doubled on every consecutive opening and clamped to the maximum.  `record_sink_failure`
shifts the base by the failures in a row, not by the openings, and counts the window from
the time that its caller has read: `send_batch_with_retry` reads it before the retry loop
and its sleeps, `deliver_sentry_transactions` before the POST.

Here the failures have both times, and the fields of the breaker have their widths.

* `recordFailure`, `afterFailures`: a failure, and failures in a row, with the openings.
* `breaker_eq_afterFailures`: they are the breakers of the tracer.
* `FollowsSchedule`: what is documented.
* `followsSchedule_iff`: when it holds.
-/

namespace HttpDataDiod
namespace Tracing

open Transition Proxy ByteText

/-! ## Failures in a row -/

/-- The steady clock counts nanoseconds in 64 bits, with a sign. -/
def steadyMsLimit : ℕ := 2 ^ 63 / 10 ^ 6

/-- A failed attempt: the time that `record_sink_failure` is given, and that of the failure. -/
structure SinkFailure where
  sampledAt : ℕ
  failedAt : ℕ
  sampled_le : sampledAt ≤ failedAt
  failed_lt : failedAt < steadyMsLimit

/-- The checks of `validate_tracing`. -/
def validateTracing (settings : TracingBreakerSettings) : Bool :=
  0 < settings.failureThreshold && 0 < settings.cooldownBaseMs &&
    settings.cooldownBaseMs ≤ settings.cooldownMaxMs

/-- Settings that have passed, and are of the type `int`. -/
structure ValidBreakerSettings extends TracingBreakerSettings where
  valid : validateTracing toTracingBreakerSettings = true
  threshold_lt : failureThreshold < 2 ^ 31
  max_lt : cooldownMaxMs < 2 ^ 31

/-- `ExponentialBreaker`: an `int` and a `uint64_t`. -/
structure SinkBreaker where
  consecutiveFailures : ℤ := 0
  cooldownUntilSteadyMs : ℕ := 0

/-- What an opening of the breaker was computed from, and what it set. -/
structure Opening where
  failure : SinkFailure
  shift : ℕ
  cooldownMs : ℕ
  cooldownUntilSteadyMs : ℕ

/-- The opening at so many failures. -/
def openingAt (settings : TracingBreakerSettings) (failures : ℤ) (f : SinkFailure) : Opening :=
  let shift := (min failures tracingMaxCooldownShift - 1).toNat
  let cooldownMs := min (settings.cooldownBaseMs * 2 ^ shift % 2 ^ 64) settings.cooldownMaxMs
  { failure := f
    shift := shift
    cooldownMs := cooldownMs
    cooldownUntilSteadyMs := (f.sampledAt + cooldownMs) % 2 ^ 64 }

/-- `++` of an atomic `int`, which wraps around. -/
def increment (counter : ℤ) : ℤ := (counter + 1).bmod (2 ^ 32)

/-- `record_sink_failure`, with the opening. -/
def recordFailure (settings : TracingBreakerSettings) (breaker : SinkBreaker) (f : SinkFailure) :
    SinkBreaker × Option Opening :=
  let failures := increment breaker.consecutiveFailures
  if failures < settings.failureThreshold then
    ({ breaker with consecutiveFailures := failures }, none)
  else
    let opening := openingAt settings failures f
    ({ consecutiveFailures := failures
       cooldownUntilSteadyMs := opening.cooldownUntilSteadyMs }, some opening)

/-- Failures in a row, with their openings in turn. -/
def afterFailures (settings : TracingBreakerSettings) (breaker : SinkBreaker) :
    List SinkFailure → SinkBreaker × List Opening
  | [] => (breaker, [])
  | f :: fs =>
    let recorded := recordFailure settings breaker f
    let rest := afterFailures settings recorded.1 fs
    (rest.1, recorded.2.toList ++ rest.2)

/-- The openings since the last success. -/
def openings (settings : TracingBreakerSettings) (fs : List SinkFailure) : List Opening :=
  (afterFailures settings {} fs).2

/-- **The documented schedule**: the `k`-th opening lasts the base, doubled for each opening
before it and clamped to the maximum, from the failure on; the windows do not shrink; and
neither the shift nor the sum overflows. -/
structure FollowsSchedule (settings : TracingBreakerSettings) (fs : List SinkFailure) :
    Prop where
  window : ∀ k o, (openings settings fs)[k]? = some o →
    o.cooldownMs = min (settings.cooldownBaseMs * 2 ^ k) settings.cooldownMaxMs
  from_failure : ∀ o ∈ openings settings fs,
    o.cooldownUntilSteadyMs = o.failure.failedAt + o.cooldownMs
  nondecreasing : ((openings settings fs).map Opening.cooldownMs).Pairwise (· ≤ ·)
  fits : ∀ o ∈ openings settings fs, settings.cooldownBaseMs * 2 ^ o.shift < 2 ^ 64 ∧
    o.failure.sampledAt + o.cooldownMs < 2 ^ 64

/-! ## The counter -/

/-- The counter after so many failures. -/
def counterAfter (n : ℕ) : ℤ := (n : ℤ).bmod (2 ^ 32)

theorem bmod_natCast_succ (n m : ℕ) : ((n : ℤ).bmod m + 1).bmod m = ((n + 1 : ℕ) : ℤ).bmod m := by
  rw [Int.bmod_add_bmod, Int.natCast_add, Int.natCast_one]

theorem increment_counterAfter (n : ℕ) : increment (counterAfter n) = counterAfter (n + 1) :=
  bmod_natCast_succ n (2 ^ 32)

theorem counterAfter_eq (n : ℕ) : counterAfter n =
    if n % 4294967296 < 2147483648 then ((n % 4294967296 : ℕ) : ℤ)
    else (n % 4294967296 : ℕ) - 4294967296 := by
  unfold counterAfter
  rw [Int.bmod_def]
  split <;> split <;> omega

theorem counterAfter_of_lt {n : ℕ} (h : n < 2 ^ 31) : counterAfter n = n := by
  rw [counterAfter_eq, Nat.mod_eq_of_lt (by omega), if_pos (by omega)]

/-- The counter does not wrap. -/
theorem increment_natCast {n : ℕ} (h : n + 1 < 2 ^ 31) : increment n = (n + 1 : ℕ) := by
  have hsucc := increment_counterAfter n
  rwa [counterAfter_of_lt h, counterAfter_of_lt (Nat.lt_of_succ_lt h)] at hsucc

/-- In the second half of its range the counter is not positive. -/
theorem counterAfter_nonpos {n : ℕ} (hle : 2 ^ 31 ≤ n) (hge : n ≤ 2 ^ 32) :
    counterAfter n ≤ 0 := by
  rw [counterAfter_eq]
  split <;> omega

/-- Past that it starts again. -/
theorem counterAfter_wrapped : counterAfter (2 ^ 32 + 1) = 1 := by
  rw [counterAfter_eq]
  decide

/-! ## The openings of a run of failures -/

section Openings

/-- The openings of failures of which so many have gone before. -/
def openingsFrom (settings : TracingBreakerSettings) : ℕ → List SinkFailure → List Opening
  | _, [] => []
  | n, f :: fs =>
    if counterAfter (n + 1) < settings.failureThreshold then openingsFrom settings (n + 1) fs
    else openingAt settings (counterAfter (n + 1)) f :: openingsFrom settings (n + 1) fs

variable {settings : TracingBreakerSettings}

theorem afterFailures_openings (settings : TracingBreakerSettings) (fs : List SinkFailure)
    (n u : ℕ) :
    (afterFailures settings ⟨counterAfter n, u⟩ fs).2 = openingsFrom settings n fs := by
  induction fs generalizing n u with
  | nil => rfl
  | cons f fs ih =>
    simp only [afterFailures, recordFailure, increment_counterAfter, openingsFrom]
    split
    · exact ih (n + 1) u
    · exact congrArg (_ :: ·) (ih (n + 1) _)

theorem openings_eq (settings : TracingBreakerSettings) (fs : List SinkFailure) :
    openings settings fs = openingsFrom settings 0 fs :=
  afterFailures_openings settings fs 0 0

theorem openingsFrom_append (n : ℕ) (fs gs : List SinkFailure) :
    openingsFrom settings n (fs ++ gs) =
      openingsFrom settings n fs ++ openingsFrom settings (n + fs.length) gs := by
  induction fs generalizing n with
  | nil => rfl
  | cons f fs ih =>
    have hlength : n + (f :: fs).length = n + 1 + fs.length := by
      rw [List.length_cons]
      omega
    rw [List.cons_append, openingsFrom, openingsFrom, ih, hlength]
    split
    · rfl
    · rfl

/-- Below the threshold nothing opens. -/
theorem openingsFrom_eq_nil {n : ℕ} {fs : List SinkFailure}
    (h : ∀ i < fs.length, counterAfter (n + i + 1) < settings.failureThreshold) :
    openingsFrom settings n fs = [] := by
  induction fs generalizing n with
  | nil => rfl
  | cons f fs ih =>
    rw [openingsFrom, if_pos (h 0 (Nat.succ_pos _))]
    refine ih fun i hi => ?_
    have hlater := h (i + 1) (Nat.succ_lt_succ hi)
    rwa [← Nat.add_assoc, Nat.add_right_comm n i 1] at hlater

/-- From the threshold on every failure opens. -/
theorem openingsFrom_getElem? {n : ℕ} {fs : List SinkFailure}
    (h : ∀ i < fs.length, settings.failureThreshold ≤ counterAfter (n + i + 1)) (k : ℕ) :
    (openingsFrom settings n fs)[k]? =
      fs[k]?.map (openingAt settings (counterAfter (n + k + 1))) := by
  induction fs generalizing n k with
  | nil => rfl
  | cons f fs ih =>
    rw [openingsFrom, if_neg (Int.not_lt.mpr (h 0 (Nat.succ_pos _)))]
    cases k with
    | zero => rfl
    | succ k =>
      rw [List.getElem?_cons_succ, List.getElem?_cons_succ, ih fun i hi => ?_,
        Nat.add_right_comm n 1 k, Nat.add_assoc n k 1]
      have hlater := h (i + 1) (Nat.succ_lt_succ hi)
      rwa [← Nat.add_assoc, Nat.add_right_comm n i 1] at hlater

theorem openingsFrom_length {n : ℕ} {fs : List SinkFailure}
    (h : ∀ i < fs.length, settings.failureThreshold ≤ counterAfter (n + i + 1)) :
    (openingsFrom settings n fs).length = fs.length := by
  have hnone : ∀ k, (openingsFrom settings n fs).length ≤ k ↔ fs.length ≤ k := fun k => by
    rw [← List.getElem?_eq_none_iff, openingsFrom_getElem? h, Option.map_eq_none_iff,
      List.getElem?_eq_none_iff]
  exact Nat.le_antisymm ((hnone _).mpr le_rfl) ((hnone _).mp le_rfl)

/-- Past a stretch without openings. -/
theorem openingsFrom_of_quiet {n m : ℕ} {fs : List SinkFailure}
    (h : ∀ i < m, counterAfter (n + i + 1) < settings.failureThreshold) :
    openingsFrom settings n fs = openingsFrom settings (n + m) (fs.drop m) := by
  have hquiet : openingsFrom settings n (fs.take m) = [] := by
    refine openingsFrom_eq_nil fun i hi => h i ?_
    rw [List.length_take] at hi
    omega
  rcases Nat.lt_or_ge fs.length m with hshort | hlong
  · rw [List.take_of_length_le hshort.le] at hquiet
    rw [hquiet, List.drop_of_length_le hshort.le, openingsFrom]
  · conv_lhs => rw [← List.take_append_drop m fs]
    rw [openingsFrom_append, hquiet, List.nil_append, List.length_take, Nat.min_eq_left hlong]

/-- A stretch in which every failure opens. -/
theorem openingsFrom_of_opening {n m : ℕ} {fs : List SinkFailure}
    (h : ∀ i < m, settings.failureThreshold ≤ counterAfter (n + i + 1)) (k : ℕ) :
    (openingsFrom settings n fs)[k]? =
      if k < m then fs[k]?.map (openingAt settings (counterAfter (n + k + 1)))
      else (openingsFrom settings (n + m) (fs.drop m))[k - m]? := by
  have htake : ∀ i < (fs.take m).length,
      settings.failureThreshold ≤ counterAfter (n + i + 1) := fun i hi => by
    rw [List.length_take] at hi
    exact h i (by omega)
  rcases Nat.lt_or_ge fs.length m with hshort | hlong
  · rw [List.take_of_length_le hshort.le] at htake
    rw [openingsFrom_getElem? htake, List.drop_of_length_le hshort.le]
    split
    · rfl
    · rw [List.getElem?_eq_none (by omega)]
      rfl
  · have hlength : (openingsFrom settings n (fs.take m)).length = m := by
      rw [openingsFrom_length htake, List.length_take, Nat.min_eq_left hlong]
    conv_lhs => rw [← List.take_append_drop m fs]
    rw [openingsFrom_append, List.length_take, Nat.min_eq_left hlong, List.getElem?_append,
      hlength]
    split
    · next hk => rw [openingsFrom_getElem? htake, List.getElem?_take_of_lt hk]
    · rfl

/-- The failures that open, and their openings. -/
theorem mem_openingsFrom {n : ℕ} {fs : List SinkFailure} {o : Opening} :
    o ∈ openingsFrom settings n fs ↔
      ∃ i f, fs[i]? = some f ∧ settings.failureThreshold ≤ counterAfter (n + i + 1) ∧
        o = openingAt settings (counterAfter (n + i + 1)) f := by
  induction fs generalizing n with
  | nil =>
    constructor
    · intro h
      cases h
    · rintro ⟨i, f, hf, -⟩
      cases hf
  | cons f fs ih =>
    have hshift : ∀ i, n + 1 + i + 1 = n + (i + 1) + 1 := fun i => by omega
    have hsplit : (∃ i g, (f :: fs)[i]? = some g ∧
        settings.failureThreshold ≤ counterAfter (n + i + 1) ∧
        o = openingAt settings (counterAfter (n + i + 1)) g) ↔
        (settings.failureThreshold ≤ counterAfter (n + 1) ∧
          o = openingAt settings (counterAfter (n + 1)) f) ∨
        o ∈ openingsFrom settings (n + 1) fs := by
      rw [ih]
      simp only [hshift]
      constructor
      · rintro ⟨i, g, hg, hopens⟩
        cases i with
        | zero =>
          obtain rfl := Option.some.inj hg
          exact .inl hopens
        | succ i => exact .inr ⟨i, g, hg, hopens⟩
      · rintro (hopens | ⟨i, g, hg, hopens⟩)
        · exact ⟨0, f, rfl, hopens⟩
        · exact ⟨i + 1, g, hg, hopens⟩
    rw [hsplit, openingsFrom]
    split
    · next hbelow => simp [Int.not_le.mpr hbelow]
    · next hreached => simp [Int.not_lt.mp hreached]

end Openings

/-! ## The windows -/

namespace ValidBreakerSettings

variable (settings : ValidBreakerSettings)

theorem threshold_pos : 0 < settings.failureThreshold := by
  have hvalid := settings.valid
  simp only [validateTracing, Bool.and_eq_true, decide_eq_true_eq] at hvalid
  exact hvalid.1.1

theorem base_pos : 0 < settings.cooldownBaseMs := by
  have hvalid := settings.valid
  simp only [validateTracing, Bool.and_eq_true, decide_eq_true_eq] at hvalid
  exact hvalid.1.2

theorem base_le_max : settings.cooldownBaseMs ≤ settings.cooldownMaxMs := by
  have hvalid := settings.valid
  simp only [validateTracing, Bool.and_eq_true, decide_eq_true_eq] at hvalid
  exact hvalid.2

/-- Neither the shift nor the sum overflows. -/
theorem openingAt_fits (failures : ℤ) (f : SinkFailure) :
    let opening := openingAt settings.toTracingBreakerSettings failures f
    opening.cooldownMs = min (settings.cooldownBaseMs * 2 ^ opening.shift) settings.cooldownMaxMs ∧
      opening.cooldownUntilSteadyMs = f.sampledAt + opening.cooldownMs ∧
      settings.cooldownBaseMs * 2 ^ opening.shift < 2 ^ 64 ∧
      f.sampledAt + opening.cooldownMs < 2 ^ 64 := by
  intro opening
  have hshift : opening.shift ≤ 19 := by
    show (min failures ((20 : ℕ) : ℤ) - 1).toNat ≤ 19
    omega
  have hbase := settings.base_le_max.trans_lt settings.max_lt
  have hproduct : settings.cooldownBaseMs * 2 ^ opening.shift < 2 ^ 64 :=
    calc settings.cooldownBaseMs * 2 ^ opening.shift
        ≤ settings.cooldownBaseMs * 2 ^ 19 :=
          Nat.mul_le_mul_left _ (Nat.pow_le_pow_right Nat.two_pos hshift)
      _ < 2 ^ 64 := by omega
  have hwindow : opening.cooldownMs =
      min (settings.cooldownBaseMs * 2 ^ opening.shift) settings.cooldownMaxMs := by
    show min (settings.cooldownBaseMs * 2 ^ opening.shift % 2 ^ 64) _ = _
    rw [Nat.mod_eq_of_lt hproduct]
  have hsum : f.sampledAt + opening.cooldownMs < 2 ^ 64 := by
    have hmax := settings.max_lt
    have hclock : f.sampledAt < 2 ^ 63 / 10 ^ 6 := f.sampled_le.trans_lt f.failed_lt
    rw [hwindow]
    omega
  exact ⟨hwindow, Nat.mod_eq_of_lt hsum, hproduct, hsum⟩

end ValidBreakerSettings

/-- The windows are the documented ones: nothing opens; or there is but one window; or every
failure opens, the counter has not wrapped, and the cap of the shift does not show. -/
def OnSchedule (settings : TracingBreakerSettings) (failures : ℕ) : Prop :=
  failures < settings.failureThreshold ∨
    settings.cooldownBaseMs = settings.cooldownMaxMs ∨
    (settings.failureThreshold = 1 ∧ failures ≤ 2 ^ 32 ∧
      (failures ≤ 20 ∨ settings.cooldownMaxMs ≤ settings.cooldownBaseMs * 2 ^ 19))

section Windows

variable {settings : ValidBreakerSettings} {fs : List SinkFailure}

/-- The first opening. -/
theorem openings_head {f : SinkFailure} (hf : fs[settings.failureThreshold - 1]? = some f) :
    (openings settings.toTracingBreakerSettings fs)[0]? =
      some (openingAt settings.toTracingBreakerSettings settings.failureThreshold f) := by
  obtain ⟨hlt, rfl⟩ := List.getElem?_eq_some_iff.mp hf
  have hpos := settings.threshold_pos
  have hint := settings.threshold_lt
  have hfs : fs = fs.take (settings.failureThreshold - 1) ++
      fs[settings.failureThreshold - 1] :: fs.drop (settings.failureThreshold - 1 + 1) := by
    rw [List.getElem_cons_drop, List.take_append_drop]
  have hbelow : openingsFrom settings.toTracingBreakerSettings 0
      (fs.take (settings.failureThreshold - 1)) = [] := by
    refine openingsFrom_eq_nil fun i hi => ?_
    rw [List.length_take] at hi
    rw [counterAfter_of_lt (by omega)]
    omega
  have hcount : counterAfter (0 + (fs.take (settings.failureThreshold - 1)).length + 1) =
      settings.failureThreshold := by
    rw [List.length_take, Nat.min_eq_left hlt.le, counterAfter_of_lt (by omega)]
    omega
  rw [openings_eq]
  conv_lhs => rw [hfs]
  rw [openingsFrom_append, hbelow, List.nil_append, openingsFrom, hcount,
    if_neg (Int.lt_irrefl _)]
  rfl

/-- With a threshold of one: the openings until the counter turns negative. -/
theorem openings_everyFailure (hone : settings.failureThreshold = 1) {k : ℕ}
    (hk : k < 2 ^ 31 - 1) :
    (openings settings.toTracingBreakerSettings fs)[k]? =
      fs[k]?.map (openingAt settings.toTracingBreakerSettings (k + 1 : ℕ)) := by
  have hopen : ∀ i < 2 ^ 31 - 1, (settings.failureThreshold : ℤ) ≤ counterAfter (0 + i + 1) := by
    intro i hi
    rw [counterAfter_of_lt (by omega)]
    omega
  rw [openings_eq, openingsFrom_of_opening hopen, if_pos hk, counterAfter_of_lt (by omega),
    Nat.zero_add]

/-- And from there on: a stretch of failures without an opening, and the openings of a counter
that starts again. -/
theorem openings_wrapped (hone : settings.failureThreshold = 1) {k : ℕ} (hk : 2 ^ 31 - 1 ≤ k) :
    (openings settings.toTracingBreakerSettings fs)[k]? =
      (openingsFrom settings.toTracingBreakerSettings (2 ^ 32)
        (fs.drop (2 ^ 32)))[k - (2 ^ 31 - 1)]? := by
  have hopen : ∀ i < 2 ^ 31 - 1, (settings.failureThreshold : ℤ) ≤ counterAfter (0 + i + 1) := by
    intro i hi
    rw [counterAfter_of_lt (by omega)]
    omega
  have hquiet : ∀ i < 2 ^ 31 + 1,
      counterAfter (0 + (2 ^ 31 - 1) + i + 1) < settings.failureThreshold := by
    intro i hi
    have hnonpos := @counterAfter_nonpos (0 + (2 ^ 31 - 1) + i + 1) (by omega) (by omega)
    omega
  have hwhole : 2 ^ 31 - 1 + (2 ^ 31 + 1) = 2 ^ 32 := by omega
  rw [openings_eq, openingsFrom_of_opening hopen, if_neg (by omega), openingsFrom_of_quiet hquiet,
    List.drop_drop, Nat.zero_add, hwhole]

theorem min_mul_pow_of_le {base max e : ℕ} (h : max ≤ base) : min (base * 2 ^ e) max = max :=
  Nat.min_eq_right (h.trans (Nat.le_mul_of_pos_right _ (Nat.two_pow_pos e)))

/-- A window that is the base has not been doubled. -/
theorem eq_zero_of_window_eq_base {base max e : ℕ} (hbase : 0 < base) (hmax : base < max)
    (h : min (base * 2 ^ e) max = base) : e = 0 := by
  cases e with
  | zero => rfl
  | succ e =>
    have hdouble : base * 2 ≤ base * 2 ^ (e + 1) := by
      refine Nat.mul_le_mul_left _ ?_
      rw [Nat.pow_succ]
      exact Nat.le_mul_of_pos_left 2 (Nat.two_pow_pos e)
    omega

theorem openingAt_shift (settings : TracingBreakerSettings) (failures : ℤ) (f : SinkFailure) :
    (openingAt settings failures f).shift = (min failures 20 - 1).toNat := rfl

theorem openingAt_cooldownMs (settings : ValidBreakerSettings) (failures : ℤ) (f : SinkFailure) :
    (openingAt settings.toTracingBreakerSettings failures f).cooldownMs =
      min (settings.cooldownBaseMs * 2 ^ (min failures 20 - 1).toNat)
        settings.cooldownMaxMs := by
  rw [(settings.openingAt_fits failures f).1, openingAt_shift]

/-- What the documented windows need. -/
theorem onSchedule_of_windows
    (h : ∀ k o, (openings settings.toTracingBreakerSettings fs)[k]? = some o →
      o.cooldownMs = min (settings.cooldownBaseMs * 2 ^ k) settings.cooldownMaxMs) :
    OnSchedule settings.toTracingBreakerSettings fs.length := by
  have hpos := settings.threshold_pos
  have hbase := settings.base_pos
  rcases Nat.lt_or_ge fs.length settings.failureThreshold with hbelow | hreached
  · exact .inl hbelow
  rcases settings.base_le_max.eq_or_lt with hone | hmax
  · exact .inr (.inl hone)
  have hthreshold : settings.failureThreshold = 1 := by
    have hwindow := h 0 _ (openings_head (List.getElem?_eq_getElem (by omega)))
    rw [openingAt_cooldownMs, Nat.pow_zero, Nat.mul_one, Nat.min_eq_left hmax.le] at hwindow
    have hshift := eq_zero_of_window_eq_base hbase hmax hwindow
    omega
  refine .inr (.inr ⟨hthreshold, ?_, ?_⟩)
  · by_contra hlong
    -- The failure past the wrap opens with the base again.
    obtain ⟨k, hk⟩ : ∃ k, k = 2 ^ 31 - 1 := ⟨_, rfl⟩
    obtain ⟨f, rest, hdrop⟩ : ∃ f rest, fs.drop (2 ^ 32) = f :: rest := by
      refine List.exists_cons_of_ne_nil fun hnil => hlong ?_
      exact List.drop_eq_nil_iff.mp hnil
    have hopening : (openings settings.toTracingBreakerSettings fs)[k]? =
        some (openingAt settings.toTracingBreakerSettings 1 f) := by
      rw [openings_wrapped hthreshold hk.ge, hdrop, openingsFrom, counterAfter_wrapped,
        hthreshold, if_neg (by decide), hk, Nat.sub_self]
      rfl
    have hwindow := h k _ hopening
    rw [openingAt_cooldownMs] at hwindow
    have hzero := eq_zero_of_window_eq_base hbase hmax
      (hwindow.symm.trans (Nat.min_eq_left (by simpa using hmax.le)) |>.trans (by simp))
    omega
  · by_contra hcap
    -- The twenty-first opening is as long as the twentieth.
    have hlength : 20 < fs.length := by omega
    have hopening := @openings_everyFailure settings fs hthreshold 20 (by omega)
    rw [List.getElem?_eq_getElem hlength, Option.map_some] at hopening
    have hwindow := h 20 _ hopening
    rw [openingAt_cooldownMs] at hwindow
    have hshift : (min ((20 + 1 : ℕ) : ℤ) 20 - 1).toNat = 19 := by decide
    rw [hshift] at hwindow
    omega

/-- And what they need is enough. -/
theorem windows_of_onSchedule (h : OnSchedule settings.toTracingBreakerSettings fs.length) {k : ℕ}
    {o : Opening} (ho : (openings settings.toTracingBreakerSettings fs)[k]? = some o) :
    o.cooldownMs = min (settings.cooldownBaseMs * 2 ^ k) settings.cooldownMaxMs := by
  have hint := settings.threshold_lt
  rcases h with hbelow | hsingle | ⟨hone, hlength, hcap⟩
  · have hnone : openings settings.toTracingBreakerSettings fs = [] := by
      rw [openings_eq]
      refine openingsFrom_eq_nil fun i hi => ?_
      rw [counterAfter_of_lt (by omega)]
      omega
    rw [hnone] at ho
    cases ho
  · have hmem := List.mem_of_getElem? ho
    rw [openings_eq] at hmem
    obtain ⟨i, f, -, -, rfl⟩ := mem_openingsFrom.mp hmem
    rw [openingAt_cooldownMs, min_mul_pow_of_le hsingle.ge, min_mul_pow_of_le hsingle.ge]
  · rcases Nat.lt_or_ge k (2 ^ 31 - 1) with hk | hk
    · rw [openings_everyFailure hone hk] at ho
      obtain ⟨f, hf, rfl⟩ := Option.map_eq_some_iff.mp ho
      have hlt := (List.getElem?_eq_some_iff.mp hf).choose
      rw [openingAt_cooldownMs]
      rcases Nat.lt_or_ge k 20 with hsmall | hlarge
      · have hshift : (min ((k + 1 : ℕ) : ℤ) 20 - 1).toNat = k := by omega
        rw [hshift]
      · have hmax := hcap.resolve_left (by omega)
        have hshift : (min ((k + 1 : ℕ) : ℤ) 20 - 1).toNat = 19 := by omega
        have hpow : settings.cooldownBaseMs * 2 ^ 19 ≤ settings.cooldownBaseMs * 2 ^ k :=
          Nat.mul_le_mul_left _ (Nat.pow_le_pow_right Nat.two_pos (by omega))
        rw [hshift, Nat.min_eq_right hmax, Nat.min_eq_right (hmax.trans hpow)]
    · rw [openings_wrapped hone hk, List.drop_of_length_le hlength] at ho
      cases ho

/-- Windows of the documented lengths do not shrink. -/
theorem nondecreasing_of_windows {base max : ℕ} {os : List Opening}
    (h : ∀ k o, os[k]? = some o → o.cooldownMs = min (base * 2 ^ k) max) :
    (os.map Opening.cooldownMs).Pairwise (· ≤ ·) := by
  rw [List.pairwise_iff_getElem]
  intro k l hk hl hlt
  rw [List.length_map] at hk hl
  have hmono : min (base * 2 ^ k) max ≤ min (base * 2 ^ l) max :=
    min_le_min_right _ (Nat.mul_le_mul_left _ (Nat.pow_le_pow_right Nat.two_pos hlt.le))
  rw [List.getElem_map, List.getElem_map, h k _ (List.getElem?_eq_getElem hk),
    h l _ (List.getElem?_eq_getElem hl)]
  exact hmono

end Windows

/-- **When the documented schedule is followed**: exactly when the windows are the documented
ones, and every failure that opens the breaker comes at the time that was read for it. -/
theorem followsSchedule_iff (settings : ValidBreakerSettings) (fs : List SinkFailure) :
    FollowsSchedule settings.toTracingBreakerSettings fs ↔
      OnSchedule settings.toTracingBreakerSettings fs.length ∧
        ∀ i f, fs[i]? = some f → settings.failureThreshold ≤ counterAfter (i + 1) →
          f.sampledAt = f.failedAt := by
  have hmem : ∀ {o}, o ∈ openings settings.toTracingBreakerSettings fs ↔
      ∃ i f, fs[i]? = some f ∧ settings.failureThreshold ≤ counterAfter (i + 1) ∧
        o = openingAt settings.toTracingBreakerSettings (counterAfter (i + 1)) f := by
    intro o
    rw [openings_eq, mem_openingsFrom]
    simp only [Nat.zero_add]
  constructor
  · intro h
    refine ⟨onSchedule_of_windows h.window, fun i f hf hopens => ?_⟩
    obtain ⟨-, huntil, -⟩ := settings.openingAt_fits (counterAfter (i + 1)) f
    have hfrom := h.from_failure _ (hmem.mpr ⟨i, f, hf, hopens, rfl⟩)
    exact Nat.add_right_cancel (huntil.symm.trans hfrom)
  · rintro ⟨hschedule, htimes⟩
    have hwindow := fun k o ho => @windows_of_onSchedule settings fs hschedule k o ho
    refine ⟨hwindow, fun o ho => ?_, nondecreasing_of_windows hwindow, fun o ho => ?_⟩
    · obtain ⟨i, f, hf, hopens, rfl⟩ := hmem.mp ho
      obtain ⟨-, huntil, -⟩ := settings.openingAt_fits (counterAfter (i + 1)) f
      rw [huntil, htimes i f hf hopens]
      rfl
    · obtain ⟨i, f, -, -, rfl⟩ := hmem.mp ho
      exact (settings.openingAt_fits (counterAfter (i + 1)) f).2.2

/-! ## The breakers of the tracer -/

section Tracer

/-- The breaker of the tracer, with its widths. -/
def ExponentialBreaker.toSinkBreaker (breaker : ExponentialBreaker) : SinkBreaker where
  consecutiveFailures := breaker.consecutiveFailures
  cooldownUntilSteadyMs := breaker.cooldownUntilSteadyMs

/-- The window of so many failures, as long as the counter does not wrap. -/
theorem openingAt_natCast (settings : ValidBreakerSettings) (failures : ℕ) (f : SinkFailure) :
    (openingAt settings.toTracingBreakerSettings failures f).cooldownUntilSteadyMs =
      f.sampledAt + cooldownMs settings.toTracingBreakerSettings failures := by
  have hshift : (min (failures : ℤ) 20 - 1).toNat =
      min failures tracingMaxCooldownShift - 1 := by
    show _ = min failures 20 - 1
    omega
  rw [(settings.openingAt_fits failures f).2.1, openingAt_cooldownMs, hshift, cooldownMs,
    Nat.shiftLeft_eq]

/-- As long as the counter does not wrap, a failure is recorded as the tracer does. -/
theorem recordFailure_fst (settings : ValidBreakerSettings) {breaker : ExponentialBreaker}
    (h : breaker.consecutiveFailures + 1 < 2 ^ 31) (f : SinkFailure) :
    (recordFailure settings.toTracingBreakerSettings breaker.toSinkBreaker f).1 =
      (recordSinkFailure settings.toTracingBreakerSettings breaker f.sampledAt).toSinkBreaker := by
  unfold recordFailure
  simp only [ExponentialBreaker.toSinkBreaker, increment_natCast h]
  rcases Nat.lt_or_ge (breaker.consecutiveFailures + 1) settings.failureThreshold with hlt | hge
  · rw [if_pos (Int.ofNat_lt.mpr hlt), recordSinkFailure_below hlt]
  · rw [if_neg (Int.not_lt.mpr (Int.ofNat_le.mpr hge)), recordSinkFailure_reached hge]
    exact congrArg (SinkBreaker.mk _) (openingAt_natCast settings _ f)

theorem afterFailures_cons_fst (settings : TracingBreakerSettings) (breaker : SinkBreaker)
    (f : SinkFailure) (fs : List SinkFailure) :
    (afterFailures settings breaker (f :: fs)).1 =
      (afterFailures settings (recordFailure settings breaker f).1 fs).1 := rfl

theorem afterFailures_fst (settings : ValidBreakerSettings) {breaker : ExponentialBreaker}
    {fs : List SinkFailure} (h : breaker.consecutiveFailures + fs.length < 2 ^ 31) :
    (afterFailures settings.toTracingBreakerSettings breaker.toSinkBreaker fs).1 =
      ((fs.map SinkFailure.sampledAt).foldl
        (recordSinkFailure settings.toTracingBreakerSettings) breaker).toSinkBreaker := by
  induction fs generalizing breaker with
  | nil => rfl
  | cons f fs ih =>
    rw [List.length_cons] at h
    have hcount := (recordSinkFailure_cooldown settings.toTracingBreakerSettings breaker
      f.sampledAt).1
    rw [afterFailures_cons_fst, recordFailure_fst settings (by omega), ih (by rw [hcount]; omega),
      List.map_cons, List.foldl_cons]

/-- The times that were read for the failures of a sink since its last delivery, in turn. -/
def failuresSince (sink : Sink) : List Attempt → List ℕ
  | [] => []
  | a :: older =>
    if a.sink = sink ∧ a.tellsBreaker = true then
      if a.answer.returns then [] else failuresSince sink older ++ [a.sampledAt]
    else failuresSince sink older

theorem breakerBy_eq_foldl (settings : TracingBreakerSettings) (sink : Sink) (log : List Attempt) :
    breakerBy CollectorAnswer.returns settings sink log =
      (failuresSince sink log).foldl (recordSinkFailure settings) {} := by
  induction log with
  | nil => rfl
  | cons a older ih =>
    rw [breakerBy, failuresSince, ih]
    split
    · split
      · rfl
      · rw [List.foldl_append]
        rfl
    · rfl

/-- **In every run of the tracer** the breaker of a sink is that of the failures since the last
delivery, as long as their number fits the counter. -/
theorem breaker_eq_afterFailures (lib : JsonLibrary) (cfg : DeliveryConfig)
    {settings : ValidBreakerSettings} (hsettings : cfg.settings = settings.toTracingBreakerSettings)
    (es : List AnsweredEvent) :
    Always (answeredStep lib cfg)
      (fun s => ∀ sink fs, fs.map SinkFailure.sampledAt = failuresSince sink s.log →
        fs.length < 2 ^ 31 →
        (afterFailures cfg.settings {} fs).1 = (s.jaeger.delivery.breaker sink).toSinkBreaker)
      initialAnswered es := by
  refine always_of_step (fun _ _ _ h hs' => ReturnedInv.step h hs') (fun s h sink fs hfs hlt => ?_)
    (returnedInv_initial cfg.settings) es
  rw [h.breaker sink, breakerBy_eq_foldl, ← hfs, hsettings]
  exact @afterFailures_fst settings {} fs (by rwa [Nat.zero_add])

end Tracer

/-! ## The default settings -/

/-- The default settings. -/
def defaultBreakerSettings : ValidBreakerSettings where
  toTracingBreakerSettings := {}
  valid := by decide
  threshold_lt := by decide
  max_lt := by decide

/-- A failure at the time that was read for it, zero. -/
def promptFailure : SinkFailure where
  sampledAt := 0
  failedAt := 0
  sampled_le := le_rfl
  failed_lt := by decide

/-- **The first cooldown with the default settings lasts four seconds**, not one. -/
theorem defaultSettings_not_followed :
    ¬ FollowsSchedule defaultBreakerSettings.toTracingBreakerSettings
      (List.replicate 3 promptFailure) := by
  intro h
  have hwindow := h.window 0 (openingAt defaultBreakerSettings.toTracingBreakerSettings 3
    promptFailure) rfl
  exact absurd hwindow (by decide)

end Tracing
end HttpDataDiod
