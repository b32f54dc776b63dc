import Mathlib.Data.Nat.Find
import HttpDataDiod.Worker.RetryLoop

/-!
# The attempts of one call

`execute_l2_call_with_retry` once more, now with everything a call leaves behind:
the attempts it makes, the `final_attempt` of its caller, its reports to the
breaker and what it counts in `m_retries_total`.

The bound of the loop is `MAX_RETRIES`, which the validation of the
configuration allows to be zero.

* `executeL2CallTraced`: the call with its trace; `executeL2CallWithRetry_eq`: it is the
  call of the breaker's model.
* `retryLoop_spec`: the loop ends at the first attempt that is not retried.
* `RetryContract`, `retryContract_iff`: a call keeps the contract exactly when
  the breaker rejects it or `MAX_RETRIES` is not zero.
-/

namespace HttpDataDiod
namespace Worker

open ByteText Http

/-- The two reports to the breaker. -/
inductive BreakerReport where
  | success
  | failure
  deriving DecidableEq

/-- `record_success` and `record_failure`. -/
def CircuitBreaker.record (now : ℕ) (cb : CircuitBreaker) : BreakerReport → CircuitBreaker
  | .success => cb.recordSuccess
  | .failure => cb.recordFailure now

/-- The labels of `m_retries_total`. -/
inductive RetryOutcome where
  | retried
  | exhausted
  deriving DecidableEq

/-- What a call leaves behind: the attempts in order, `final_attempt`, the text
of the last exception, what was counted and what was reported. -/
structure CallTrace where
  made : List ℕ
  finalAttempt : ℕ
  lastError : Bytes
  retriesTotal : List RetryOutcome
  reports : List BreakerReport

namespace CallTrace

/-- Before the loop. -/
def initial : CallTrace :=
  { made := [], finalAttempt := 0, lastError := ascii "Initial error", retriesTotal := [],
    reports := [] }

/-- An attempt begins. -/
def start (t : CallTrace) (attempt : ℕ) : CallTrace :=
  { t with made := t.made ++ [attempt], finalAttempt := attempt }

/-- `count_retry`. -/
def countRetry (t : CallTrace) (outcome : RetryOutcome) : CallTrace :=
  { t with retriesTotal := t.retriesTotal ++ [outcome] }

/-- A report to the breaker. -/
def report (t : CallTrace) (r : BreakerReport) : CallTrace := { t with reports := t.reports ++ [r] }

end CallTrace

/-- `attempt_sequence`. -/
def attemptSequence (max : ℕ) : List ℕ := List.range' 1 max

/-- The loop of `execute_l2_call_with_retry`: the trace, and the response if the
loop is left with one. -/
def retryLoop (maxRetries : ℕ) (outcome : ℕ → AttemptOutcome) :
    List ℕ → CallTrace → CallTrace × Option HttpResponse
  | [], t => (t, none)
  | attempt :: rest, t =>
    let t := t.start attempt
    match outcome attempt with
    | .response r =>
      if isRetryStatus r.status ∧ attempt < maxRetries then
        retryLoop maxRetries outcome rest (t.countRetry .retried)
      else
        let t := if 500 ≤ r.status ∧ maxRetries ≤ attempt then t.countRetry .exhausted else t
        (t.report (if isReportedSuccess r.status then .success else .failure), some r)
    | .exception what =>
      let t := { t with lastError := what }
      retryLoop maxRetries outcome rest
        (t.countRetry (if attempt < maxRetries then .retried else .exhausted))

/-- The end of `execute_l2_call_with_retry`. -/
def leaveAttempts (url : Bytes) (maxRetries : ℕ) :
    CallTrace × Option HttpResponse → CallTrace × L2Response
  | (t, some r) => (t, .backend r)
  | (t, none) => (t.report .failure, .error 500 (failedMessage url maxRetries t.lastError))

/-- `execute_l2_call_with_retry` as `call_l2_server` runs it, with
`final_attempt` at zero: the trace and the answer. -/
def executeL2CallTraced (cb : CircuitBreaker) (askedAt : ℕ) (url : Bytes) (maxRetries : ℕ)
    (outcome : ℕ → AttemptOutcome) : CallTrace × L2Response :=
  if (cb.allowRequest askedAt).1 then
    leaveAttempts url maxRetries
      (retryLoop maxRetries outcome (attemptSequence maxRetries) .initial)
  else (.initial, rejectedResponse)

/-! ## The trace belongs to the call -/

/-- The two loops come to the same report and the same answer. -/
theorem finishCall_attemptLoop (cb : CircuitBreaker) (now : ℕ) (url : Bytes) (maxRetries : ℕ)
    (outcome : ℕ → AttemptOutcome) (remaining attempt : ℕ) (t : CallTrace)
    (ht : t.reports = []) :
    finishCall cb now url maxRetries
        (attemptLoop maxRetries outcome remaining attempt t.lastError) =
      let r := leaveAttempts url maxRetries
        (retryLoop maxRetries outcome (List.range' attempt remaining) t)
      (r.1.reports.foldl (CircuitBreaker.record now) cb, r.2) := by
  induction remaining generalizing attempt t with
  | zero =>
    show finishCall cb now url maxRetries (.exhausted t.lastError) = _
    simp [finishCall, leaveAttempts, retryLoop, CallTrace.report, ht, CircuitBreaker.record]
  | succ remaining ih =>
    rw [List.range'_succ, attemptLoop, retryLoop]
    cases outcome attempt with
    | exception what =>
      exact ih (attempt + 1) { ((t.start attempt).countRetry
        (if attempt < maxRetries then .retried else .exhausted)) with lastError := what } ht
    | response r =>
      simp only
      split
      · exact ih (attempt + 1) ((t.start attempt).countRetry .retried) ht
      · split
        · simp only [finishCall, leaveAttempts, CallTrace.report, CallTrace.countRetry,
            CallTrace.start, ht, List.nil_append, List.foldl_cons, List.foldl_nil]
          split <;> rfl
        · simp only [finishCall, leaveAttempts, CallTrace.report, CallTrace.start, ht,
            List.nil_append, List.foldl_cons, List.foldl_nil]
          split <;> rfl

/-- **The call and its trace.**  The answer is that of the traced call, and the
breaker has been asked and then given the reports of the trace. -/
theorem executeL2CallWithRetry_eq (cb : CircuitBreaker) (askedAt reportedAt : ℕ) (url : Bytes)
    (maxRetries : ℕ) (outcome : ℕ → AttemptOutcome) :
    executeL2CallWithRetry cb askedAt reportedAt url maxRetries outcome =
      ((executeL2CallTraced cb askedAt url maxRetries outcome).1.reports.foldl
          (CircuitBreaker.record reportedAt) (cb.allowRequest askedAt).2,
        (executeL2CallTraced cb askedAt url maxRetries outcome).2) := by
  unfold executeL2CallWithRetry executeL2CallTraced
  cases cb.allowRequest askedAt with
  | mk allowed cb' =>
    cases allowed with
    | false => rfl
    | true =>
      exact finishCall_attemptLoop cb' reportedAt url maxRetries outcome maxRetries 1 .initial rfl

/-! ## Where the loop ends -/

/-- The outcomes after which there may be a further attempt: 502, 503, 504 and an
exception. -/
def AttemptOutcome.retryable : AttemptOutcome → Bool
  | .response r => isRetryStatus r.status
  | .exception _ => true

/-- The report of a call whose last attempt ended so. -/
def AttemptOutcome.report : AttemptOutcome → BreakerReport
  | .response r => if isReportedSuccess r.status then .success else .failure
  | .exception _ => .failure

/-- The answer of a call whose last attempt ended so: the response, or the 500
error. -/
def AttemptOutcome.answer (url : Bytes) (maxRetries : ℕ) : AttemptOutcome → L2Response
  | .response r => .backend r
  | .exception what => .error 500 (failedMessage url maxRetries what)

/-- Attempt `n` is followed by a further one. -/
def IsRetried (maxRetries : ℕ) (outcome : ℕ → AttemptOutcome) (n : ℕ) : Prop :=
  (outcome n).retryable = true ∧ n < maxRetries

/-- A retried attempt leaves a trace, but no report. -/
theorem retryLoop_of_isRetried {maxRetries : ℕ} {outcome : ℕ → AttemptOutcome} {n : ℕ}
    (h : IsRetried maxRetries outcome n) (rest : List ℕ) (t : CallTrace) :
    ∃ lastError, retryLoop maxRetries outcome (n :: rest) t = retryLoop maxRetries outcome rest
      { ((t.start n).countRetry .retried) with lastError } := by
  obtain ⟨hretry, hlt⟩ := h
  simp only [retryLoop]
  cases hout : outcome n with
  | response r =>
    rw [hout] at hretry
    refine ⟨t.lastError, ?_⟩
    simp only
    rw [if_pos ⟨hretry, hlt⟩]
    rfl
  | exception what =>
    refine ⟨what, ?_⟩
    simp only [if_pos hlt]
    rfl

/-- The last attempt decides on the report and the answer. -/
theorem leaveAttempts_of_not_isRetried {maxRetries : ℕ} {outcome : ℕ → AttemptOutcome} {n : ℕ}
    (hn : n ≤ maxRetries) (h : ¬ IsRetried maxRetries outcome n) (url : Bytes) (t : CallTrace) :
    let r := leaveAttempts url maxRetries
      (retryLoop maxRetries outcome (List.range' n (maxRetries + 1 - n)) t)
    r.1.made = t.made ++ [n] ∧ r.1.finalAttempt = n ∧
      r.1.retriesTotal.count .retried = t.retriesTotal.count .retried ∧
      r.1.reports = t.reports ++ [(outcome n).report] ∧
      r.2 = (outcome n).answer url maxRetries := by
  have hrange : List.range' n (maxRetries + 1 - n) =
      n :: List.range' (n + 1) (maxRetries - n) := by
    rw [show maxRetries + 1 - n = maxRetries - n + 1 by omega, List.range'_succ]
  rw [hrange, retryLoop]
  cases hout : outcome n with
  | response r =>
    have hstop : ¬ (isRetryStatus r.status = true ∧ n < maxRetries) := by
      unfold IsRetried at h
      rw [hout] at h
      exact h
    simp only
    rw [if_neg hstop]
    refine ⟨?_, ?_, ?_, ?_, rfl⟩
    · split <;> rfl
    · split <;> rfl
    · split
      · simp [leaveAttempts, CallTrace.report, CallTrace.countRetry, CallTrace.start]
      · rfl
    · split <;> rfl
  | exception what =>
    -- an exception ends the loop only when there is no attempt left
    obtain rfl : n = maxRetries := by
      unfold IsRetried at h
      rw [hout] at h
      have : ¬ n < maxRetries := fun hlt => h ⟨rfl, hlt⟩
      omega
    rw [Nat.sub_self]
    refine ⟨rfl, rfl, ?_, rfl, rfl⟩
    simp [leaveAttempts, retryLoop, CallTrace.report, CallTrace.countRetry, CallTrace.start]

/-- **The loop ends at the first attempt that is not retried**, with the report
and the answer of that attempt. -/
theorem retryLoop_spec {maxRetries : ℕ} {outcome : ℕ → AttemptOutcome} {k : ℕ}
    (hk : k ≤ maxRetries) (hstop : ¬ IsRetried maxRetries outcome k) (url : Bytes) (n : ℕ)
    (hn : n ≤ k) (hretried : ∀ m, n ≤ m → m < k → IsRetried maxRetries outcome m)
    (t : CallTrace) :
    let r := leaveAttempts url maxRetries
      (retryLoop maxRetries outcome (List.range' n (maxRetries + 1 - n)) t)
    r.1.made = t.made ++ List.range' n (k + 1 - n) ∧ r.1.finalAttempt = k ∧
      r.1.retriesTotal.count .retried = t.retriesTotal.count .retried + (k - n) ∧
      r.1.reports = t.reports ++ [(outcome k).report] ∧
      r.2 = (outcome k).answer url maxRetries := by
  -- the induction is on the number of attempts before the last one
  obtain ⟨d, rfl⟩ := Nat.exists_eq_add_of_le hn
  induction d generalizing n t with
  | zero =>
    have hone : List.range' n (n + 0 + 1 - n) = [n] := by
      rw [show n + 0 + 1 - n = 1 by omega, List.range'_one]
    rw [hone]
    simpa using leaveAttempts_of_not_isRetried hk hstop url t
  | succ d ih =>
    obtain ⟨lastError, hloop⟩ := retryLoop_of_isRetried (hretried n le_rfl (by omega))
      (List.range' (n + 1) (maxRetries + 1 - (n + 1))) t
    have hrange : List.range' n (maxRetries + 1 - n) =
        n :: List.range' (n + 1) (maxRetries + 1 - (n + 1)) := by
      rw [show maxRetries + 1 - n = maxRetries + 1 - (n + 1) + 1 by omega, List.range'_succ]
    have hmade : List.range' n (n + (d + 1) + 1 - n) =
        n :: List.range' (n + 1) (n + 1 + d + 1 - (n + 1)) := by
      rw [show n + (d + 1) + 1 - n = n + 1 + d + 1 - (n + 1) + 1 by omega, List.range'_succ]
    have hshift : n + (d + 1) = n + 1 + d := by omega
    rw [hrange, hloop, hmade]
    rw [hshift] at hk hstop hretried ⊢
    obtain ⟨h₁, h₂, h₃, h₄, h₅⟩ := ih (n + 1)
      { ((t.start n).countRetry .retried) with lastError } hk hstop (Nat.le_add_right _ _)
      (fun m hm hlt => hretried m (by omega) hlt)
    refine ⟨?_, h₂, ?_, h₄, h₅⟩
    · rw [h₁]
      simp [CallTrace.start, CallTrace.countRetry]
    · rw [h₃]
      simp only [CallTrace.start, CallTrace.countRetry, List.count_append, List.count_singleton]
      simp
      omega

/-- With at least one attempt allowed, some attempt is the first that is not
retried. -/
theorem exists_first_not_isRetried {maxRetries : ℕ} (hpos : 1 ≤ maxRetries)
    (outcome : ℕ → AttemptOutcome) :
    ∃ k, 1 ≤ k ∧ k ≤ maxRetries ∧ ¬ IsRetried maxRetries outcome k ∧
      ∀ m, 1 ≤ m → m < k → IsRetried maxRetries outcome m := by
  classical
  have hlast : ∃ k, 1 ≤ k ∧ ¬ IsRetried maxRetries outcome k :=
    ⟨maxRetries, hpos, fun h => lt_irrefl _ h.2⟩
  obtain ⟨hk, hstop⟩ := Nat.find_spec hlast
  refine ⟨Nat.find hlast, hk, ?_, hstop, fun m hm hlt => ?_⟩
  · exact Nat.find_min' hlast ⟨hpos, fun h => lt_irrefl _ h.2⟩
  · by_contra hnot
    exact Nat.find_min hlast hlt ⟨hm, hnot⟩

/-! ## The contract of a call -/

/-- **The contract.**  A rejected call makes no attempt and no report.  An
admitted one makes at least one attempt and no more than `max(1, MAX_RETRIES)`,
a further one only after 502, 503, 504 or an exception; it answers with the
first response that is not retried, or with the 500 error of an exception of the
last attempt; and it makes one report.  `final_attempt` is the number of
attempts. -/
structure RetryContract (admitted : Bool) (url : Bytes) (maxRetries : ℕ)
    (outcome : ℕ → AttemptOutcome) (r : CallTrace × L2Response) : Prop where
  numbered : r.1.made = attemptSequence r.1.made.length
  finalAttempt : r.1.finalAttempt = r.1.made.length
  rejected : admitted = false → r.1.made = [] ∧ r.1.reports = [] ∧ r.2 = rejectedResponse
  attempted : admitted = true → 1 ≤ r.1.made.length ∧ r.1.made.length ≤ max 1 maxRetries
  further : ∀ n, 1 ≤ n → n < r.1.made.length → (outcome n).retryable = true
  settled : admitted = true → ¬ IsRetried maxRetries outcome r.1.made.length
  answered : admitted = true → r.2 = (outcome r.1.made.length).answer url maxRetries
  reported : admitted = true → r.1.reports = [(outcome r.1.made.length).report]

/-- A call that makes its attempts keeps the contract. -/
theorem retryContract_of_pos {cb : CircuitBreaker} {askedAt : ℕ}
    (hallow : (cb.allowRequest askedAt).1 = true) (url : Bytes) {maxRetries : ℕ}
    (hpos : 1 ≤ maxRetries) (outcome : ℕ → AttemptOutcome) :
    RetryContract true url maxRetries outcome
      (executeL2CallTraced cb askedAt url maxRetries outcome) := by
  obtain ⟨k, hk, hle, hstop, hretried⟩ := exists_first_not_isRetried hpos outcome
  obtain ⟨hmade, hfinal, -, hreports, hanswer⟩ :=
    retryLoop_spec hle hstop url 1 hk hretried .initial
  have hcall : executeL2CallTraced cb askedAt url maxRetries outcome = leaveAttempts url maxRetries
      (retryLoop maxRetries outcome (List.range' 1 (maxRetries + 1 - 1)) .initial) := by
    rw [executeL2CallTraced, if_pos hallow, Nat.add_sub_cancel]
    rfl
  rw [← hcall] at hmade hfinal hreports hanswer
  have hseq : (executeL2CallTraced cb askedAt url maxRetries outcome).1.made =
      attemptSequence k := by
    rw [hmade, Nat.add_sub_cancel]
    rfl
  have hlength : (executeL2CallTraced cb askedAt url maxRetries outcome).1.made.length = k := by
    rw [hseq, attemptSequence, List.length_range']
  constructor
  · rw [hlength, hseq]
  · rw [hlength, hfinal]
  · intro hrejected
    cases hrejected
  · rw [hlength]
    exact fun _ => ⟨hk, hle.trans (Nat.le_max_right 1 maxRetries)⟩
  · rw [hlength]
    exact fun n hn hlt => (hretried n hn hlt).1
  · rw [hlength]
    exact fun _ => hstop
  · rw [hlength]
    exact fun _ => hanswer
  · rw [hlength]
    exact fun _ => hreports

/-- A rejected call keeps the contract. -/
theorem retryContract_of_rejected {cb : CircuitBreaker} {askedAt : ℕ}
    (hallow : (cb.allowRequest askedAt).1 = false) (url : Bytes) (maxRetries : ℕ)
    (outcome : ℕ → AttemptOutcome) :
    RetryContract false url maxRetries outcome
      (executeL2CallTraced cb askedAt url maxRetries outcome) := by
  rw [executeL2CallTraced, hallow, if_neg (by simp)]
  constructor
  · rfl
  · rfl
  · exact fun _ => ⟨rfl, rfl, rfl⟩
  · intro hadmitted
    cases hadmitted
  · intro n _ hlt
    exact absurd hlt (Nat.not_lt_zero n)
  · intro hadmitted
    cases hadmitted
  · intro hadmitted
    cases hadmitted
  · intro hadmitted
    cases hadmitted

/-- Only an admitted call makes attempts, and none beyond the bound. -/
theorem of_mem_made {cb : CircuitBreaker} {askedAt : ℕ} {url : Bytes} {maxRetries : ℕ}
    {outcome : ℕ → AttemptOutcome} {n : ℕ}
    (hn : n ∈ (executeL2CallTraced cb askedAt url maxRetries outcome).1.made) :
    (cb.allowRequest askedAt).1 = true ∧ 1 ≤ n ∧ n ≤ maxRetries := by
  cases hallow : (cb.allowRequest askedAt).1 with
  | false =>
    obtain ⟨hmade, -⟩ := (retryContract_of_rejected hallow url maxRetries outcome).rejected rfl
    rw [hmade] at hn
    exact absurd hn List.not_mem_nil
  | true =>
    have hpos : 1 ≤ maxRetries := by
      by_contra hzero
      obtain rfl : maxRetries = 0 := by omega
      rw [executeL2CallTraced, if_pos hallow] at hn
      exact absurd hn List.not_mem_nil
    have h := retryContract_of_pos hallow url hpos outcome
    obtain ⟨-, hmost⟩ := h.attempted rfl
    rw [h.numbered, attemptSequence, List.mem_range'_1] at hn
    rw [max_eq_right hpos] at hmost
    exact ⟨rfl, hn.1, by omega⟩

/-- **When the contract is kept.**  For every breaker, bound and sequence of
outcomes: exactly when the call is rejected or the bound is not zero. -/
theorem retryContract_iff (cb : CircuitBreaker) (askedAt : ℕ) (url : Bytes) (maxRetries : ℕ)
    (outcome : ℕ → AttemptOutcome) :
    RetryContract (cb.allowRequest askedAt).1 url maxRetries outcome
        (executeL2CallTraced cb askedAt url maxRetries outcome) ↔
      ((cb.allowRequest askedAt).1 = true → 1 ≤ maxRetries) := by
  cases hallow : (cb.allowRequest askedAt).1 with
  | false => exact iff_of_true (retryContract_of_rejected hallow url maxRetries outcome) (by simp)
  | true =>
    constructor
    · intro h _
      obtain ⟨hone, -⟩ := h.attempted rfl
      by_contra hzero
      obtain rfl : maxRetries = 0 := by omega
      rw [executeL2CallTraced, if_pos hallow] at hone
      exact absurd hone (Nat.not_succ_le_zero 0)
    · intro hpos
      exact retryContract_of_pos hallow url (hpos rfl) outcome

/-- A backend that answers every attempt with 200. -/
def healthyBackend (_ : ℕ) : AttemptOutcome :=
  .response { body := [], headers := [], status := 200 }

/-- **With `MAX_RETRIES=0` a healthy backend is never called**: the answer is the
500 error with the text the loop started with, and the breaker counts a failure. -/
theorem no_attempt_of_zero :
    (executeL2CallTraced .initial 0 (ascii "http://l2/x") 0 healthyBackend).1.made = [] ∧
    (executeL2CallTraced .initial 0 (ascii "http://l2/x") 0 healthyBackend).1.reports = [.failure] ∧
    (executeL2CallTraced .initial 0 (ascii "http://l2/x") 0 healthyBackend).2 =
      .error 500 (ascii "Failed to call L2 server ( url: http://l2/x ) " ++
        ascii "after 0 attempts: Initial error") ∧
    ¬ RetryContract (CircuitBreaker.initial.allowRequest 0).1 (ascii "http://l2/x") 0 healthyBackend
      (executeL2CallTraced .initial 0 (ascii "http://l2/x") 0 healthyBackend) := by
  refine ⟨rfl, rfl, congrArg (L2Response.error 500) (by decide +kernel), fun h => ?_⟩
  exact absurd (h.attempted rfl).1 (by decide)

end Worker
end HttpDataDiod
