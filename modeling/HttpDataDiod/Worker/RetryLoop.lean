import HttpDataDiod.Http.Client
import HttpDataDiod.Lib.Transition
import HttpDataDiod.Worker.CircuitBreaker

/-!
# Calls under the circuit breaker

Model of `execute_l2_call_with_retry` of `l2_worker.cpp`: the breaker is asked
once, up to `MAX_RETRIES` attempts are made, and the outcome is reported to the
breaker once.  A response of 502, 503 or 504 and an exception are retried while
attempts are left; any other response ends the call.

The calls of the worker's threads overlap, so a run is a list of events: a call
begins (it asks the breaker) or ends (its attempts are over and it reports).

* `executeL2CallWithRetry`: one call.
* `BreakerRun`, `breakerStep`: overlapping calls.
* `attempts_of_below_500`: a response below 500 ends the call at once.
* `breaker_closed_iff`: with responses below 500 only, the breaker stays closed
  and nothing is rejected exactly when no five calls in a row report a status
  outside 200..399.
-/

namespace HttpDataDiod
namespace Worker

open ByteText Http Transition

/-- How one attempt ends: with a response, or with an exception of the pool or
the transport. -/
inductive AttemptOutcome where
  | response (r : HttpResponse)
  | exception (what : Bytes)

/-- What the caller gets: the backend's response, or the body of
`make_error_response`. -/
inductive L2Response where
  | backend (r : HttpResponse)
  | error (status : ℤ) (message : Bytes)

/-- The status the caller gets. -/
def L2Response.status : L2Response → ℤ
  | .backend r => r.status
  | .error status _ => status

/-- The statuses that are retried: 502, 503, 504. -/
def isRetryStatus (status : ℤ) : Bool := status = 502 || status = 503 || status = 504

/-- The statuses that are reported to the breaker as a success. -/
def isReportedSuccess (status : ℤ) : Bool := 200 ≤ status && status < 400

/-- How the loop over the attempts ends. -/
inductive LoopEnd where
  | returned (r : HttpResponse) (attempt : ℕ)
  | exhausted (lastError : Bytes)

/-- The loop over the attempts; `remaining` counts those not yet begun, and
`outcome n` is how attempt `n` ends. -/
def attemptLoop (maxRetries : ℕ) (outcome : ℕ → AttemptOutcome) : ℕ → ℕ → Bytes → LoopEnd
  | 0, _, lastError => .exhausted lastError
  | remaining + 1, attempt, lastError =>
    match outcome attempt with
    | .response r =>
      if isRetryStatus r.status ∧ attempt < maxRetries then
        attemptLoop maxRetries outcome remaining (attempt + 1) lastError
      else .returned r attempt
    | .exception what => attemptLoop maxRetries outcome remaining (attempt + 1) what

/-- The attempts of one call. -/
def attempts (maxRetries : ℕ) (outcome : ℕ → AttemptOutcome) : LoopEnd :=
  attemptLoop maxRetries outcome maxRetries 1 (ascii "Initial error")

/-- The text of the 500 answer. -/
def failedMessage (url : Bytes) (maxRetries : ℕ) (lastError : Bytes) : Bytes :=
  ascii "Failed to call L2 server ( url: " ++ url ++ ascii " ) after " ++ decimal maxRetries ++
    ascii " attempts: " ++ lastError

/-- The answer of a call that the breaker refuses. -/
def rejectedResponse : L2Response :=
  .error 503 (ascii "L2 server circuit breaker open, service temporarily unavailable")

/-- The report to the breaker, and the answer, after the attempts. -/
def finishCall (cb : CircuitBreaker) (now : ℕ) (url : Bytes) (maxRetries : ℕ) :
    LoopEnd → CircuitBreaker × L2Response
  | .returned r _ =>
    (if isReportedSuccess r.status then cb.recordSuccess else cb.recordFailure now, .backend r)
  | .exhausted lastError =>
    (cb.recordFailure now, .error 500 (failedMessage url maxRetries lastError))

/-- `execute_l2_call_with_retry`, with nothing else happening meanwhile; the
clock is read when the call asks and when it reports. -/
def executeL2CallWithRetry (cb : CircuitBreaker) (askedAt reportedAt : ℕ) (url : Bytes)
    (maxRetries : ℕ) (outcome : ℕ → AttemptOutcome) : CircuitBreaker × L2Response :=
  match cb.allowRequest askedAt with
  | (false, cb') => (cb', rejectedResponse)
  | (true, cb') => finishCall cb' reportedAt url maxRetries (attempts maxRetries outcome)

/-! ## Overlapping calls -/

/-- The breaker, the number of calls between asking and reporting, and the
answers given so far, newest first. -/
structure BreakerRun where
  breaker : CircuitBreaker
  inFlight : ℕ
  answers : List L2Response

/-- A call asks the breaker, or makes its attempts and reports. -/
inductive CallEvent where
  | begin (now : ℕ)
  | finish (now : ℕ) (url : Bytes) (outcome : ℕ → AttemptOutcome)

/-- One event. -/
def breakerStep (maxRetries : ℕ) (s : BreakerRun) : CallEvent → Option BreakerRun
  | .begin now =>
    match s.breaker.allowRequest now with
    | (false, cb) => some { s with breaker := cb, answers := rejectedResponse :: s.answers }
    | (true, cb) => some { s with breaker := cb, inFlight := s.inFlight + 1 }
  | .finish now url outcome =>
    match s.inFlight with
    | 0 => none
    | n + 1 =>
      let r := finishCall s.breaker now url maxRetries (attempts maxRetries outcome)
      some { breaker := r.1, inFlight := n, answers := r.2 :: s.answers }

/-- Before the first call. -/
def initialRun : BreakerRun := { breaker := .initial, inFlight := 0, answers := [] }

/-- A call on its own is its two events, one after the other. -/
theorem run_begin_finish (maxRetries : ℕ) (s : BreakerRun) (askedAt reportedAt : ℕ)
    (url : Bytes) (outcome : ℕ → AttemptOutcome)
    (hallow : (s.breaker.allowRequest askedAt).1 = true) :
    run (breakerStep maxRetries) s [.begin askedAt, .finish reportedAt url outcome] =
      some { s with
        breaker := (executeL2CallWithRetry s.breaker askedAt reportedAt url maxRetries outcome).1,
        answers := (executeL2CallWithRetry s.breaker askedAt reportedAt url maxRetries
          outcome).2 :: s.answers } := by
  cases hask : s.breaker.allowRequest askedAt with
  | mk allowed cb =>
    rw [hask] at hallow
    obtain rfl : allowed = true := hallow
    simp only [run_cons, breakerStep, hask, executeL2CallWithRetry, Option.bind_some, run_nil]

/-! ## Responses below 500 -/

/-- Every attempt of the event's call would end with a response below 500. -/
def CallEvent.Below500 : CallEvent → Prop
  | .begin _ => True
  | .finish _ _ outcome => ∀ n, ∃ r, outcome n = .response r ∧ r.status < 500

/-- Whether the call of a finishing event gets a status in 200..399. -/
def CallEvent.succeeded : CallEvent → Option Bool
  | .begin _ => none
  | .finish _ _ outcome =>
    match outcome 1 with
    | .response r => some (isReportedSuccess r.status)
    | .exception _ => some false

/-- The successes and failures of a run, in the order the calls report. -/
def successes (es : List CallEvent) : List Bool := es.filterMap CallEvent.succeeded

/-- A response below 500 is returned by the first attempt. -/
theorem attempts_of_below_500 {maxRetries : ℕ} (hpos : 1 ≤ maxRetries)
    {outcome : ℕ → AttemptOutcome} {r : HttpResponse} (hr : outcome 1 = .response r)
    (hstatus : r.status < 500) : attempts maxRetries outcome = .returned r 1 := by
  have hretry : isRetryStatus r.status = false := by
    simp only [isRetryStatus, Bool.or_eq_false_iff, decide_eq_false_iff_not]
    omega
  obtain ⟨n, rfl⟩ : ∃ n, maxRetries = n + 1 := ⟨maxRetries - 1, by omega⟩
  simp [attempts, attemptLoop, hr, hretry]

/-- The breaker is closed and no call has been rejected. -/
def StaysClosed (s : BreakerRun) : Prop :=
  s.breaker.state = .closed ∧ rejectedResponse ∉ s.answers

/-! ## Runs of failures -/

/-- What lies in `a ++ x :: b` and does not hold `x` lies in `a` or in `b`. -/
theorem infix_of_infix_append_cons {α : Type} {m a b : List α} {x : α} (hx : x ∉ m)
    (h : m <:+: a ++ x :: b) : m <:+: a ∨ m <:+: b := by
  have hbegins : ∀ a : List α, m <+: a ++ x :: b → m <+: a := by
    intro a h
    obtain ⟨t, ht⟩ := h
    rcases List.append_eq_append_iff.mp ht with ⟨c, rfl, -⟩ | ⟨c, rfl, hc⟩
    · exact ⟨c, rfl⟩
    · cases c with
      | nil => exact ⟨[], by simp⟩
      | cons y c =>
        obtain ⟨rfl, -⟩ := List.cons.inj hc
        exact absurd (by simp) hx
  induction a with
  | nil =>
    rcases List.infix_cons_iff.mp h with h | h
    · exact Or.inl (hbegins [] h).isInfix
    · exact Or.inr h
  | cons c a ih =>
    rcases List.infix_cons_iff.mp h with h | h
    · exact Or.inl (hbegins (c :: a) h).isInfix
    · rcases ih h with h | h
      · exact Or.inl (h.trans (List.suffix_cons c a).isInfix)
      · exact Or.inr h

/-- Fewer than five failures before a success do not count. -/
theorem infix_failures_success {k : ℕ} (hk : k < CircuitBreaker.failureThreshold)
    (bs : List Bool) :
    List.replicate CircuitBreaker.failureThreshold false <:+: List.replicate k false ++ true :: bs ↔
      List.replicate CircuitBreaker.failureThreshold false <:+: bs := by
  constructor
  · intro h
    rcases infix_of_infix_append_cons (by simp) h with h | h
    · have := h.length_le
      simp only [List.length_replicate] at this
      omega
    · exact h
  · intro h
    refine h.trans (List.IsSuffix.isInfix ⟨List.replicate k false ++ [true], by simp⟩)

/-- What a call that gets a response below 500 does to the run. -/
theorem breakerStep_finish {maxRetries : ℕ} (hpos : 1 ≤ maxRetries) {s s' : BreakerRun}
    {now : ℕ} {url : Bytes} {outcome : ℕ → AttemptOutcome} {r : HttpResponse}
    (hr : outcome 1 = .response r) (hstatus : r.status < 500)
    (hstep : breakerStep maxRetries s (.finish now url outcome) = some s') :
    s'.breaker = (if isReportedSuccess r.status then s.breaker.recordSuccess
      else s.breaker.recordFailure now) ∧ s'.answers = .backend r :: s.answers := by
  unfold breakerStep at hstep
  simp only [attempts_of_below_500 hpos hr hstatus, finishCall] at hstep
  split at hstep
  · exact absurd hstep (by simp)
  · obtain rfl := Option.some.inj hstep
    exact ⟨rfl, rfl⟩

/-- **The step of the argument.**  From a closed breaker with `k` failures
counted, the run stays closed exactly when these failures and the reports to
come hold no five failures in a row. -/
theorem staysClosed_iff {maxRetries : ℕ} (hpos : 1 ≤ maxRetries) {es : List CallEvent}
    (hbelow : ∀ e ∈ es, e.Below500) {s t : BreakerRun} (hs : StaysClosed s)
    (hk : s.breaker.failureCount < CircuitBreaker.failureThreshold)
    (hrun : run (breakerStep maxRetries) s es = some t) :
    Always (breakerStep maxRetries) StaysClosed s es ↔
      ¬ List.replicate CircuitBreaker.failureThreshold false <:+:
        List.replicate s.breaker.failureCount false ++ successes es := by
  induction es generalizing s with
  | nil =>
    refine iff_of_true hs fun h => ?_
    have := h.length_le
    simp only [successes, List.filterMap_nil, List.append_nil, List.length_replicate] at this
    omega
  | cons e es ih =>
    have hrest : ∀ e' ∈ es, e'.Below500 := fun e' he' => hbelow e' (List.mem_cons_of_mem e he')
    obtain ⟨s', hstep, hrun'⟩ := Option.bind_eq_some_iff.mp hrun
    rw [always_cons_of_step hstep, and_iff_right hs]
    obtain ⟨hclosed, hanswers⟩ := hs
    cases e with
    | begin now =>
      -- a closed breaker lets the call through and stays as it is
      simp only [breakerStep, CircuitBreaker.allowRequest_closed hclosed] at hstep
      obtain rfl := Option.some.inj hstep
      exact ih hrest ⟨hclosed, hanswers⟩ hk hrun'
    | finish now url outcome =>
      obtain ⟨r, hr, hstatus⟩ := hbelow _ List.mem_cons_self 1
      obtain ⟨hbreaker, hanswers'⟩ := breakerStep_finish hpos hr hstatus hstep
      have hnot : rejectedResponse ∉ s'.answers := by
        rw [hanswers', List.mem_cons, not_or]
        exact ⟨by simp [rejectedResponse], hanswers⟩
      have hreport : successes (.finish now url outcome :: es)
          = isReportedSuccess r.status :: successes es := by
        simp [successes, CallEvent.succeeded, hr]
      rw [hreport]
      cases hok : isReportedSuccess r.status with
      | true =>
        -- a success resets the count
        obtain ⟨hclosed', hcount⟩ := CircuitBreaker.recordSuccess_closed hclosed
        rw [hok, if_pos rfl] at hbreaker
        rw [← hbreaker] at hclosed' hcount
        rw [infix_failures_success hk,
          ih hrest ⟨hclosed', hnot⟩ (by rw [hcount]; decide) hrun', hcount]
        rfl
      | false =>
        obtain ⟨hcounted, hopens⟩ := CircuitBreaker.recordFailure_closed hclosed now
        rw [hok, if_neg (by simp)] at hbreaker
        rw [← hbreaker] at hcounted hopens
        have hshift : List.replicate s.breaker.failureCount false ++ false :: successes es
            = List.replicate (s.breaker.failureCount + 1) false ++ successes es := by
          rw [List.replicate_succ', List.append_assoc]
          rfl
        rw [hshift]
        by_cases hlt : s.breaker.failureCount + 1 < CircuitBreaker.failureThreshold
        · obtain ⟨hclosed', hcount⟩ := hcounted hlt
          rw [ih hrest ⟨hclosed', hnot⟩ (by rw [hcount]; exact hlt) hrun', hcount]
        · -- the fifth failure in a row opens the breaker
          have hfive : s.breaker.failureCount + 1 = CircuitBreaker.failureThreshold := by omega
          rw [hfive]
          refine iff_of_false (fun h => ?_) (not_not.mpr (List.prefix_append _ _).isInfix)
          exact absurd (h.head.1.symm.trans (hopens (by omega))) (by simp)

/-- **Client errors and the breaker.**  In a run whose attempts all get a
response below 500, the breaker is closed after every event and no call is
rejected if and only if no five calls that report one after the other get a
status outside 200..399. -/
theorem breaker_closed_iff {maxRetries : ℕ} (hpos : 1 ≤ maxRetries) {es : List CallEvent}
    (hbelow : ∀ e ∈ es, e.Below500) {t : BreakerRun}
    (hrun : run (breakerStep maxRetries) initialRun es = some t) :
    Always (breakerStep maxRetries) StaysClosed initialRun es ↔
      ¬ List.replicate 5 false <:+: successes es := by
  have hinit : StaysClosed initialRun := ⟨rfl, by simp [initialRun]⟩
  exact staysClosed_iff hpos hbelow hinit (by decide) hrun

/-- Calls one after the other that get the given statuses. -/
def callsWithStatuses (statuses : List ℤ) : List CallEvent :=
  statuses.flatMap fun status =>
    [.begin 0, .finish 0 (ascii "http://l2/x")
      fun _ => .response { body := [], headers := [], status }]

/-- Five 404 answers open the breaker, and the next call is rejected. -/
theorem breaker_opened_by_404 :
    ∃ s, run (breakerStep 1) initialRun
        (callsWithStatuses [404, 404, 404, 404, 404] ++ [.begin 1]) = some s ∧
      s.breaker.state = .opened ∧ s.answers.head? = some rejectedResponse ∧
      ¬ Always (breakerStep 1) StaysClosed initialRun
        (callsWithStatuses [404, 404, 404, 404, 404] ++ [.begin 1]) := by
  refine ⟨_, rfl, rfl, rfl, fun h => ?_⟩
  have hclosed := (always_iff.mp h _ [] _ (List.append_nil _).symm rfl).1
  exact absurd hclosed (by decide)

/-- Four 404 answers, a redirect and a 401: the breaker stays closed throughout. -/
theorem breaker_closed_at_four_404 :
    Always (breakerStep 1) StaysClosed initialRun
      (callsWithStatuses [404, 404, 404, 404, 302, 401]) := by
  have hbelow : ∀ e ∈ callsWithStatuses [404, 404, 404, 404, 302, 401], e.Below500 := by
    intro e he
    obtain ⟨status, hstatus, he⟩ := List.mem_flatMap.mp he
    have hall : ∀ status ∈ ([404, 404, 404, 404, 302, 401] : List ℤ), status < 500 := by decide
    have hlt := hall status hstatus
    rcases List.mem_cons.mp he with rfl | he
    · trivial
    · rw [List.mem_singleton.mp he]
      exact fun _ => ⟨_, rfl, hlt⟩
  obtain ⟨t, hrun⟩ : ∃ t, run (breakerStep 1) initialRun
      (callsWithStatuses [404, 404, 404, 404, 302, 401]) = some t := ⟨_, rfl⟩
  exact (breaker_closed_iff le_rfl hbelow hrun).mpr (by decide)

end Worker
end HttpDataDiod
