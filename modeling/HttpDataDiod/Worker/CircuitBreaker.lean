import Mathlib.Algebra.Group.Nat.Defs

/-!
# The circuit breaker

Model of `CircuitBreaker` of `circuit_breaker.cpp`.  Five failures in a row open
the breaker; after ten seconds one request is let through as a test, and two
successes of such tests close it again.  The clock is the monotonic one, in
microseconds, and `now - last` is the source's 64-bit subtraction.

* `allowRequest`, `recordSuccess`, `recordFailure`: the three operations.
* `allowRequest_closed`, `recordSuccess_closed`, `recordFailure_closed`: what
  they do to a closed breaker.
-/

namespace HttpDataDiod
namespace Worker

/-- `CircuitBreaker::State`. -/
inductive BreakerState where
  | closed
  | opened
  | halfOpen
  deriving DecidableEq

/-- `CircuitBreaker`. -/
structure CircuitBreaker where
  state : BreakerState
  failureCount : ℕ
  successCount : ℕ
  lastFailureTimeUs : ℕ
  deriving DecidableEq

namespace CircuitBreaker

/-- `g_failure_threshold`. -/
def failureThreshold : ℕ := 5

/-- `g_open_timeout_us`. -/
def openTimeoutUs : ℕ := 10000000

/-- `g_half_open_success_threshold`. -/
def halfOpenSuccessThreshold : ℕ := 2

/-- A new breaker. -/
def initial : CircuitBreaker :=
  { state := .closed, failureCount := 0, successCount := 0, lastFailureTimeUs := 0 }

/-- `transition_to_open`. -/
def transitionToOpen (cb : CircuitBreaker) (now : ℕ) : CircuitBreaker :=
  { cb with lastFailureTimeUs := now, state := .opened, successCount := 0 }

/-- The microseconds since the breaker opened, in 64 bits. -/
def elapsedUs (cb : CircuitBreaker) (now : ℕ) : ℕ := (now + 2 ^ 64 - cb.lastFailureTimeUs) % 2 ^ 64

/-- `allow_request`. -/
def allowRequest (cb : CircuitBreaker) (now : ℕ) : Bool × CircuitBreaker :=
  match cb.state with
  | .closed => (true, cb)
  | .halfOpen => (true, cb)
  | .opened =>
    if openTimeoutUs ≤ cb.elapsedUs now then
      (true, { cb with state := .halfOpen, successCount := 0 })
    else (false, cb)

/-- `record_success`. -/
def recordSuccess (cb : CircuitBreaker) : CircuitBreaker :=
  match cb.state with
  | .halfOpen =>
    if halfOpenSuccessThreshold ≤ cb.successCount + 1 then
      { cb with state := .closed, failureCount := 0, successCount := 0 }
    else { cb with successCount := cb.successCount + 1 }
  | .closed => { cb with failureCount := 0 }
  | .opened => cb

/-- `record_failure`; an open breaker keeps the time it opened at. -/
def recordFailure (cb : CircuitBreaker) (now : ℕ) : CircuitBreaker :=
  match cb.state with
  | .halfOpen => cb.transitionToOpen now
  | .closed =>
    let counted := { cb with failureCount := cb.failureCount + 1 }
    if failureThreshold ≤ counted.failureCount then counted.transitionToOpen now else counted
  | .opened => cb

/-! ## A closed breaker -/

theorem allowRequest_closed {cb : CircuitBreaker} (h : cb.state = .closed) (now : ℕ) :
    cb.allowRequest now = (true, cb) := by
  rw [allowRequest, h]

theorem recordSuccess_closed {cb : CircuitBreaker} (h : cb.state = .closed) :
    cb.recordSuccess.state = .closed ∧ cb.recordSuccess.failureCount = 0 := by
  rw [recordSuccess, h]
  exact ⟨rfl, rfl⟩

/-- A failure is counted, and the fifth opens the breaker. -/
theorem recordFailure_closed {cb : CircuitBreaker} (h : cb.state = .closed) (now : ℕ) :
    (cb.failureCount + 1 < failureThreshold →
      (cb.recordFailure now).state = .closed ∧
        (cb.recordFailure now).failureCount = cb.failureCount + 1) ∧
    (failureThreshold ≤ cb.failureCount + 1 → (cb.recordFailure now).state = .opened) := by
  rw [recordFailure, h]
  constructor
  · intro hlt
    rw [if_neg (by simp only; omega)]
    exact ⟨rfl, rfl⟩
  · intro hle
    rw [if_pos hle]
    rfl

end CircuitBreaker
end Worker
end HttpDataDiod
