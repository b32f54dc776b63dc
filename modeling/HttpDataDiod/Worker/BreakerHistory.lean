import HttpDataDiod.Worker.CircuitBreaker
import Mathlib.Data.List.Induction

/-!
# The circuit breaker over whole histories

Any finite sequence of calls, each of them atomic and stamped with the reading of
the monotonic clock, is replayed from a new breaker.  Results of requests that were
admitted in an earlier state arrive at any point of it.

* `Moves`: what one call does to a breaker, by the state it finds.
* `failureCount_of_closed`: a closed breaker has counted the failures since the
  last success or entry into the closed state.
* `opened_of_late`: an open breaker stays open, with its time, whatever arrives
  before the timeout.
* `halfOpen_of_tests`, `exists_tests_of_halfOpen`: a half-open breaker has counted
  the successes since it became so, and there has been no failure among them.
* `breaker_stateMachine`: the state machine, put together.
-/

namespace HttpDataDiod
namespace Worker
namespace CircuitBreaker

/-! ## Histories -/

/-- The operations of a breaker. -/
inductive Call where
  | allowRequest
  | recordSuccess
  | recordFailure
  deriving DecidableEq

/-- A call and what `TimeUtils::steady_us` reads at it. -/
structure TimedCall where
  call : Call
  time : UInt64
  deriving DecidableEq

/-- One call: its answer, for `allow_request`, and the breaker after it. -/
def perform (cb : CircuitBreaker) (c : TimedCall) : Option Bool × CircuitBreaker :=
  match c.call with
  | .allowRequest => (some (cb.allowRequest c.time.toNat).1, (cb.allowRequest c.time.toNat).2)
  | .recordSuccess => (none, cb.recordSuccess)
  | .recordFailure => (none, cb.recordFailure c.time.toNat)

/-- The breaker after a history. -/
def replay (calls : List TimedCall) : CircuitBreaker :=
  calls.foldl (fun cb c => (cb.perform c).2) initial

/-- The clock of a history does not go backwards. -/
def ClockAdvances (calls : List TimedCall) : Prop :=
  calls.Pairwise fun c d => c.time ≤ d.time

/-- After the history, the call takes the breaker into the state. -/
def Enters (s : BreakerState) (calls : List TimedCall) (c : TimedCall) : Prop :=
  (replay calls).state ≠ s ∧ (replay (calls ++ [c])).state = s

/-- The failures of a history. -/
def failures (calls : List TimedCall) : ℕ := calls.countP fun c => c.call = .recordFailure

/-- The successes of a history. -/
def successes (calls : List TimedCall) : ℕ := calls.countP fun c => c.call = .recordSuccess

/-- A history that ends in a success or in an entry into the closed state. -/
def Restarts (calls : List TimedCall) : Prop :=
  calls = [] ∨ ∃ before c, calls = before ++ [c] ∧
    (c.call = .recordSuccess ∨ Enters .closed before c)

/-- `rest` is what followed the last success or entry into the closed state. -/
structure CountsFrom (start rest : List TimedCall) : Prop where
  restarts : Restarts start
  last : ∀ r₁ r₂, rest = r₁ ++ r₂ → r₁ ≠ [] → ¬ Restarts (start ++ r₁)

@[simp] theorem replay_concat (calls : List TimedCall) (c : TimedCall) :
    replay (calls ++ [c]) = ((replay calls).perform c).2 := by
  rw [replay, List.foldl_append]
  rfl

theorem failures_concat (calls : List TimedCall) (c : TimedCall) :
    failures (calls ++ [c]) = failures calls + if c.call = .recordFailure then 1 else 0 := by
  simp [failures, List.countP_append, List.countP_singleton]

theorem successes_concat (calls : List TimedCall) (c : TimedCall) :
    successes (calls ++ [c]) = successes calls + if c.call = .recordSuccess then 1 else 0 := by
  simp [successes, List.countP_append, List.countP_singleton]

/-! ## One call -/

/-- What a call does to a breaker. -/
inductive Moves (cb : CircuitBreaker) (c : TimedCall) : CircuitBreaker → Prop where
  | admits (hc : c.call = .allowRequest) (hs : cb.state ≠ .opened) : Moves cb c cb
  | refuses (hc : c.call = .allowRequest) (hs : cb.state = .opened)
      (ht : cb.elapsedUs c.time.toNat < openTimeoutUs) : Moves cb c cb
  | tests (hc : c.call = .allowRequest) (hs : cb.state = .opened)
      (ht : openTimeoutUs ≤ cb.elapsedUs c.time.toNat) :
      Moves cb c { cb with state := .halfOpen, successCount := 0 }
  | counts (hc : c.call = .recordSuccess) (hs : cb.state = .halfOpen) (hn : cb.successCount = 0) :
      Moves cb c { cb with successCount := 1 }
  | closes (hc : c.call = .recordSuccess) (hs : cb.state = .halfOpen) (hn : 0 < cb.successCount) :
      Moves cb c { cb with state := .closed, failureCount := 0, successCount := 0 }
  | resets (hc : c.call = .recordSuccess) (hs : cb.state = .closed) :
      Moves cb c { cb with failureCount := 0 }
  | fails (hc : c.call = .recordFailure) (hs : cb.state = .closed) (hn : cb.failureCount < 4) :
      Moves cb c { cb with failureCount := cb.failureCount + 1 }
  | trips (hc : c.call = .recordFailure) (hs : cb.state = .closed) (hn : 4 ≤ cb.failureCount) :
      Moves cb c (transitionToOpen { cb with failureCount := cb.failureCount + 1 } c.time.toNat)
  | reopens (hc : c.call = .recordFailure) (hs : cb.state = .halfOpen) :
      Moves cb c (cb.transitionToOpen c.time.toNat)
  | late (hc : c.call ≠ .allowRequest) (hs : cb.state = .opened) : Moves cb c cb

theorem moves_allowRequest {cb : CircuitBreaker} {c : TimedCall} (hc : c.call = .allowRequest) :
    Moves cb c (cb.allowRequest c.time.toNat).2 := by
  cases hs : cb.state with
  | closed =>
    rw [allowRequest_closed hs]
    exact .admits hc (by rw [hs]; decide)
  | halfOpen =>
    simp only [allowRequest, hs]
    exact .admits hc (by rw [hs]; decide)
  | opened =>
    by_cases ht : openTimeoutUs ≤ cb.elapsedUs c.time.toNat
    · simp only [allowRequest, hs, if_pos ht]
      exact .tests hc hs ht
    · simp only [allowRequest, hs, if_neg ht]
      exact .refuses hc hs (by omega)

theorem moves_recordSuccess {cb : CircuitBreaker} {c : TimedCall} (hc : c.call = .recordSuccess) :
    Moves cb c cb.recordSuccess := by
  cases hs : cb.state with
  | closed =>
    simp only [recordSuccess, hs]
    rw [← hs]
    exact .resets hc hs
  | opened =>
    simp only [recordSuccess, hs]
    exact .late (by rw [hc]; decide) hs
  | halfOpen =>
    by_cases hn : halfOpenSuccessThreshold ≤ cb.successCount + 1
    · simp only [recordSuccess, hs, if_pos hn]
      rw [halfOpenSuccessThreshold] at hn
      exact .closes hc hs (by omega)
    · simp only [recordSuccess, hs, if_neg hn]
      rw [halfOpenSuccessThreshold] at hn
      have hzero : cb.successCount = 0 := by omega
      rw [hzero, ← hs]
      exact .counts hc hs hzero

theorem moves_recordFailure {cb : CircuitBreaker} {c : TimedCall} (hc : c.call = .recordFailure) :
    Moves cb c (cb.recordFailure c.time.toNat) := by
  cases hs : cb.state with
  | halfOpen =>
    simp only [recordFailure, hs]
    exact .reopens hc hs
  | opened =>
    simp only [recordFailure, hs]
    exact .late (by rw [hc]; decide) hs
  | closed =>
    by_cases hn : failureThreshold ≤ cb.failureCount + 1
    · simp only [recordFailure, hs, if_pos hn]
      rw [failureThreshold] at hn
      rw [← hs]
      exact .trips hc hs (by omega)
    · simp only [recordFailure, hs, if_neg hn]
      rw [failureThreshold] at hn
      rw [← hs]
      exact .fails hc hs (by omega)

/-- Every call is one of the moves. -/
theorem moves_perform (cb : CircuitBreaker) (c : TimedCall) : Moves cb c (cb.perform c).2 := by
  cases hc : c.call with
  | allowRequest =>
    simp only [perform, hc]
    exact moves_allowRequest hc
  | recordSuccess =>
    simp only [perform, hc]
    exact moves_recordSuccess hc
  | recordFailure =>
    simp only [perform, hc]
    exact moves_recordFailure hc

/-- The last call of a history is a move. -/
theorem moves_replay (calls : List TimedCall) (c : TimedCall) :
    Moves (replay calls) c (replay (calls ++ [c])) := by
  rw [replay_concat]
  exact moves_perform _ _

/-- The counters stay small, so that the `int` counters of the source do not overflow. -/
theorem counters_replay (calls : List TimedCall) :
    (replay calls).failureCount ≤ failureThreshold ∧
      (replay calls).successCount < halfOpenSuccessThreshold ∧
      ((replay calls).state = .closed → (replay calls).failureCount < failureThreshold) := by
  simp only [failureThreshold, halfOpenSuccessThreshold]
  induction calls using List.reverseRecOn with
  | nil => decide
  | append_singleton calls c ih =>
    have hmove := moves_replay calls c
    generalize replay (calls ++ [c]) = cb at hmove
    obtain ⟨hfailures, hsuccesses, hclosed⟩ := ih
    cases hmove with
    | admits | refuses | late => exact ⟨hfailures, hsuccesses, hclosed⟩
    | tests => exact ⟨hfailures, Nat.two_pos, nofun⟩
    | counts hc hs hn => exact ⟨hfailures, Nat.one_lt_two, hclosed⟩
    | closes => exact ⟨Nat.zero_le _, Nat.two_pos, fun _ => Nat.succ_pos _⟩
    | resets => exact ⟨Nat.zero_le _, hsuccesses, fun _ => Nat.succ_pos _⟩
    | fails hc hs hn =>
      have hcount : (replay calls).failureCount + 1 < 5 := by omega
      exact ⟨Nat.le_of_lt hcount, hsuccesses, fun _ => hcount⟩
    | trips hc hs hn => exact ⟨hclosed hs, Nat.two_pos, nofun⟩
    | reopens => exact ⟨hfailures, Nat.two_pos, nofun⟩

/-! ## Closed -/

/-- Only a success takes the breaker into the closed state. -/
theorem Enters.call_of_closed {calls : List TimedCall} {c : TimedCall}
    (h : Enters .closed calls c) : c.call = .recordSuccess := by
  obtain ⟨hbefore, hafter⟩ := h
  have hmove := moves_replay calls c
  generalize replay (calls ++ [c]) = cb at hmove hafter
  cases hmove with
  | closes hc => exact hc
  | resets hc => exact hc
  | tests => cases hafter
  | trips => cases hafter
  | reopens => cases hafter
  | counts | fails | admits | refuses | late => exact absurd hafter hbefore

theorem restarts_concat (calls : List TimedCall) (c : TimedCall) :
    Restarts (calls ++ [c]) ↔ c.call = .recordSuccess := by
  constructor
  · rintro (hnil | ⟨before, d, heq, hd⟩)
    · simp at hnil
    · obtain ⟨rfl, rfl⟩ : calls = before ∧ c = d := by simpa using List.append_inj' heq rfl
      exact hd.elim id Enters.call_of_closed
  · intro hc
    exact .inr ⟨calls, c, rfl, .inl hc⟩

/-- Counting starts at a restart and goes on while no success comes. -/
theorem countsFrom_iff (start rest : List TimedCall) :
    CountsFrom start rest ↔ Restarts start ∧ ∀ c ∈ rest, c.call ≠ .recordSuccess := by
  constructor
  · intro h
    refine ⟨h.restarts, fun c hc hcall => ?_⟩
    obtain ⟨r₁, r₂, rfl⟩ := List.append_of_mem hc
    refine h.last (r₁ ++ [c]) r₂ (by simp) (by simp) ?_
    rw [← List.append_assoc]
    exact (restarts_concat _ _).mpr hcall
  · rintro ⟨hstart, hrest⟩
    refine ⟨hstart, fun r₁ r₂ heq hne hrestarts => ?_⟩
    rw [← List.dropLast_concat_getLast hne, ← List.append_assoc, restarts_concat] at hrestarts
    exact hrest _ (by rw [heq]; exact List.mem_append_left _ (List.getLast_mem hne)) hrestarts

/-- A closed breaker at a restart has counted nothing. -/
theorem failureCount_of_restarts {calls : List TimedCall} (h : Restarts calls)
    (hclosed : (replay calls).state = .closed) : (replay calls).failureCount = 0 := by
  cases calls using List.reverseRecOn with
  | nil => rfl
  | append_singleton calls c =>
    have hcall := (restarts_concat calls c).mp h
    have hmove := moves_replay calls c
    generalize replay (calls ++ [c]) = cb at hmove hclosed
    cases hmove with
    | closes => rfl
    | resets => rfl
    | counts hc hs => rw [hs] at hclosed; cases hclosed
    | late hc hs => rw [hs] at hclosed; cases hclosed
    | tests => cases hclosed
    | trips => cases hclosed
    | reopens => cases hclosed
    | admits hc => rw [hc] at hcall; cases hcall
    | refuses hc => rw [hc] at hcall; cases hcall
    | fails hc => rw [hc] at hcall; cases hcall

/-- **The failures of a closed breaker.**  They are those since the last success or
entry into the closed state. -/
theorem failureCount_of_closed {start rest : List TimedCall} (h : CountsFrom start rest)
    (hclosed : (replay (start ++ rest)).state = .closed) :
    (replay (start ++ rest)).failureCount = failures rest := by
  rw [countsFrom_iff] at h
  obtain ⟨hstart, hrest⟩ := h
  -- Without a success, a breaker that is closed at the end was closed all along.
  induction rest using List.reverseRecOn with
  | nil =>
    rw [List.append_nil] at hclosed ⊢
    exact failureCount_of_restarts hstart hclosed
  | append_singleton rest c ih =>
    have hcall : c.call ≠ .recordSuccess := hrest c (by simp)
    have ih' := fun hs => ih hs fun d hd => hrest d (List.mem_append_left _ hd)
    rw [← List.append_assoc] at hclosed ⊢
    rw [failures_concat]
    have hmove := moves_replay (start ++ rest) c
    generalize replay (start ++ rest ++ [c]) = cb at hmove hclosed
    cases hmove with
    | admits hc => rw [if_neg (by rw [hc]; decide), ih' hclosed, Nat.add_zero]
    | refuses hc hs => rw [hs] at hclosed; cases hclosed
    | fails hc hs => rw [if_pos hc, ih' hs]
    | late hc hs => rw [hs] at hclosed; cases hclosed
    | tests => cases hclosed
    | trips => cases hclosed
    | reopens => cases hclosed
    | counts hc => exact absurd hc hcall
    | closes hc => exact absurd hc hcall
    | resets hc => exact absurd hc hcall

theorem exists_countsFrom (calls : List TimedCall) :
    ∃ start rest, calls = start ++ rest ∧ CountsFrom start rest := by
  induction calls using List.reverseRecOn with
  | nil => exact ⟨[], [], rfl, (countsFrom_iff _ _).mpr ⟨.inl rfl, by simp⟩⟩
  | append_singleton calls c ih =>
    by_cases hc : c.call = .recordSuccess
    · refine ⟨calls ++ [c], [], by simp, (countsFrom_iff _ _).mpr ⟨?_, by simp⟩⟩
      exact (restarts_concat calls c).mpr hc
    · obtain ⟨start, rest, rfl, hcounts⟩ := ih
      rw [countsFrom_iff] at hcounts
      refine ⟨start, rest ++ [c], by simp, (countsFrom_iff _ _).mpr ⟨hcounts.1, ?_⟩⟩
      intro d hd
      rw [List.mem_append, List.mem_singleton] at hd
      obtain hd | rfl := hd
      · exact hcounts.2 d hd
      · exact hc

/-! ## Open -/

/-- The breaker opens on a failure, and then stamps it. -/
theorem Enters.opened_cases {calls : List TimedCall} {c : TimedCall}
    (h : Enters .opened calls c) :
    c.call = .recordFailure ∧ (replay (calls ++ [c])).lastFailureTimeUs = c.time.toNat ∧
      ((replay calls).state = .halfOpen ∨
        (replay calls).state = .closed ∧ 4 ≤ (replay calls).failureCount) := by
  obtain ⟨hbefore, hafter⟩ := h
  have hmove := moves_replay calls c
  generalize replay (calls ++ [c]) = cb at hmove hafter
  cases hmove with
  | trips hc hs hn => exact ⟨hc, rfl, .inr ⟨hs, hn⟩⟩
  | reopens hc hs => exact ⟨hc, rfl, .inl hs⟩
  | tests => cases hafter
  | closes => cases hafter
  | counts | fails | admits | refuses | late | resets => exact absurd hafter hbefore

theorem enters_opened_of_closed {calls : List TimedCall} {c : TimedCall}
    (hc : c.call = .recordFailure) (hs : (replay calls).state = .closed)
    (hn : 4 ≤ (replay calls).failureCount) : Enters .opened calls c := by
  refine ⟨by rw [hs]; decide, ?_⟩
  rw [replay_concat, perform, hc]
  exact (recordFailure_closed hs _).2 (by rw [failureThreshold]; omega)

theorem enters_opened_of_halfOpen {calls : List TimedCall} {c : TimedCall}
    (hc : c.call = .recordFailure) (hs : (replay calls).state = .halfOpen) :
    Enters .opened calls c := by
  refine ⟨by rw [hs]; decide, ?_⟩
  rw [replay_concat, perform, hc]
  simp only [recordFailure, hs]
  rfl

/-- While the clock does not go back, the elapsed time does not wrap. -/
theorem elapsedUs_of_le {cb : CircuitBreaker} {t : UInt64} (h : cb.lastFailureTimeUs ≤ t.toNat) :
    cb.elapsedUs t.toNat = t.toNat - cb.lastFailureTimeUs := by
  have hlt : t.toNat < 2 ^ 64 := t.toNat_lt
  rw [elapsedUs]
  omega

/-- **An open breaker stays open** over everything that arrives before the timeout,
and keeps the time it opened at. -/
theorem opened_of_late {calls late : List TimedCall} {c : TimedCall} (h : Enters .opened calls c)
    (hclock : ClockAdvances (c :: late))
    (hlate : ∀ d ∈ late, d.call = .allowRequest → d.time.toNat < c.time.toNat + openTimeoutUs) :
    (replay (calls ++ c :: late)).state = .opened ∧
      (replay (calls ++ c :: late)).lastFailureTimeUs = c.time.toNat := by
  induction late using List.reverseRecOn with
  | nil => exact ⟨h.2, h.opened_cases.2.1⟩
  | append_singleton late d ih =>
    have hle : c.time.toNat ≤ d.time.toNat :=
      UInt64.le_iff_toNat_le.mp ((List.pairwise_cons.mp hclock).1 d (by simp))
    obtain ⟨hs, ht⟩ := ih (hclock.sublist (by simp)) fun d hd => hlate d (List.mem_append_left _ hd)
    rw [show calls ++ c :: (late ++ [d]) = calls ++ c :: late ++ [d] by simp]
    have hmove := moves_replay (calls ++ c :: late) d
    generalize replay (calls ++ c :: late ++ [d]) = cb at hmove
    cases hmove with
    | refuses => exact ⟨hs, ht⟩
    | late => exact ⟨hs, ht⟩
    | tests hc _ helapsed =>
      have hbound := hlate d (by simp) hc
      rw [elapsedUs_of_le (by omega), ht] at helapsed
      omega
    | admits _ hopen => exact absurd hs hopen
    | counts _ hother => rw [hs] at hother; cases hother
    | closes _ hother => rw [hs] at hother; cases hother
    | resets _ hother => rw [hs] at hother; cases hother
    | fails _ hother => rw [hs] at hother; cases hother
    | trips _ hother => rw [hs] at hother; cases hother
    | reopens _ hother => rw [hs] at hother; cases hother

/-- What an open breaker answers, by the clock. -/
theorem perform_opened {cb : CircuitBreaker} {a : TimedCall} (ha : a.call = .allowRequest)
    (hs : cb.state = .opened) (hle : cb.lastFailureTimeUs ≤ a.time.toNat) :
    (a.time.toNat < cb.lastFailureTimeUs + openTimeoutUs → (cb.perform a).1 = some false) ∧
    (cb.lastFailureTimeUs + openTimeoutUs ≤ a.time.toNat →
      (cb.perform a).1 = some true ∧ (cb.perform a).2.state = .halfOpen) := by
  constructor
  · intro hlt
    have helapsed : ¬ openTimeoutUs ≤ cb.elapsedUs a.time.toNat := by
      rw [elapsedUs_of_le hle]
      omega
    simp only [perform, ha, allowRequest, hs, if_neg helapsed]
  · intro hge
    have helapsed : openTimeoutUs ≤ cb.elapsedUs a.time.toNat := by
      rw [elapsedUs_of_le hle]
      omega
    simp only [perform, ha, allowRequest, hs, if_pos helapsed, and_self]

/-! ## Half open -/

theorem Enters.successCount_of_halfOpen {calls : List TimedCall} {e : TimedCall}
    (h : Enters .halfOpen calls e) : (replay (calls ++ [e])).successCount = 0 := by
  obtain ⟨hbefore, hafter⟩ := h
  have hmove := moves_replay calls e
  generalize replay (calls ++ [e]) = cb at hmove hafter
  cases hmove with
  | tests => rfl
  | closes => cases hafter
  | trips => cases hafter
  | reopens => cases hafter
  | counts | fails | admits | refuses | late | resets => exact absurd hafter hbefore

/-- Without a failure and with at most one success, a half-open breaker stays
half-open, and it has counted the success. -/
theorem halfOpen_of_tests {start tests : List TimedCall} {e : TimedCall}
    (h : Enters .halfOpen start e) (hfail : ∀ c ∈ tests, c.call ≠ .recordFailure)
    (hone : successes tests ≤ 1) :
    (replay (start ++ e :: tests)).state = .halfOpen ∧
      (replay (start ++ e :: tests)).successCount = successes tests := by
  induction tests using List.reverseRecOn with
  | nil => exact ⟨h.2, h.successCount_of_halfOpen⟩
  | append_singleton tests c ih =>
    rw [successes_concat] at hone ⊢
    obtain ⟨hs, hn⟩ := ih (fun d hd => hfail d (List.mem_append_left _ hd)) (by omega)
    rw [show start ++ e :: (tests ++ [c]) = start ++ e :: tests ++ [c] by simp]
    have hmove := moves_replay (start ++ e :: tests) c
    generalize replay (start ++ e :: tests ++ [c]) = cb at hmove
    cases hmove with
    | admits hc =>
      rw [if_neg (by rw [hc]; decide)]
      exact ⟨hs, hn⟩
    | counts hc _ hzero =>
      rw [if_pos hc, ← hn, hzero]
      exact ⟨hs, rfl⟩
    | closes hc _ hpos =>
      rw [if_pos hc] at hone
      omega
    | reopens hc => exact absurd hc (hfail c (by simp))
    | refuses _ hother => rw [hs] at hother; cases hother
    | tests _ hother => rw [hs] at hother; cases hother
    | resets _ hother => rw [hs] at hother; cases hother
    | fails _ hother => rw [hs] at hother; cases hother
    | trips _ hother => rw [hs] at hother; cases hother
    | late _ hother => rw [hs] at hother; cases hother

/-- A half-open breaker became so at some call, and since then there has been no
failure, and the successes it has counted. -/
theorem exists_tests_of_halfOpen {calls : List TimedCall} (h : (replay calls).state = .halfOpen) :
    ∃ start e tests, calls = start ++ e :: tests ∧ Enters .halfOpen start e ∧
      (∀ c ∈ tests, c.call ≠ .recordFailure) ∧ (replay calls).successCount = successes tests := by
  induction calls using List.reverseRecOn with
  | nil => cases h
  | append_singleton calls c ih =>
    by_cases hs : (replay calls).state = .halfOpen
    · obtain ⟨start, e, tests, rfl, hentry, hfail, hn⟩ := ih hs
      refine ⟨start, e, tests ++ [c], by simp, hentry, ?_⟩
      have hmove := moves_replay (start ++ e :: tests) c
      generalize replay (start ++ e :: tests ++ [c]) = cb at hmove h
      rw [successes_concat]
      have hother : ∀ d ∈ tests ++ [c], c.call ≠ .recordFailure → d.call ≠ .recordFailure := by
        intro d hd hc
        rw [List.mem_append, List.mem_singleton] at hd
        obtain hd | rfl := hd
        · exact hfail d hd
        · exact hc
      cases hmove with
      | admits hc =>
        refine ⟨fun d hd => hother d hd (by rw [hc]; decide), ?_⟩
        rw [if_neg (by rw [hc]; decide), hn, Nat.add_zero]
      | counts hc _ hzero =>
        refine ⟨fun d hd => hother d hd (by rw [hc]; decide), ?_⟩
        rw [if_pos hc, ← hn, hzero]
      | closes => cases h
      | reopens => cases h
      | refuses _ hstate => rw [hs] at hstate; cases hstate
      | tests _ hstate => rw [hs] at hstate; cases hstate
      | resets _ hstate => rw [hs] at hstate; cases hstate
      | fails _ hstate => rw [hs] at hstate; cases hstate
      | trips _ hstate => rw [hs] at hstate; cases hstate
      | late _ hstate => rw [hs] at hstate; cases hstate
    · have hentry : Enters .halfOpen calls c := ⟨hs, h⟩
      exact ⟨calls, c, [], rfl, hentry, by simp, hentry.successCount_of_halfOpen⟩

/-- The breaker closes on a success of a half-open breaker that has counted one. -/
theorem enters_closed_iff (calls : List TimedCall) (c : TimedCall) :
    Enters .closed calls c ↔ c.call = .recordSuccess ∧ (replay calls).state = .halfOpen ∧
      (replay calls).successCount = 1 := by
  have hcount := (counters_replay calls).2.1
  rw [halfOpenSuccessThreshold] at hcount
  have hmove := moves_replay calls c
  rw [Enters]
  generalize replay (calls ++ [c]) = cb at hmove
  cases hmove with
  | closes hc hs hn => exact ⟨fun _ => ⟨hc, hs, by omega⟩, fun _ => ⟨by rw [hs]; decide, rfl⟩⟩
  | counts hc hs hn => simp [hs, hn]
  | resets hc hs => simp [hs]
  | tests hc hs => simp [hc]
  | trips hc hs => simp [hc, transitionToOpen]
  | reopens hc hs => simp [hc, transitionToOpen]
  | fails hc hs => simp [hc, hs]
  | admits hc hs => simp [hc]
  | refuses hc hs => simp [hc, hs]
  | late hc hs => simp [hs]

theorem Enters.counters_of_closed {calls : List TimedCall} {c : TimedCall}
    (h : Enters .closed calls c) : (replay (calls ++ [c])).failureCount = 0 ∧
      (replay (calls ++ [c])).successCount = 0 := by
  obtain ⟨hc, hs, hn⟩ := (enters_closed_iff calls c).mp h
  rw [replay_concat, perform, hc]
  simp [recordSuccess, hs, hn, halfOpenSuccessThreshold]

/-! ## The state machine -/

/-- **The circuit breaker's state machine.**  Over every history from a new
breaker: a closed breaker has counted, below five, the failures since the last
success or entry into the closed state; it opens exactly on the fifth of them, or
on a failure while half open; from then it refuses for ten seconds, whatever else
arrives, and admits the first request after them as a test; and it closes exactly
on the second success of a half-open breaker without a failure in between, with
both counters back at zero. -/
theorem breaker_stateMachine (calls : List TimedCall) :
    ((replay calls).state = .closed → (replay calls).failureCount ≤ 4 ∧
      ∀ start rest, calls = start ++ rest → CountsFrom start rest →
        (replay calls).failureCount = failures rest) ∧
    (∀ c, Enters .opened calls c ↔ c.call = .recordFailure ∧
      ((replay calls).state = .halfOpen ∨ (replay calls).state = .closed ∧
        ∃ start rest, calls = start ++ rest ∧ CountsFrom start rest ∧
          failures (rest ++ [c]) = 5)) ∧
    (∀ c, Enters .opened calls c → ∀ late a, a.call = .allowRequest →
      ClockAdvances (calls ++ c :: (late ++ [a])) →
      (a.time.toNat < c.time.toNat + 10000000 →
        ((replay (calls ++ c :: late)).perform a).1 = some false) ∧
      (c.time.toNat + 10000000 ≤ a.time.toNat →
        (∀ d ∈ late, d.call = .allowRequest → d.time.toNat < c.time.toNat + 10000000) →
        ((replay (calls ++ c :: late)).perform a).1 = some true ∧
          Enters .halfOpen (calls ++ c :: late) a)) ∧
    (∀ c, Enters .closed calls c ↔ c.call = .recordSuccess ∧
      ∃ start e tests, calls = start ++ e :: tests ∧ Enters .halfOpen start e ∧
        (∀ d ∈ tests, d.call ≠ .recordFailure) ∧ successes tests = 1) ∧
    (∀ c, Enters .closed calls c → (replay (calls ++ [c])).failureCount = 0 ∧
      (replay (calls ++ [c])).successCount = 0) := by
  refine ⟨fun hclosed => ⟨?_, ?_⟩, fun c => ⟨fun h => ?_, ?_⟩, fun c h late a ha hclock => ?_,
    fun c => ⟨fun h => ?_, ?_⟩, fun c h => h.counters_of_closed⟩
  · have hlt := (counters_replay calls).2.2 hclosed
    rw [failureThreshold] at hlt
    omega
  · rintro start rest rfl hcounts
    exact failureCount_of_closed hcounts hclosed
  · obtain ⟨hc, -, hhalf | ⟨hclosed, hfour⟩⟩ := h.opened_cases
    · exact ⟨hc, .inl hhalf⟩
    · refine ⟨hc, .inr ⟨hclosed, ?_⟩⟩
      obtain ⟨start, rest, rfl, hcounts⟩ := exists_countsFrom calls
      have hlt := (counters_replay (start ++ rest)).2.2 hclosed
      rw [failureThreshold] at hlt
      refine ⟨start, rest, rfl, hcounts, ?_⟩
      rw [failures_concat, if_pos hc, ← failureCount_of_closed hcounts hclosed]
      omega
  · rintro ⟨hc, hhalf | ⟨hclosed, start, rest, rfl, hcounts, hfive⟩⟩
    · exact enters_opened_of_halfOpen hc hhalf
    · rw [failures_concat, if_pos hc, ← failureCount_of_closed hcounts hclosed] at hfive
      exact enters_opened_of_closed hc hclosed (by omega)
  · have hlater : ClockAdvances (c :: (late ++ [a])) :=
      hclock.sublist (List.sublist_append_right _ _)
    have hle : c.time.toNat ≤ a.time.toNat :=
      UInt64.le_iff_toNat_le.mp ((List.pairwise_cons.mp hlater).1 a (by simp))
    have hlateClock : ClockAdvances (c :: late) := hlater.sublist (by simp)
    constructor
    · intro hlt
      -- Everything in between came before `a`, so before the timeout too.
      have hlate : ∀ d ∈ late, d.call = .allowRequest →
          d.time.toNat < c.time.toNat + openTimeoutUs := by
        intro d hd _
        have hda : d.time ≤ a.time :=
          (List.pairwise_append.mp (List.pairwise_cons.mp hlater).2).2.2 d hd a (by simp)
        have := UInt64.le_iff_toNat_le.mp hda
        rw [openTimeoutUs]
        omega
      obtain ⟨hs, ht⟩ := opened_of_late h hlateClock hlate
      exact (perform_opened ha hs (by rw [ht]; exact hle)).1 (by rw [ht]; exact hlt)
    · intro hge hlate
      obtain ⟨hs, ht⟩ := opened_of_late h hlateClock hlate
      obtain ⟨htrue, hhalf⟩ :=
        (perform_opened ha hs (by rw [ht]; exact hle)).2 (by rw [ht]; exact hge)
      exact ⟨htrue, by rw [hs]; decide, by rw [replay_concat]; exact hhalf⟩
  · obtain ⟨hc, hs, hn⟩ := (enters_closed_iff calls c).mp h
    obtain ⟨start, e, tests, rfl, hentry, hfail, hcount⟩ := exists_tests_of_halfOpen hs
    exact ⟨hc, start, e, tests, rfl, hentry, hfail, hcount.symm.trans hn⟩
  · rintro ⟨hc, start, e, tests, rfl, hentry, hfail, hone⟩
    obtain ⟨hs, hn⟩ := halfOpen_of_tests hentry hfail (by omega)
    exact (enters_closed_iff _ _).mpr ⟨hc, hs, hn.trans hone⟩

end CircuitBreaker
end Worker
end HttpDataDiod
