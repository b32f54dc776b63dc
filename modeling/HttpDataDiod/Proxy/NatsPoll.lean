import HttpDataDiod.Lib.DeadlineLoop
import HttpDataDiod.Proxy.RequestHandler

/-!
# Polling NATS for the reply

`poll_until_deadline` asks for the reply to one request again and again.  Without a connection it
connects, and sleeps when that fails; a reply that is empty makes it sleep and ask once more.  A
request is given the milliseconds that are left, but a sleep is not cut short by the deadline.

Time is in nanoseconds.  What the loop takes from outside in each pass (whether there is a
connection, the answers, how long the calls take and by how much a sleep is late) is arbitrary,
also in how it depends on the timeout of the request.

* `RetryHandler`: the delays between the attempts to connect.
* `pollTurn`: one pass, with what it counts, observes and asks.
* `pollTurn_cases`: all that a pass can do.
* `poll`: the loop, which ends in every environment.
* `poll_deadline`: the requests stay within the deadline, the passes are bounded, and so is the
  time by which the loop is late.
* `poll_accounting`: the counters agree with the requests, the delays double, and the loop comes
  to the first reply that is not empty.
-/

namespace HttpDataDiod
namespace Proxy

open ByteText

/-! ## The delays -/

/-- `RetryHandler` of an initial and a greatest delay. -/
structure RetryHandler (initialDelayMs maxDelayMs : ℕ) where
  currentDelayMs : ℕ
  consecutiveFailures : ℕ
  current_eq : currentDelayMs = min (initialDelayMs * 2 ^ consecutiveFailures) maxDelayMs

namespace RetryHandler

variable {initialDelayMs maxDelayMs : ℕ}

/-- The constructor. -/
def new (h : initialDelayMs ≤ maxDelayMs) : RetryHandler initialDelayMs maxDelayMs where
  currentDelayMs := initialDelayMs
  consecutiveFailures := 0
  current_eq := by rw [Nat.pow_zero, Nat.mul_one, Nat.min_eq_left h]

/-- `record_failure`. -/
def recordFailure (r : RetryHandler initialDelayMs maxDelayMs) :
    RetryHandler initialDelayMs maxDelayMs where
  currentDelayMs := min (r.currentDelayMs * 2) maxDelayMs
  consecutiveFailures := r.consecutiveFailures + 1
  current_eq := by
    have hcurrent := r.current_eq
    have hpow : initialDelayMs * 2 ^ (r.consecutiveFailures + 1) =
        initialDelayMs * 2 ^ r.consecutiveFailures * 2 := by
      rw [Nat.pow_succ, Nat.mul_assoc]
    omega

/-- `record_success`. -/
def recordSuccess (h : initialDelayMs ≤ maxDelayMs)
    (_ : RetryHandler initialDelayMs maxDelayMs) : RetryHandler initialDelayMs maxDelayMs :=
  new h

theorem currentDelayMs_le (r : RetryHandler initialDelayMs maxDelayMs) :
    r.currentDelayMs ≤ maxDelayMs := by
  rw [r.current_eq]
  exact Nat.min_le_right _ _

theorem le_currentDelayMs (h : initialDelayMs ≤ maxDelayMs)
    (r : RetryHandler initialDelayMs maxDelayMs) : initialDelayMs ≤ r.currentDelayMs := by
  have hpow := Nat.le_mul_of_pos_right initialDelayMs (Nat.two_pow_pos r.consecutiveFailures)
  have hcurrent := r.current_eq
  omega

end RetryHandler

def kReconnectBackoffMinMs : ℕ := 250
def kReconnectBackoffMaxMs : ℕ := 2000
def kDefaultTimeoutMs : ℕ := 30000
def kNoRespondersRetryDelayMs : ℕ := 1000
def kEmptyResponseRetryDelayMs : ℕ := 250

/-- The nanoseconds of a millisecond.  It stays folded, since to compare terms the elaborator
would count it down. -/
@[irreducible] def nsPerMilli : ℕ := 1000000

theorem nsPerMilli_eq : nsPerMilli = 1000000 := by rw [nsPerMilli]

/-- `reconnect_backoff`. -/
abbrev ReconnectBackoff := RetryHandler kReconnectBackoffMinMs kReconnectBackoffMaxMs

/-! ## The passes -/

/-- `PollOutcome`: the data of the reply and the span that consumed the request. -/
structure PollOutcome where
  data : Bytes
  consumeSpanId : Text

/-- What one pass takes from outside.  The request may throw. -/
structure PollChoices where
  connected : Bool
  connects : Bool
  /-- The time until the clock is read again. -/
  connectNs : ℕ
  reply : ℕ → Except Text PollOutcome
  /-- The time of a request, by its timeout in milliseconds. -/
  requestNs : ℕ → ℕ
  lastError : Bytes
  /-- By how much the sleep of the pass is late. -/
  lateNs : ℕ

/-- What a pass counts, observes and does. -/
inductive PollEffect where
  /-- `m_nats_connection_errors` is incremented. -/
  | connectionError
  /-- The sleep after an attempt to connect. -/
  | reconnectSleep (delayMs : ℕ)
  /-- `m_nats_connection_creates` is incremented. -/
  | connectionCreate
  /-- `m_duplicate_requests_total` is incremented. -/
  | resend
  /-- `m_nats_poll_attempts_total` is incremented and the request sent. -/
  | request (startNs timeoutMs : ℕ) (reply : Except Text PollOutcome)
  /-- `m_nats_poll_attempt_duration_seconds` is observed. -/
  | attemptDone (durationNs : ℕ)
  /-- `m_nats_poll_retry_wait_seconds` is observed and the sleep made. -/
  | retryWait (delayMs : ℕ)

/-- The state before a pass. -/
structure PollState where
  pass : ℕ
  nowNs : ℕ
  backoff : ReconnectBackoff
  firstAttempt : Bool
  outcome : PollOutcome

/-- The end of the loop, with the outcome or the exception. -/
structure PollEnd where
  endNs : ℕ
  result : Except Text PollOutcome

/-- What `poll_ensure_connected` comes to. -/
structure PollConnection where
  effects : List PollEffect
  backoff : ReconnectBackoff
  nowNs : ℕ
  connected : Bool

/-- `poll_ensure_connected`. -/
def pollEnsureConnected (c : PollChoices) (s : PollState) : PollConnection :=
  if c.connected then ⟨[], s.backoff, s.nowNs + c.connectNs, true⟩
  else if !c.connects then
    let delayMs := s.backoff.currentDelayMs
    ⟨[.connectionError, .reconnectSleep delayMs], s.backoff.recordFailure,
      s.nowNs + c.connectNs + (delayMs * nsPerMilli + c.lateNs), false⟩
  else
    ⟨[.connectionError, .connectionCreate], s.backoff.recordSuccess (by decide),
      s.nowNs + c.connectNs, true⟩

/-- `poll_notify_resend`. -/
def pollNotifyResend (firstAttempt : Bool) : List PollEffect :=
  if firstAttempt then [] else [.resend]

/-- `poll_delay_for_empty_reply`: how long it sleeps. -/
def pollDelayForEmptyReply (lastError : Bytes) : ℕ :=
  if (findSub (ascii "No responders available for request") lastError).isSome then
    kNoRespondersRetryDelayMs
  else kEmptyResponseRetryDelayMs

/-- One pass of the loop in `poll_until_deadline`. -/
def pollTurn (deadlineNs : ℕ) (env : ℕ → PollChoices) (s : PollState) :
    List PollEffect × (PollState ⊕ PollEnd) :=
  let c := env s.pass
  let connection := pollEnsureConnected c s
  if !connection.connected then
    (connection.effects,
      .inl { s with pass := s.pass + 1, nowNs := connection.nowNs, backoff := connection.backoff })
  else
    let nowNs := connection.nowNs
    -- The subtraction of the clock is cut off at zero, where the loop breaks too.
    let remainingMs := (deadlineNs - nowNs) / nsPerMilli
    if remainingMs = 0 then (connection.effects, .inr ⟨nowNs, .ok s.outcome⟩)
    else
      let reply := c.reply remainingMs
      let sent := connection.effects ++ pollNotifyResend s.firstAttempt ++
        [.request nowNs remainingMs reply]
      let repliedNs := nowNs + c.requestNs remainingMs
      match reply with
      | .error what => (sent, .inr ⟨repliedNs, .error what⟩)
      | .ok outcome =>
        let done := sent ++ [.attemptDone (c.requestNs remainingMs)]
        if !outcome.data.isEmpty then (done, .inr ⟨repliedNs, .ok outcome⟩)
        else
          let delayMs := pollDelayForEmptyReply c.lastError
          (done ++ [.retryWait delayMs],
            .inl
              { pass := s.pass + 1, nowNs := repliedNs + (delayMs * nsPerMilli + c.lateNs),
                backoff := connection.backoff, firstAttempt := false, outcome := outcome })

theorem pollDelayForEmptyReply_mem (lastError : Bytes) :
    pollDelayForEmptyReply lastError = 250 ∨ pollDelayForEmptyReply lastError = 1000 := by
  unfold pollDelayForEmptyReply
  split
  · exact .inr rfl
  · exact .inl rfl

/-- A pass has a connection: it was there, or an attempt to connect made it. -/
inductive Connected (c : PollChoices) (s : PollState) : List PollEffect → ReconnectBackoff → Prop
  | there : Connected c s [] s.backoff
  | made :
    Connected c s [.connectionError, .connectionCreate] (s.backoff.recordSuccess (by decide))

/-- The request of a pass, behind the effects of its connection. -/
def requestEffects (deadlineNs : ℕ) (c : PollChoices) (s : PollState) : List PollEffect :=
  let nowNs := s.nowNs + c.connectNs
  let remainingMs := (deadlineNs - nowNs) / nsPerMilli
  pollNotifyResend s.firstAttempt ++ [.request nowNs remainingMs (c.reply remainingMs)]

/-- All that a pass can do. -/
inductive PollPass (deadlineNs : ℕ) (c : PollChoices) (s : PollState) :
    List PollEffect → PollState ⊕ PollEnd → Prop
  /-- There is no connection, and none is made. -/
  | unconnected :
    PollPass deadlineNs c s [.connectionError, .reconnectSleep s.backoff.currentDelayMs]
      (.inl { s with
        pass := s.pass + 1
        nowNs := s.nowNs + c.connectNs + (s.backoff.currentDelayMs * nsPerMilli + c.lateNs)
        backoff := s.backoff.recordFailure })
  /-- Less than a millisecond is left. -/
  | late {effects : List PollEffect} {backoff : ReconnectBackoff} :
    Connected c s effects backoff → (deadlineNs - (s.nowNs + c.connectNs)) / nsPerMilli = 0 →
    PollPass deadlineNs c s effects (.inr ⟨s.nowNs + c.connectNs, .ok s.outcome⟩)
  /-- The request throws. -/
  | failed {effects : List PollEffect} {backoff : ReconnectBackoff} {remainingMs : ℕ}
      {what : Text} :
    Connected c s effects backoff →
    remainingMs = (deadlineNs - (s.nowNs + c.connectNs)) / nsPerMilli → 0 < remainingMs →
    c.reply remainingMs = .error what →
    PollPass deadlineNs c s (effects ++ requestEffects deadlineNs c s)
      (.inr ⟨s.nowNs + c.connectNs + c.requestNs remainingMs, .error what⟩)
  /-- The reply has come. -/
  | replied {effects : List PollEffect} {backoff : ReconnectBackoff} {remainingMs : ℕ}
      {outcome : PollOutcome} :
    Connected c s effects backoff →
    remainingMs = (deadlineNs - (s.nowNs + c.connectNs)) / nsPerMilli → 0 < remainingMs →
    c.reply remainingMs = .ok outcome → outcome.data ≠ [] →
    PollPass deadlineNs c s
      (effects ++ requestEffects deadlineNs c s ++ [.attemptDone (c.requestNs remainingMs)])
      (.inr ⟨s.nowNs + c.connectNs + c.requestNs remainingMs, .ok outcome⟩)
  /-- The reply is empty. -/
  | empty {effects : List PollEffect} {backoff : ReconnectBackoff} {remainingMs delayMs : ℕ}
      {outcome : PollOutcome} :
    Connected c s effects backoff →
    remainingMs = (deadlineNs - (s.nowNs + c.connectNs)) / nsPerMilli → 0 < remainingMs →
    c.reply remainingMs = .ok outcome → outcome.data = [] →
    delayMs = 250 ∨ delayMs = 1000 →
    PollPass deadlineNs c s
      (effects ++ requestEffects deadlineNs c s ++
        [.attemptDone (c.requestNs remainingMs), .retryWait delayMs])
      (.inl
        { pass := s.pass + 1
          nowNs := s.nowNs + c.connectNs + c.requestNs remainingMs +
            (delayMs * nsPerMilli + c.lateNs)
          backoff := backoff, firstAttempt := false, outcome := outcome })

/-- What `poll_ensure_connected` comes to. -/
theorem pollEnsureConnected_cases (c : PollChoices) (s : PollState) :
    pollEnsureConnected c s =
      ⟨[.connectionError, .reconnectSleep s.backoff.currentDelayMs], s.backoff.recordFailure,
        s.nowNs + c.connectNs + (s.backoff.currentDelayMs * nsPerMilli + c.lateNs), false⟩ ∨
    ∃ effects backoff, Connected c s effects backoff ∧
      pollEnsureConnected c s = ⟨effects, backoff, s.nowNs + c.connectNs, true⟩ := by
  unfold pollEnsureConnected
  split
  · exact .inr ⟨_, _, .there, rfl⟩
  · split
    · exact .inl rfl
    · exact .inr ⟨_, _, .made, rfl⟩

theorem pollPass_pollTurn (deadlineNs : ℕ) (env : ℕ → PollChoices) (s : PollState) :
    PollPass deadlineNs (env s.pass) s (pollTurn deadlineNs env s).1
      (pollTurn deadlineNs env s).2 := by
  unfold pollTurn
  dsimp only
  generalize env s.pass = c
  obtain hconnection | ⟨effects, backoff, hconnected, hconnection⟩ :=
    pollEnsureConnected_cases c s
  · rw [hconnection]
    exact .unconnected
  · rw [hconnection]
    rw [if_neg (by simp)]
    split
    · rename_i hlate
      exact .late hconnected hlate
    · rename_i hleft
      have hpos := Nat.pos_of_ne_zero hleft
      split
      · rename_i what hreply
        rw [List.append_assoc]
        exact .failed hconnected rfl hpos hreply
      · rename_i outcome hreply
        split
        · rename_i hdata
          rw [List.append_assoc effects]
          exact .replied hconnected rfl hpos hreply (by simpa using hdata)
        · rename_i hdata
          rw [List.append_assoc effects]
          rw [List.append_assoc (effects ++ _)]
          exact .empty hconnected rfl hpos hreply (by simpa using hdata)
            (pollDelayForEmptyReply_mem _)

/-! ## The loop -/

/-- The loop of `poll_until_deadline`. -/
def pollLoop (deadlineNs : ℕ) (env : ℕ → PollChoices) :
    DeadlineLoop.Loop PollState PollEffect PollEnd where
  clock := PollState.nowNs
  turn := pollTurn deadlineNs env
  least := kEmptyResponseRetryDelayMs * nsPerMilli
  least_pos := by
    rw [nsPerMilli_eq]
    decide
  clock_turn := by
    intro s es s' hturn
    have hpass := pollPass_pollTurn deadlineNs env s
    rw [hturn] at hpass
    unfold kEmptyResponseRetryDelayMs
    rw [nsPerMilli_eq]
    cases hpass with
    | unconnected =>
      have hdelay := s.backoff.le_currentDelayMs (by decide)
      unfold kReconnectBackoffMinMs at hdelay
      dsimp only
      rw [nsPerMilli_eq]
      omega
    | empty _ _ _ _ _ hdelay =>
      dsimp only
      rw [nsPerMilli_eq]
      omega

/-- The state in which the loop begins. -/
def PollState.initial (startNs : ℕ) : PollState where
  pass := 0
  nowNs := startNs
  backoff := .new (by decide)
  firstAttempt := true
  outcome := ⟨[], ⟨[], isValidUtf8_nil⟩⟩

/-- The end of the loop, by its deadline or by a pass. -/
def pollEnd : PollState ⊕ PollEnd → PollEnd
  | .inl s => ⟨s.nowNs, .ok s.outcome⟩
  | .inr e => e

/-- A run of the loop: the effects of its passes, and its end. -/
abbrev PollRun := List (List PollEffect) × (PollState ⊕ PollEnd)

/-- When a run is over. -/
def PollRun.endNs : PollRun → ℕ
  | (_, last) => (pollEnd last).endNs

/-- What a run comes to. -/
def PollRun.result : PollRun → Except Text PollOutcome
  | (_, last) => (pollEnd last).result

/-- `poll_until_deadline`. -/
def pollUntilDeadline (env : ℕ → PollChoices) (startNs timeoutMs : ℕ) : PollRun :=
  (pollLoop (startNs + timeoutMs * nsPerMilli) env).run (startNs + timeoutMs * nsPerMilli)
    (.initial startNs)

/-! ## The deadline -/

/-- Bounds of what the environment takes: an attempt to connect, a request beyond its timeout,
and the lateness of a sleep. -/
structure PollTimes (env : ℕ → PollChoices) (connectNs overrunNs lateNs : ℕ) : Prop where
  connect : ∀ k, (env k).connectNs ≤ connectNs
  request : ∀ k timeoutMs, (env k).requestNs timeoutMs ≤ timeoutMs * nsPerMilli + overrunNs
  late : ∀ k, (env k).lateNs ≤ lateNs

/-- A request of a poll stays within the poll's time. -/
def PollEffect.Within (startNs timeoutMs : ℕ) : PollEffect → Prop
  | .request requestNs requestMs _ =>
    0 < requestMs ∧ requestMs ≤ timeoutMs ∧ startNs ≤ requestNs ∧
      requestNs + requestMs * nsPerMilli ≤ startNs + timeoutMs * nsPerMilli
  | _ => True

theorem Connected.within {c : PollChoices} {s : PollState} {effects : List PollEffect}
    {backoff : ReconnectBackoff} (h : Connected c s effects backoff) (startNs timeoutMs : ℕ) :
    ∀ e ∈ effects, e.Within startNs timeoutMs := by
  intro e he
  cases h with
  | there => cases he
  | made =>
    rcases List.mem_cons.mp he with rfl | he
    · trivial
    · rw [List.mem_singleton.mp he]
      trivial

theorem requestEffects_within {startNs timeoutMs : ℕ} {c : PollChoices} {s : PollState}
    (hstart : startNs ≤ s.nowNs)
    (hleft : 0 < (startNs + timeoutMs * nsPerMilli - (s.nowNs + c.connectNs)) / nsPerMilli) :
    ∀ e ∈ requestEffects (startNs + timeoutMs * nsPerMilli) c s, e.Within startNs timeoutMs := by
  intro e he
  unfold requestEffects at he
  rcases List.mem_append.mp he with hresend | hrequest
  · unfold pollNotifyResend at hresend
    split at hresend
    · cases hresend
    · rw [List.mem_singleton.mp hresend]
      trivial
  · rw [List.mem_singleton.mp hrequest]
    show _ ∧ _ ∧ _ ∧ _
    rw [nsPerMilli_eq] at hleft ⊢
    omega

/-- A pass stays within the time of the poll. -/
theorem within_of_pollPass {startNs timeoutMs : ℕ} {c : PollChoices} {s : PollState}
    {effects : List PollEffect} {next : PollState ⊕ PollEnd} (hstart : startNs ≤ s.nowNs)
    (h : PollPass (startNs + timeoutMs * nsPerMilli) c s effects next) :
    (∀ e ∈ effects, e.Within startNs timeoutMs) ∧
      Sum.elim (fun s' => startNs ≤ s'.nowNs) (fun _ => True) next := by
  have hdone : ∀ ns, (PollEffect.attemptDone ns).Within startNs timeoutMs := fun _ => trivial
  have hwait : ∀ ms, (PollEffect.retryWait ms).Within startNs timeoutMs := fun _ => trivial
  cases h with
  | unconnected =>
    refine ⟨fun e he => ?_, ?_⟩
    · simp only [List.mem_cons, List.not_mem_nil, or_false] at he
      rcases he with rfl | rfl <;> trivial
    · show _ ≤ s.nowNs + c.connectNs + _
      omega
  | late hconnected _ => exact ⟨hconnected.within _ _, trivial⟩
  | failed hconnected hms hleft _ =>
    refine ⟨List.forall_mem_append.mpr ⟨hconnected.within _ _, ?_⟩, trivial⟩
    exact requestEffects_within hstart (hms ▸ hleft)
  | replied hconnected hms hleft _ _ =>
    refine ⟨List.forall_mem_append.mpr ⟨List.forall_mem_append.mpr
      ⟨hconnected.within _ _, requestEffects_within hstart (hms ▸ hleft)⟩, ?_⟩, trivial⟩
    exact List.forall_mem_singleton.mpr (hdone _)
  | empty hconnected hms hleft _ _ _ =>
    refine ⟨List.forall_mem_append.mpr ⟨List.forall_mem_append.mpr
      ⟨hconnected.within _ _, requestEffects_within hstart (hms ▸ hleft)⟩, ?_⟩, ?_⟩
    · exact List.forall_mem_cons.mpr ⟨hdone _, List.forall_mem_singleton.mpr (hwait _)⟩
    · show _ ≤ s.nowNs + c.connectNs + _ + _
      omega

/-- By how much a poll may be late. -/
@[irreducible] def pollSlackNs (connectNs overrunNs lateNs : ℕ) : ℕ :=
  max (connectNs + kReconnectBackoffMaxMs * nsPerMilli)
    (overrunNs + kNoRespondersRetryDelayMs * nsPerMilli) + lateNs

/-- A request with the milliseconds that are left is over at the deadline. -/
theorem add_remaining_le {deadlineNs nowNs remainingMs : ℕ}
    (hms : remainingMs = (deadlineNs - nowNs) / nsPerMilli) (hleft : 0 < remainingMs) :
    nowNs + remainingMs * nsPerMilli ≤ deadlineNs := by
  have hle : remainingMs * nsPerMilli ≤ deadlineNs - nowNs := by
    rw [hms]
    exact Nat.div_mul_le_self _ _
  have hpos : 0 < remainingMs * nsPerMilli := Nat.mul_pos hleft (by rw [nsPerMilli_eq]; decide)
  generalize remainingMs * nsPerMilli = budgetNs at *
  clear hms
  omega

/-- The sleep of a pass that has asked. -/
theorem repliedNs_le {env : ℕ → PollChoices} {connectNs overrunNs lateNs : ℕ}
    (htimes : PollTimes env connectNs overrunNs lateNs) {deadlineNs k nowNs remainingMs : ℕ}
    (hms : remainingMs = (deadlineNs - nowNs) / nsPerMilli) (hleft : 0 < remainingMs) :
    nowNs + (env k).requestNs remainingMs ≤ deadlineNs + overrunNs := by
  have hrest := add_remaining_le hms hleft
  have hrequest := htimes.request k remainingMs
  generalize remainingMs * nsPerMilli = budgetNs at *
  generalize (env k).requestNs remainingMs = spentNs at *
  clear hms
  omega

theorem connect_le_pollSlackNs (connectNs overrunNs lateNs : ℕ) :
    connectNs + (kReconnectBackoffMaxMs * nsPerMilli + lateNs) ≤
      pollSlackNs connectNs overrunNs lateNs := by
  have hle := Nat.le_max_left (connectNs + kReconnectBackoffMaxMs * nsPerMilli)
    (overrunNs + kNoRespondersRetryDelayMs * nsPerMilli)
  unfold pollSlackNs
  rw [← Nat.add_assoc]
  exact Nat.add_le_add_right hle _

theorem overrun_le_pollSlackNs (connectNs overrunNs lateNs : ℕ) :
    overrunNs + (kNoRespondersRetryDelayMs * nsPerMilli + lateNs) ≤
      pollSlackNs connectNs overrunNs lateNs := by
  have hle := Nat.le_max_right (connectNs + kReconnectBackoffMaxMs * nsPerMilli)
    (overrunNs + kNoRespondersRetryDelayMs * nsPerMilli)
  unfold pollSlackNs
  rw [← Nat.add_assoc]
  exact Nat.add_le_add_right hle _

/-- A sleep of at most so many milliseconds. -/
theorem sleepNs_le {delayMs maxMs ns lateNs : ℕ} (hdelay : delayMs ≤ maxMs) (hlate : ns ≤ lateNs) :
    delayMs * nsPerMilli + ns ≤ maxMs * nsPerMilli + lateNs :=
  Nat.add_le_add (Nat.mul_le_mul_right _ hdelay) hlate

/-- A pass that begins before the deadline is not later than the slack. -/
theorem endNs_le_of_pollPass {env : ℕ → PollChoices} {connectNs overrunNs lateNs : ℕ}
    (htimes : PollTimes env connectNs overrunNs lateNs) {deadlineNs : ℕ} {s : PollState}
    {effects : List PollEffect} {next : PollState ⊕ PollEnd} (hbefore : s.nowNs < deadlineNs)
    (h : PollPass deadlineNs (env s.pass) s effects next) :
    (pollEnd next).endNs ≤ deadlineNs + pollSlackNs connectNs overrunNs lateNs := by
  have hslack := connect_le_pollSlackNs connectNs overrunNs lateNs
  have hoverrun := overrun_le_pollSlackNs connectNs overrunNs lateNs
  have hconnected : s.nowNs + (env s.pass).connectNs ≤ deadlineNs + connectNs :=
    Nat.add_le_add (Nat.le_of_lt hbefore) (htimes.connect s.pass)
  have hlate := htimes.late s.pass
  cases h with
  | unconnected =>
    calc s.nowNs + (env s.pass).connectNs +
          (s.backoff.currentDelayMs * nsPerMilli + (env s.pass).lateNs)
      _ ≤ deadlineNs + connectNs + (kReconnectBackoffMaxMs * nsPerMilli + lateNs) :=
        Nat.add_le_add hconnected (sleepNs_le s.backoff.currentDelayMs_le hlate)
      _ ≤ _ := by
        rw [Nat.add_assoc]
        exact Nat.add_le_add_left hslack _
  | late _ _ =>
    refine Nat.le_trans hconnected (Nat.add_le_add_left ?_ _)
    exact Nat.le_trans (Nat.le_add_right _ _) hslack
  | failed _ hms hleft _ =>
    refine Nat.le_trans (repliedNs_le (k := s.pass) htimes hms hleft) (Nat.add_le_add_left ?_ _)
    exact Nat.le_trans (Nat.le_add_right _ _) hoverrun
  | replied _ hms hleft _ _ =>
    refine Nat.le_trans (repliedNs_le (k := s.pass) htimes hms hleft) (Nat.add_le_add_left ?_ _)
    exact Nat.le_trans (Nat.le_add_right _ _) hoverrun
  | @empty _ _ _ delayMs _ _ hms hleft _ _ hdelay =>
    have hmax : delayMs ≤ kNoRespondersRetryDelayMs := by
      rcases hdelay with rfl | rfl
      · decide
      · decide
    refine Nat.le_trans (Nat.add_le_add (repliedNs_le (k := s.pass) htimes hms hleft)
      (sleepNs_le hmax hlate)) ?_
    rw [Nat.add_assoc]
    exact Nat.add_le_add_left hoverrun _

/-- So many passes fit into the time, each but the last with the shortest sleep. -/
theorem le_of_mul_shortest_le {n startNs timeoutMs : ℕ}
    (h : n * (kEmptyResponseRetryDelayMs * nsPerMilli) ≤
      startNs + timeoutMs * nsPerMilli - startNs + (kEmptyResponseRetryDelayMs * nsPerMilli - 1)) :
    n ≤ (timeoutMs + 249) / 250 := by
  unfold kEmptyResponseRetryDelayMs at h
  rw [nsPerMilli_eq] at h
  omega

/-- However it ends, a loop that begins before some time and whose passes end by it does too. -/
theorem endNs_run_le {env : ℕ → PollChoices} {deadlineNs ns : ℕ}
    (h : ∀ s, s.nowNs < deadlineNs → (pollEnd (pollTurn deadlineNs env s).2).endNs ≤ ns)
    {s : PollState} (hs : s.nowNs ≤ ns) :
    PollRun.endNs ((pollLoop deadlineNs env).run deadlineNs s) ≤ ns := by
  have hnext : ∀ next : PollState ⊕ PollEnd, (pollEnd next).endNs ≤ ns →
      Sum.elim (fun s => s.nowNs ≤ ns) (fun e => e.endNs ≤ ns) next := by
    intro next hle
    cases next with
    | inl s' => exact hle
    | inr e => exact hle
  have hrun := DeadlineLoop.Loop.forall_mem_run (pollLoop deadlineNs env) deadlineNs
    (fun s => s.nowNs ≤ ns) (fun _ => True) (fun e => e.endNs ≤ ns)
    (fun s _ hbefore => ⟨fun _ _ => trivial, hnext _ (h s hbefore)⟩) hs
  generalize (pollLoop deadlineNs env).run deadlineNs s = run at hrun ⊢
  obtain ⟨passes, last⟩ := run
  cases last with
  | inl s' => exact hrun.2.1
  | inr e => exact hrun.2

/-- **The poll and its deadline**, in every environment: the loop makes no more passes than fit
between the shortest sleeps; each request is given at least a millisecond and stays within the
time of the poll; and the loop is late by no more than an attempt to connect or the overrun of a
request, and the sleep after it. -/
theorem poll_deadline {env : ℕ → PollChoices} {connectNs overrunNs lateNs : ℕ}
    (htimes : PollTimes env connectNs overrunNs lateNs) (startNs timeoutMs : ℕ) :
    (pollUntilDeadline env startNs timeoutMs).1.length ≤ (timeoutMs + 249) / 250 ∧
      (∀ effects ∈ (pollUntilDeadline env startNs timeoutMs).1, ∀ e ∈ effects,
        e.Within startNs timeoutMs) ∧
      (pollUntilDeadline env startNs timeoutMs).endNs ≤
        startNs + timeoutMs * nsPerMilli + pollSlackNs connectNs overrunNs lateNs := by
  have hturn := fun s => pollPass_pollTurn (startNs + timeoutMs * nsPerMilli) env s
  unfold pollUntilDeadline
  refine ⟨?_, ?_, ?_⟩
  · exact le_of_mul_shortest_le (DeadlineLoop.Loop.length_run_mul_least_le
      (pollLoop (startNs + timeoutMs * nsPerMilli) env) (startNs + timeoutMs * nsPerMilli)
      (.initial startNs))
  · have hrun := DeadlineLoop.Loop.forall_mem_run (pollLoop (startNs + timeoutMs * nsPerMilli) env)
      (startNs + timeoutMs * nsPerMilli) (fun s => startNs ≤ s.nowNs)
      (PollEffect.Within startNs timeoutMs) (fun _ => True)
      (fun s hs _ => within_of_pollPass hs (hturn s))
      (s := .initial startNs) (Nat.le_refl startNs)
    exact hrun.1
  · refine endNs_run_le (fun s hbefore => endNs_le_of_pollPass htimes hbefore (hturn s)) ?_
    exact Nat.le_trans (Nat.le_add_right _ _) (Nat.le_add_right _ _)

/-- A connection that is lost and does not come back. -/
def outage : PollChoices where
  connected := false
  connects := false
  connectNs := 20000000
  reply := fun _ => .ok ⟨[], ⟨[], isValidUtf8_nil⟩⟩
  requestNs := fun _ => 0
  lastError := ascii "Connection Closed"
  lateNs := 0

/-- The poll of half a minute during an outage. -/
theorem poll_deadline_outage :
    (pollUntilDeadline (fun _ => outage) 7 30000).1.length ≤ (30000 + 249) / 250 ∧
      (∀ effects ∈ (pollUntilDeadline (fun _ => outage) 7 30000).1, ∀ e ∈ effects,
        e.Within 7 30000) ∧
      (pollUntilDeadline (fun _ => outage) 7 30000).endNs ≤
        7 + 30000 * nsPerMilli + pollSlackNs 20000000 0 0 :=
  poll_deadline ⟨fun _ => Nat.le_refl _, fun _ _ => Nat.zero_le _, fun _ => Nat.le_refl _⟩ 7 30000

/-! ## What a poll counts and comes to -/

namespace PollEffect

def isConnectionError : PollEffect → Bool
  | .connectionError => true
  | _ => false

def isReconnectSleep : PollEffect → Bool
  | .reconnectSleep _ => true
  | _ => false

def isConnectionCreate : PollEffect → Bool
  | .connectionCreate => true
  | _ => false

def isResend : PollEffect → Bool
  | .resend => true
  | _ => false

def isRetryWait : PollEffect → Bool
  | .retryWait _ => true
  | _ => false

/-- The reply to a request. -/
def reply? : PollEffect → Option (Except Text PollOutcome)
  | .request _ _ reply => some reply
  | _ => none

end PollEffect

/-- The replies to the requests, in order. -/
def replies (effects : List PollEffect) : List (Except Text PollOutcome) :=
  effects.filterMap PollEffect.reply?

/-- A reply that has come, but is empty. -/
def isEmptyReply : Except Text PollOutcome → Bool
  | .ok outcome => outcome.data.isEmpty
  | .error _ => false

/-- The first of some replies that is not empty, or else the last of them. -/
def firstReply : PollOutcome → List (Except Text PollOutcome) → Except Text PollOutcome
  | outcome, [] => .ok outcome
  | _, .error what :: _ => .error what
  | _, .ok outcome :: rest => if outcome.data.isEmpty then firstReply outcome rest else .ok outcome

/-- After so many failures to connect, the sleeps double from the least to the greatest delay,
and begin anew once a connection is made. -/
def DelaysDouble : ℕ → List PollEffect → Prop
  | _, [] => True
  | failures, .reconnectSleep delayMs :: rest =>
    delayMs = min (kReconnectBackoffMinMs * 2 ^ failures) kReconnectBackoffMaxMs ∧
      DelaysDouble (failures + 1) rest
  | _, .connectionCreate :: rest => DelaysDouble 0 rest
  | failures, _ :: rest => DelaysDouble failures rest

/-- What the effects of some passes and the end of the loop say together, from a state on. -/
structure PollAccount (s : PollState) (effects : List PollEffect)
    (result : Except Text PollOutcome) : Prop where
  /-- Each request but the first is counted as a duplicate. -/
  resends : effects.countP PollEffect.isResend + min s.firstAttempt.toNat (replies effects).length =
    (replies effects).length
  /-- Each failure of the connection ends in a sleep or in a new one. -/
  errors : effects.countP PollEffect.isConnectionError =
    effects.countP PollEffect.isReconnectSleep + effects.countP PollEffect.isConnectionCreate
  /-- Each empty reply is followed by a wait. -/
  waits : effects.countP PollEffect.isRetryWait = (replies effects).countP isEmptyReply
  delays : DelaysDouble s.backoff.consecutiveFailures effects
  /-- There is no request behind a reply that is not empty. -/
  stops : ∀ reply ∈ (replies effects).dropLast, isEmptyReply reply = true
  result_eq : result = firstReply s.outcome (replies effects)

variable {deadlineNs : ℕ} {c : PollChoices} {s : PollState} {effects : List PollEffect}

@[simp] theorem replies_nil : replies [] = [] := rfl

@[simp] theorem replies_append (es₁ es₂ : List PollEffect) :
    replies (es₁ ++ es₂) = replies es₁ ++ replies es₂ := List.filterMap_append

/-- The effects before the request of a pass: of its connection, and of the resend. -/
theorem account_connected {backoff : ReconnectBackoff} (h : Connected c s effects backoff) :
    effects.countP PollEffect.isResend = 0 ∧ replies effects = [] ∧
      effects.countP PollEffect.isConnectionError =
        effects.countP PollEffect.isReconnectSleep + effects.countP PollEffect.isConnectionCreate ∧
      effects.countP PollEffect.isRetryWait = 0 ∧
      ∀ es, DelaysDouble s.backoff.consecutiveFailures (effects ++ es) ↔
        DelaysDouble backoff.consecutiveFailures es := by
  cases h with
  | there => exact ⟨rfl, rfl, rfl, rfl, fun _ => Iff.rfl⟩
  | made => exact ⟨rfl, rfl, rfl, rfl, fun _ => Iff.rfl⟩

/-- The request of a pass. -/
theorem account_requestEffects (deadlineNs : ℕ) (c : PollChoices) (s : PollState) :
    (requestEffects deadlineNs c s).countP PollEffect.isResend + s.firstAttempt.toNat = 1 ∧
      replies (requestEffects deadlineNs c s) =
        [c.reply ((deadlineNs - (s.nowNs + c.connectNs)) / nsPerMilli)] ∧
      (requestEffects deadlineNs c s).countP PollEffect.isConnectionError = 0 ∧
      (requestEffects deadlineNs c s).countP PollEffect.isReconnectSleep = 0 ∧
      (requestEffects deadlineNs c s).countP PollEffect.isConnectionCreate = 0 ∧
      (requestEffects deadlineNs c s).countP PollEffect.isRetryWait = 0 ∧
      ∀ failures es, DelaysDouble failures (requestEffects deadlineNs c s ++ es) ↔
        DelaysDouble failures es := by
  unfold requestEffects pollNotifyResend
  cases s.firstAttempt with
  | true => exact ⟨rfl, rfl, rfl, rfl, rfl, rfl, fun _ _ => Iff.rfl⟩
  | false => exact ⟨rfl, rfl, rfl, rfl, rfl, rfl, fun _ _ => Iff.rfl⟩

/-- A request, and what follows it up to the end of the loop. -/
theorem account_request {backoff : ReconnectBackoff} {tail : List PollEffect}
    {reply result : Except Text PollOutcome} (h : Connected c s effects backoff)
    (hreply : c.reply ((deadlineNs - (s.nowNs + c.connectNs)) / nsPerMilli) = reply)
    (resends : tail.countP PollEffect.isResend = (replies tail).length)
    (errors : tail.countP PollEffect.isConnectionError =
      tail.countP PollEffect.isReconnectSleep + tail.countP PollEffect.isConnectionCreate)
    (waits : tail.countP PollEffect.isRetryWait = (reply :: replies tail).countP isEmptyReply)
    (delays : DelaysDouble backoff.consecutiveFailures tail)
    (stops : ∀ r ∈ (reply :: replies tail).dropLast, isEmptyReply r = true)
    (result_eq : result = firstReply s.outcome (reply :: replies tail)) :
    PollAccount s (effects ++ requestEffects deadlineNs c s ++ tail) result := by
  obtain ⟨hr₁, hq₁, he₁, hw₁, hd₁⟩ := account_connected h
  obtain ⟨hr₂, hq₂, he₂, hs₂, hc₂, hw₂, hd₂⟩ := account_requestEffects deadlineNs c s
  have hreplies : replies (effects ++ requestEffects deadlineNs c s ++ tail) =
      reply :: replies tail := by
    rw [replies_append, replies_append, hq₁, hq₂, hreply]
    rfl
  constructor
  · rw [hreplies, List.countP_append, List.countP_append, List.length_cons]
    have hmin : min s.firstAttempt.toNat ((replies tail).length + 1) = s.firstAttempt.toNat :=
      Nat.min_eq_left (by omega)
    omega
  · simp only [List.countP_append]
    omega
  · rw [hreplies, List.countP_append, List.countP_append]
    omega
  · rw [List.append_assoc]
    exact (hd₁ _).mpr ((hd₂ _ _).mpr delays)
  · rw [hreplies]
    exact stops
  · rw [hreplies]
    exact result_eq

/-- A pass that ends the loop. -/
theorem account_of_inr {e : PollEnd} (h : PollPass deadlineNs c s effects (.inr e)) :
    PollAccount s effects e.result := by
  cases h with
  | late hconnected _ =>
    obtain ⟨hr, hq, he, hw, hd⟩ := account_connected hconnected
    constructor
    · rw [hr, hq]
      exact (Nat.zero_add _).trans (Nat.min_zero _)
    · exact he
    · rw [hw, hq]
      rfl
    · have hnil := (hd []).mpr trivial
      rwa [List.append_nil] at hnil
    · rw [hq]
      exact List.forall_mem_nil _
    · rw [hq]
      rfl
  | failed hconnected hms _ hreply =>
    rw [← List.append_nil (_ ++ _)]
    exact account_request hconnected (hms ▸ hreply) rfl rfl rfl trivial (List.forall_mem_nil _) rfl
  | @replied _ _ _ outcome hconnected hms _ hreply hdata =>
    have hsome : outcome.data.isEmpty = false := by
      cases hcase : outcome.data with
      | nil => exact absurd hcase hdata
      | cons b rest => rfl
    refine account_request hconnected (hms ▸ hreply) rfl rfl ?_ trivial (List.forall_mem_nil _) ?_
    · show 0 = List.countP isEmptyReply [.ok outcome]
      rw [List.countP_singleton, isEmptyReply, hsome]
      rfl
    · show _ = firstReply _ [.ok outcome]
      rw [firstReply, hsome]
      rfl

/-- A pass behind which the loop goes on. -/
theorem account_of_inl {s' : PollState} {rest : List PollEffect} {result : Except Text PollOutcome}
    (h : PollPass deadlineNs c s effects (.inl s')) (hrest : PollAccount s' rest result) :
    PollAccount s (effects ++ rest) result := by
  obtain ⟨resends, errors, waits, delays, stops, result_eq⟩ := hrest
  cases h with
  | unconnected =>
    refine ⟨resends, ?_, waits, ⟨s.backoff.current_eq, delays⟩, stops, result_eq⟩
    rw [List.countP_append, List.countP_append, List.countP_append]
    show 1 + _ = 1 + _ + (0 + _)
    omega
  | @empty _ _ _ delayMs outcome hconnected hms _ hreply hdata _ =>
    have hempty : isEmptyReply (.ok outcome) = true := by
      show outcome.data.isEmpty = true
      rw [hdata]
      rfl
    rw [List.append_assoc]
    refine account_request hconnected (hms ▸ hreply) ?_ errors ?_ delays ?_ ?_
    · rw [Bool.toNat_false, Nat.zero_min, Nat.add_zero] at resends
      exact resends
    · rw [List.countP_cons_of_pos hempty]
      rw [List.countP_append, waits]
      exact Nat.add_comm _ _
    · show ∀ r ∈ (Except.ok outcome :: replies rest).dropLast, isEmptyReply r = true
      cases hreplies : replies rest with
      | nil => exact List.forall_mem_nil _
      | cons r₁ rs =>
        rw [hreplies] at stops
        exact List.forall_mem_cons.mpr ⟨hempty, stops⟩
    · show result = firstReply s.outcome (.ok outcome :: replies rest)
      rw [firstReply, hdata]
      exact result_eq

theorem account_run (env : ℕ → PollChoices) (deadlineNs : ℕ) (s : PollState) :
    PollAccount s ((pollLoop deadlineNs env).run deadlineNs s).1.flatten
      (PollRun.result ((pollLoop deadlineNs env).run deadlineNs s)) := by
  have hpass : ∀ s es next, (pollLoop deadlineNs env).turn s = (es, next) →
      PollPass deadlineNs (env s.pass) s es next := by
    intro s es next hturn
    have hpass := pollPass_pollTurn deadlineNs env s
    rwa [show pollTurn deadlineNs env s = (es, next) from hturn] at hpass
  refine DeadlineLoop.Loop.run_induction
    (P := fun s ess last => PollAccount s ess.flatten (PollRun.result (ess, last))) ?_ ?_ ?_ s
  · intro s _
    exact ⟨(Nat.zero_add _).trans (Nat.min_zero _), rfl, rfl, trivial, List.forall_mem_nil _, rfl⟩
  · intro s es e _ hturn
    rw [List.flatten_singleton]
    exact account_of_inr (hpass s es _ hturn)
  · intro s es s' _ hturn ih
    rw [List.flatten_cons]
    exact account_of_inl (hpass s es _ hturn) ih

/-- **What a poll counts and comes to**, in every environment: its counters agree with the
requests it made, its delays double, and it comes to the first reply that is not empty, behind
which it asks no more. -/
theorem poll_accounting (env : ℕ → PollChoices) (startNs timeoutMs : ℕ) :
    PollAccount (.initial startNs) (pollUntilDeadline env startNs timeoutMs).1.flatten
      (pollUntilDeadline env startNs timeoutMs).result :=
  account_run env _ _

/-! ## The answer to the client -/

/-- The timeout of `poll_response`. -/
def pollTimeoutMs (timeoutSeconds : ℤ) : ℕ :=
  if timeoutSeconds * 1000 ≤ 0 then kDefaultTimeoutMs else (timeoutSeconds * 1000).toNat

/-- What `poll_response` gets from `poll_until_deadline` and from the client behind it. -/
def PollRun.answer (run : PollRun) (lastError : Text) (connected : Bool) :
    Except Text NatsAnswer :=
  run.result.map fun outcome => ⟨outcome.data, outcome.consumeSpanId, lastError, connected⟩

/-- When only the last of some replies may be more than empty, the first that is not empty is a
reply with data exactly when there is one. -/
theorem firstReply_data_iff (outcome : PollOutcome) {rs : List (Except Text PollOutcome)}
    (houtcome : outcome.data = []) (hstops : ∀ r ∈ rs.dropLast, isEmptyReply r = true) :
    (∃ o : PollOutcome, firstReply outcome rs = .ok o ∧ o.data ≠ []) ↔
      ∃ o : PollOutcome, .ok o ∈ rs ∧ o.data ≠ [] := by
  induction rs generalizing outcome with
  | nil =>
    constructor
    · rintro ⟨o, ho, hdata⟩
      obtain rfl := Except.ok.inj ho
      exact absurd houtcome hdata
    · rintro ⟨o, ho, -⟩
      cases ho
  | cons r rs ih =>
    have hrest : ∀ r ∈ rs.dropLast, isEmptyReply r = true := by
      intro r' hr'
      cases rs with
      | nil => cases hr'
      | cons r₁ rs => exact hstops r' (List.mem_cons_of_mem _ hr')
    cases r with
    | error what =>
      constructor
      · rintro ⟨o, ho, -⟩
        cases ho
      · rintro ⟨o, ho, hdata⟩
        -- Behind an exception there is no reply.
        cases rs with
        | nil => cases List.mem_singleton.mp ho
        | cons r₁ rs => cases hstops (.error what) List.mem_cons_self
    | ok first =>
      by_cases hfirst : first.data = []
      · rw [firstReply, if_pos (List.isEmpty_iff.mpr hfirst), ih first hfirst hrest]
        constructor
        · rintro ⟨o, ho, hdata⟩
          exact ⟨o, List.mem_cons_of_mem _ ho, hdata⟩
        · rintro ⟨o, ho, hdata⟩
          rcases List.mem_cons.mp ho with heq | ho
          · obtain rfl := Except.ok.inj heq
            exact absurd hfirst hdata
          · exact ⟨o, ho, hdata⟩
      · rw [firstReply, if_neg fun h => hfirst (List.isEmpty_iff.mp h)]
        exact ⟨fun _ => ⟨first, List.mem_cons_self, hfirst⟩, fun _ => ⟨first, rfl, hfirst⟩⟩

/-- The answer of `poll_response` has data exactly when the answer to the poll has. -/
theorem pollResponse_data_iff {cfg : ProxyConfig} {env : HandlerChoices}
    (hclient : cfg.natsClient = true) (ctx : Tracing.TraceContext) :
    (pollResponse cfg env ctx).2 ≠ [] ↔ ∃ answer, env.nats = .ok answer ∧ answer.data ≠ [] := by
  unfold pollResponse
  rw [hclient]
  cases env.nats with
  | error what =>
    refine ⟨fun h => absurd rfl h, ?_⟩
    rintro ⟨answer, hanswer, -⟩
    cases hanswer
  | ok answer =>
    by_cases hdata : answer.data = []
    · simp [hdata]
    · simp [hdata]

/-- **What the client is answered with.**  `poll_response` comes to an answer exactly when one
of the requests that the poll made was answered. -/
theorem pollResponse_poll {cfg : ProxyConfig} {handler : HandlerChoices} {env : ℕ → PollChoices}
    {startNs : ℕ} {timeoutSeconds : ℤ} {lastError : Text} {connected : Bool}
    (hclient : cfg.natsClient = true)
    (hnats : handler.nats =
      (pollUntilDeadline env startNs (pollTimeoutMs timeoutSeconds)).answer lastError connected)
    (ctx : Tracing.TraceContext) :
    (pollResponse cfg handler ctx).2 ≠ [] ↔
      ∃ o : PollOutcome, .ok o ∈
        replies (pollUntilDeadline env startNs (pollTimeoutMs timeoutSeconds)).1.flatten ∧
        o.data ≠ [] := by
  have haccount := poll_accounting env startNs (pollTimeoutMs timeoutSeconds)
  rw [← firstReply_data_iff (PollState.initial startNs).outcome rfl haccount.stops,
    ← haccount.result_eq, pollResponse_data_iff hclient, hnats]
  unfold PollRun.answer
  cases (pollUntilDeadline env startNs (pollTimeoutMs timeoutSeconds)).result with
  | error what => simp [Except.map]
  | ok outcome => simp [Except.map]

end Proxy
end HttpDataDiod
