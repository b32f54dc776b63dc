import HttpDataDiod.Tracing.SpanAccounting

/-!
# What an open breaker sheds

`record_sink_failure` sets the cooldown of a sink once its failures in a row have reached
the threshold; a batch that comes within the cooldown is shed.  The cooldown of the Jaeger
sink is looked at once for each batch, in front of the retry loop of `send_batch_with_retry`,
while failures are recorded inside that loop: the batch that opens the breaker still makes
its retries, and one of them may succeed and close the breaker again.  The Sentry sink has no
retries.  The final batch of a shutdown goes to Jaeger in any case, and only its Sentry
transactions are shed.

Here the steps of the tracer have times, and a log keeps what was posted and what failed.

* `timedStep`: the steps of `jaegerStep`, with the clock and the log.
* `Sheds`: what is shed.
* `breaker_sheds`: in every run.
* `posts_within_cooldown`: the retry of a batch that has opened the breaker.
-/

namespace HttpDataDiod
namespace Tracing

open Transition Proxy ByteText

/-! ## The log -/

inductive Sink where
  | jaeger
  | sentry
  deriving DecidableEq

/-- What happens to a sink: a POST is started for a batch, or for the final batch by the flush
of a shutdown, at a time and with an outcome; or `record_sink_failure` is called for a batch,
and sets the cooldown or not. -/
inductive SinkEntry where
  | posted (sink : Sink) (batch startedAt : ℕ) (ok : Bool)
  | flushed (startedAt : ℕ) (ok : Bool)
  | failed (sink : Sink) (batch : ℕ) (cooldownUntil : Option ℕ)
  deriving DecidableEq

/-- The tracer, the time, the number of batches that were taken, and the log, the newest entry
first. -/
structure TimedState where
  jaeger : JaegerState
  clock : ℕ
  batches : ℕ
  log : List SinkEntry

/-- A step with its time, and whether the pool of the sink has a client for its POST. -/
structure TimedEvent where
  event : JaegerEvent
  now : ℕ
  connected : Bool

/-- Before the first span. -/
def initialTimed : TimedState where
  jaeger := initialJaeger
  clock := 0
  batches := 0
  log := []

/-- The clock is read in the course of the step, and a POST that returns has had a client. -/
def timely (clock : ℕ) (e : TimedEvent) : Bool :=
  clock ≤ e.now &&
    match e.event with
    | .sender nowMs posted choices =>
      clock ≤ nowMs && nowMs ≤ e.now && clock ≤ choices.nowSteadyMs &&
        choices.nowSteadyMs ≤ e.now && (e.connected || (!posted && !choices.posted))
    | _ => true

variable (lib : JsonLibrary) (cfg : DeliveryConfig)

/-- `deliver_sentry_transactions` comes to its POST. -/
def sentrySends (choices : SentryChoices) (batch : List SpanData) (d : DeliveryState) : Bool :=
  cfg.sentry.enabled && !batch.isEmpty &&
    !decide (d.sentry.cooldownUntilSteadyMs ≠ 0 ∧
      choices.nowSteadyMs < d.sentry.cooldownUntilSteadyMs) &&
    (sampledTransactions lib cfg.sentry choices 0 batch).any fun events => !events.isEmpty

/-- The POST that a step starts. -/
def postsOf (s : TimedState) (e : TimedEvent) : List SinkEntry :=
  match e.event with
  | .sender _ posted choices =>
    if e.connected then
      match s.jaeger.sender with
      | .attempting _ _ retries =>
        if retries < tracingMaxRetries ∧ s.jaeger.stopRequested = false then
          [.posted .jaeger s.batches e.now posted]
        else []
      | .flushing _ => [.flushed e.now posted]
      | .sentry _ batch =>
        if sentrySends lib cfg choices batch s.jaeger.delivery then
          [.posted .sentry s.batches e.now choices.posted]
        else []
      | _ => []
    else []
  | _ => []

/-- The failure that a step records, as the breaker shows it. -/
def failuresOf (sink : Sink) (batch : ℕ) (before after : ExponentialBreaker) : List SinkEntry :=
  if before.consecutiveFailures < after.consecutiveFailures then
    [.failed sink batch
      (if cfg.settings.failureThreshold ≤ after.consecutiveFailures then
        some after.cooldownUntilSteadyMs
      else none)]
  else []

/-- The number of batches behind a step. -/
def batchesOf (s : TimedState) : JaegerEvent → ℕ
  | .sender _ _ _ =>
    match s.jaeger.sender with
    | .waiting => s.batches + 1
    | .draining => s.batches + 1
    | _ => s.batches
  | _ => s.batches

/-- The state behind a step that has led the tracer to `j`. -/
def afterStep (s : TimedState) (e : TimedEvent) (j : JaegerState) : TimedState where
  jaeger := j
  clock := e.now
  batches := batchesOf s e.event
  log :=
    failuresOf cfg .jaeger s.batches s.jaeger.delivery.jaeger j.delivery.jaeger ++
      failuresOf cfg .sentry s.batches s.jaeger.delivery.sentry j.delivery.sentry ++
      postsOf lib cfg s e ++ s.log

/-- One step of the tracer. -/
def timedStep (s : TimedState) (e : TimedEvent) : Option TimedState :=
  if timely s.clock e then (jaegerStep lib cfg s.jaeger e.event).map (afterStep lib cfg s e)
  else none

/-! ## What is shed -/

/-- A POST of the retry loop that closes the Jaeger breaker. -/
def SinkEntry.closesJaeger : SinkEntry → Bool
  | .posted .jaeger _ _ true => true
  | _ => false

/-- The entries that count for a sink: for Jaeger, those since its breaker was closed. -/
def standing : Sink → List SinkEntry → List SinkEntry
  | .jaeger, log => log.takeWhile fun entry => !entry.closesJaeger
  | .sentry, log => log

/-- A cooldown that stands in the way of a POST for a batch: one that was set before, and, for
Jaeger, by an earlier batch. -/
def InTheWay (sink : Sink) (batch : ℕ) (older : List SinkEntry) (untilMs : ℕ) : Prop :=
  ∃ setBy, .failed sink setBy (some untilMs) ∈ standing sink older ∧
    (sink = .jaeger → setBy < batch)

/-- No POST is started within a cooldown that stands in its way.  The POST to Jaeger of a
shutdown is left out. -/
def Sheds : List SinkEntry → Prop
  | [] => True
  | .posted sink batch startedAt _ :: older =>
    (∀ untilMs, InTheWay sink batch older untilMs → untilMs ≤ startedAt) ∧ Sheds older
  | .flushed _ _ :: older => Sheds older
  | .failed _ _ _ :: older => Sheds older

/-- The sink whose breaker an entry is about. -/
def SinkEntry.sink : SinkEntry → Option Sink
  | .posted sink _ _ _ => some sink
  | .flushed _ _ => none
  | .failed sink _ _ => some sink

/-- The breaker of a sink. -/
def DeliveryState.breaker (d : DeliveryState) : Sink → ExponentialBreaker
  | .jaeger => d.jaeger
  | .sentry => d.sentry

/-- The newest entry about a sink. -/
def newest (sink : Sink) (log : List SinkEntry) : Option SinkEntry :=
  log.find? fun entry => entry.sink = some sink

/-- An open breaker sheds; and after a POST that has succeeded, until the next failure, nothing
is counted and no cooldown is set. -/
structure BreakerSheds (s : TimedState) : Prop where
  sheds : Sheds s.log
  cleared : ∀ sink batch startedAt,
    newest sink s.log = some (.posted sink batch startedAt true) →
      s.jaeger.delivery.breaker sink = { consecutiveFailures := 0, cooldownUntilSteadyMs := 0 }

/-! ## The log and the breakers -/

section LogInv

/-- The log, beside breakers and a clock: every cooldown that counts is over or shows in the
breaker. -/
structure LogInv (breaker : Sink → ExponentialBreaker) (clock : ℕ) (log : List SinkEntry) :
    Prop where
  sheds : Sheds log
  cleared : ∀ sink batch startedAt, newest sink log = some (.posted sink batch startedAt true) →
    breaker sink = { consecutiveFailures := 0, cooldownUntilSteadyMs := 0 }
  bounded : ∀ sink batch untilMs, .failed sink batch (some untilMs) ∈ standing sink log →
    untilMs ≤ max (breaker sink).cooldownUntilSteadyMs clock

variable {breaker breaker' : Sink → ExponentialBreaker} {clock : ℕ} {log : List SinkEntry}

/-- Older entries count less and less. -/
theorem mem_of_mem_standing_cons {sink : Sink} {entry failure : SinkEntry}
    (hne : failure ≠ entry) (h : failure ∈ standing sink (entry :: log)) :
    failure ∈ standing sink log := by
  cases sink with
  | sentry => exact (List.mem_cons.mp h).resolve_left hne
  | jaeger =>
    simp only [standing, List.takeWhile_cons] at h
    split at h
    · exact (List.mem_cons.mp h).resolve_left hne
    · cases h

theorem newest_cons_of_ne {sink : Sink} {entry : SinkEntry} (h : entry.sink ≠ some sink) :
    newest sink (entry :: log) = newest sink log :=
  List.find?_cons_of_neg (by simpa using h)

theorem newest_cons {sink : Sink} {entry : SinkEntry} (h : entry.sink = some sink) :
    newest sink (entry :: log) = some entry :=
  List.find?_cons_of_pos (by simpa using h)

namespace LogInv

theorem later (h : LogInv breaker clock log) {now : ℕ} (hnow : clock ≤ now) :
    LogInv breaker now log where
  sheds := h.sheds
  cleared := h.cleared
  bounded := fun sink batch untilMs hmem => by
    have hbounded := h.bounded sink batch untilMs hmem
    omega

/-- The POST of a shutdown. -/
theorem flushed (h : LogInv breaker clock log) (startedAt : ℕ) (ok : Bool) :
    LogInv breaker clock (.flushed startedAt ok :: log) where
  sheds := h.sheds
  cleared := by
    intro sink batch at' hnewest
    rw [newest_cons_of_ne (by exact (Option.some_ne_none sink).symm)] at hnewest
    exact h.cleared sink batch at' hnewest
  bounded := fun sink batch untilMs hmem =>
    h.bounded sink batch untilMs (mem_of_mem_standing_cons SinkEntry.noConfusion hmem)

/-- A POST that fails. -/
theorem posted (h : LogInv breaker clock log) {sink : Sink} {batch startedAt : ℕ}
    (hshed : ∀ untilMs, InTheWay sink batch log untilMs → untilMs ≤ startedAt) :
    LogInv breaker clock (.posted sink batch startedAt false :: log) where
  sheds := ⟨hshed, h.sheds⟩
  cleared := by
    intro other b at' hnewest
    by_cases hsink : sink = other
    · subst hsink
      rw [newest_cons rfl] at hnewest
      cases hnewest
    · rw [newest_cons_of_ne (by simpa [SinkEntry.sink] using hsink)] at hnewest
      exact h.cleared other b at' hnewest
  bounded := fun other b untilMs hmem =>
    h.bounded other b untilMs (mem_of_mem_standing_cons SinkEntry.noConfusion hmem)

/-- A POST that succeeds, and clears the breaker. -/
theorem succeeded (h : LogInv breaker clock log) {sink : Sink} {batch startedAt : ℕ}
    (hnow : clock ≤ startedAt)
    (hshed : ∀ untilMs, InTheWay sink batch log untilMs → untilMs ≤ startedAt)
    (hbreaker : breaker' sink = { consecutiveFailures := 0, cooldownUntilSteadyMs := 0 })
    (hothers : ∀ other, sink ≠ other → breaker' other = breaker other) :
    LogInv breaker' startedAt (.posted sink batch startedAt true :: log) where
  sheds := ⟨hshed, h.sheds⟩
  cleared := by
    intro other b at' hnewest
    by_cases hsink : sink = other
    · subst hsink
      exact hbreaker
    · rw [newest_cons_of_ne (by simpa [SinkEntry.sink] using hsink)] at hnewest
      rw [hothers other hsink]
      exact h.cleared other b at' hnewest
  bounded := by
    intro other b untilMs hmem
    have holder := mem_of_mem_standing_cons SinkEntry.noConfusion hmem
    by_cases hsink : sink = other
    · subst hsink
      cases sink with
      | jaeger => exact absurd hmem List.not_mem_nil
      | sentry =>
        have hle := hshed untilMs ⟨b, holder, Sink.noConfusion⟩
        omega
    · have hbounded := h.bounded other b untilMs holder
      rw [hothers other hsink]
      omega

/-- A failure is recorded, and the cooldown of the breaker does not shrink. -/
theorem failed (h : LogInv breaker clock log) {sink : Sink} {batch : ℕ} {setTo : Option ℕ}
    (hcooldown : (breaker sink).cooldownUntilSteadyMs ≤
      max (breaker' sink).cooldownUntilSteadyMs clock)
    (hset : ∀ untilMs, setTo = some untilMs → untilMs = (breaker' sink).cooldownUntilSteadyMs)
    (hothers : ∀ other, sink ≠ other → breaker' other = breaker other) :
    LogInv breaker' clock (.failed sink batch setTo :: log) where
  sheds := h.sheds
  cleared := by
    intro other b at' hnewest
    by_cases hsink : sink = other
    · subst hsink
      rw [newest_cons rfl] at hnewest
      cases hnewest
    · rw [newest_cons_of_ne (by simpa [SinkEntry.sink] using hsink)] at hnewest
      rw [hothers other hsink]
      exact h.cleared other b at' hnewest
  bounded := by
    intro other b untilMs hmem
    by_cases hnew : SinkEntry.failed other b (some untilMs) = .failed sink batch setTo
    · obtain ⟨rfl, -, rfl⟩ := SinkEntry.failed.inj hnew
      have heq := hset untilMs rfl
      omega
    · have holder := mem_of_mem_standing_cons hnew hmem
      have hbounded := h.bounded other b untilMs holder
      by_cases hsink : sink = other
      · subst hsink
        omega
      · rw [hothers other hsink]
        exact hbounded

end LogInv

end LogInv

/-! ## The breakers -/

/-- The length of a cooldown. -/
def cooldownMs (settings : TracingBreakerSettings) (failures : ℕ) : ℕ :=
  min (settings.cooldownBaseMs <<< (min failures tracingMaxCooldownShift - 1))
    settings.cooldownMaxMs

/-- Cooldowns grow with the failures. -/
theorem cooldownMs_mono (settings : TracingBreakerSettings) {failures failures' : ℕ}
    (h : failures ≤ failures') : cooldownMs settings failures ≤ cooldownMs settings failures' := by
  have hshift : min failures tracingMaxCooldownShift - 1 ≤
      min failures' tracingMaxCooldownShift - 1 := by
    omega
  unfold cooldownMs
  rw [Nat.shiftLeft_eq, Nat.shiftLeft_eq]
  exact min_le_min_right _ (Nat.mul_le_mul_left _ (Nat.pow_le_pow_right Nat.two_pos hshift))

theorem recordSinkFailure_below {settings : TracingBreakerSettings} {breaker : ExponentialBreaker}
    (h : breaker.consecutiveFailures + 1 < settings.failureThreshold) (now : ℕ) :
    recordSinkFailure settings breaker now =
      { breaker with consecutiveFailures := breaker.consecutiveFailures + 1 } :=
  if_pos h

theorem recordSinkFailure_reached {settings : TracingBreakerSettings}
    {breaker : ExponentialBreaker}
    (h : settings.failureThreshold ≤ breaker.consecutiveFailures + 1) (now : ℕ) :
    recordSinkFailure settings breaker now =
      { consecutiveFailures := breaker.consecutiveFailures + 1
        cooldownUntilSteadyMs :=
          now + cooldownMs settings (breaker.consecutiveFailures + 1) } :=
  if_neg (Nat.not_lt.mpr h)

variable {lib cfg}

theorem failuresOf_self (sink : Sink) (batch : ℕ) (breaker : ExponentialBreaker) :
    failuresOf cfg sink batch breaker breaker = [] :=
  if_neg (Nat.lt_irrefl _)

theorem failuresOf_cleared (sink : Sink) (batch : ℕ) (breaker : ExponentialBreaker) :
    failuresOf cfg sink batch breaker {} = [] :=
  if_neg (Nat.not_lt_zero _)

/-- A recorded failure shows. -/
theorem failuresOf_recordSinkFailure (cfg : DeliveryConfig) (sink : Sink) (batch : ℕ)
    (breaker : ExponentialBreaker) (now : ℕ) :
    ∃ setTo, failuresOf cfg sink batch breaker (recordSinkFailure cfg.settings breaker now) =
        [.failed sink batch setTo] ∧
      ∀ untilMs, setTo = some untilMs →
        untilMs = (recordSinkFailure cfg.settings breaker now).cooldownUntilSteadyMs := by
  have hcount : breaker.consecutiveFailures <
      (recordSinkFailure cfg.settings breaker now).consecutiveFailures := by
    unfold recordSinkFailure
    simp only
    split <;> exact Nat.lt_succ_self _
  refine ⟨_, if_pos hcount, fun untilMs hset => ?_⟩
  split at hset
  · exact (Option.some.inj hset).symm
  · cases hset

/-- The cooldown after a failure: as it was, or counted from `began`. -/
theorem recordSinkFailure_cooldown (settings : TracingBreakerSettings)
    (breaker : ExponentialBreaker) (began : ℕ) :
    (recordSinkFailure settings breaker began).consecutiveFailures =
        breaker.consecutiveFailures + 1 ∧
      ((recordSinkFailure settings breaker began).cooldownUntilSteadyMs =
          breaker.cooldownUntilSteadyMs ∨
        (recordSinkFailure settings breaker began).cooldownUntilSteadyMs =
          began + cooldownMs settings (breaker.consecutiveFailures + 1)) := by
  rcases Nat.lt_or_ge (breaker.consecutiveFailures + 1) settings.failureThreshold with hlt | hge
  · rw [recordSinkFailure_below hlt]
    exact ⟨rfl, .inl rfl⟩
  · rw [recordSinkFailure_reached hge]
    exact ⟨rfl, .inr rfl⟩

/-- A batch in its retry loop: the breaker was closed or past its cooldown when the batch began,
at `now`, and the cooldowns that the batch sets are counted from there. -/
structure Attempts (cfg : DeliveryConfig) (s : TimedState) (now : ℕ) : Prop where
  now_le : now ≤ s.clock
  cooldown : s.jaeger.delivery.jaeger.cooldownUntilSteadyMs ≤
    now + cooldownMs cfg.settings s.jaeger.delivery.jaeger.consecutiveFailures
  earlier : ∀ untilMs, InTheWay .jaeger s.batches s.log untilMs → untilMs ≤ now

/-- What the steps keep. -/
structure ShedInv (cfg : DeliveryConfig) (s : TimedState) : Prop where
  log : LogInv s.jaeger.delivery.breaker s.clock s.log
  attempts : ∀ batch now retries, s.jaeger.sender = .attempting batch now retries →
    batch ≠ [] ∧ Attempts cfg s now

theorem shedInv_initial (cfg : DeliveryConfig) : ShedInv cfg initialTimed where
  log :=
    { sheds := trivial
      cleared := fun _ _ _ h => by cases h
      bounded := fun sink _ _ h => by cases sink <;> cases h }
  attempts := fun _ _ _ h => by cases h

/-- `deliver_sentry_transactions` and the breakers. -/
theorem deliverSentryTransactions_breaker {choices : SentryChoices} {batch : List SpanData}
    {d d' : DeliveryState} (h : deliverSentryTransactions lib cfg choices batch d = some d') :
    d'.jaeger = d.jaeger ∧
      ((sentrySends lib cfg choices batch d = false ∧ d'.sentry = d.sentry) ∨
       (sentrySends lib cfg choices batch d = true ∧
        d.sentry.cooldownUntilSteadyMs ≤ choices.nowSteadyMs ∧
        d'.sentry = if choices.posted then {}
          else recordSinkFailure cfg.settings d.sentry choices.nowSteadyMs)) := by
  unfold deliverSentryTransactions at h
  split at h
  · next hoff =>
    obtain rfl := Option.some.inj h
    refine ⟨rfl, .inl ⟨?_, rfl⟩⟩
    unfold sentrySends
    cases henabled : cfg.sentry.enabled with
    | false => simp
    | true =>
      have hempty : batch.isEmpty = true := by simpa [henabled] using hoff
      simp [hempty]
  · next hon =>
    split at h
    · next hshed =>
      obtain rfl := Option.some.inj h
      refine ⟨rfl, .inl ⟨?_, rfl⟩⟩
      unfold sentrySends
      rw [decide_eq_true hshed]
      simp
    · next hopen =>
      have hover : d.sentry.cooldownUntilSteadyMs ≤ choices.nowSteadyMs := by omega
      have hready : sentrySends lib cfg choices batch d =
          (sampledTransactions lib cfg.sentry choices 0 batch).any fun es => !es.isEmpty := by
        have hon' : cfg.sentry.enabled = true ∧ batch.isEmpty = false := by
          simpa [not_or] using hon
        unfold sentrySends
        rw [hon'.1, hon'.2, decide_eq_false hopen]
        rfl
      obtain ⟨events, hevents, h⟩ := Option.bind_eq_some_iff.mp h
      rw [hready, hevents]
      split at h
      · next hnone =>
        obtain rfl := Option.some.inj h
        exact ⟨rfl, .inl ⟨by simp [hnone], rfl⟩⟩
      · next hsome =>
        obtain ⟨envelope, -, h⟩ := Option.bind_eq_some_iff.mp h
        split at h
        · next hposted =>
          obtain rfl := Option.some.inj h
          exact ⟨rfl, .inr ⟨by simpa using hsome, hover, (if_pos hposted).symm⟩⟩
        · next hlost =>
          obtain rfl := Option.some.inj h
          exact ⟨rfl, .inr ⟨by simpa using hsome, hover, (if_neg hlost).symm⟩⟩

/-! ## The steps -/

/-- The points of the sender thread at which it may start a POST. -/
def SenderPoint.sends : SenderPoint → Bool
  | .attempting _ _ _ => true
  | .flushing _ => true
  | .sentry _ _ => true
  | _ => false

theorem postsOf_eq_nil {s : TimedState} (h : s.jaeger.sender.sends = false) (e : TimedEvent) :
    postsOf lib cfg s e = [] := by
  unfold postsOf
  cases e.event with
  | sender nowMs posted choices =>
    simp only
    split
    · cases hsender : s.jaeger.sender <;> simp_all [SenderPoint.sends]
    · rfl
  | _ => rfl

/-- At the other points the sender leaves the breakers alone, and goes into the retry loop only
past the cooldown. -/
theorem senderStep_of_not_sends {nowMs : ℕ} {posted : Bool} {choices : SentryChoices}
    {s j : JaegerState} (hsends : s.sender.sends = false)
    (h : senderStep lib cfg nowMs posted choices s = some j) :
    j.delivery.jaeger = s.delivery.jaeger ∧ j.delivery.sentry = s.delivery.sentry ∧
      ∀ batch now retries, j.sender = .attempting batch now retries →
        batch ≠ [] ∧ now = nowMs ∧ s.delivery.jaeger.cooldownUntilSteadyMs ≤ nowMs := by
  unfold senderStep at h
  cases hsender : s.sender with
  | loopHead =>
    rw [hsender] at h
    obtain rfl := Option.some.inj h
    refine ⟨rfl, rfl, fun batch now retries hloop => ?_⟩
    simp only at hloop
    split at hloop <;> cases hloop
  | waiting =>
    rw [hsender] at h
    simp only at h
    split at h
    all_goals
      obtain rfl := Option.some.inj h
      exact ⟨rfl, rfl, fun _ _ _ hloop => by cases hloop⟩
  | batchTaken batch =>
    rw [hsender] at h
    simp only at h
    split at h
    · obtain rfl := Option.some.inj h
      exact ⟨rfl, rfl, fun _ _ _ hloop => by cases hloop⟩
    · next hbatch =>
      split at h
      · obtain rfl := Option.some.inj h
        exact ⟨rfl, rfl, fun _ _ _ hloop => by cases hloop⟩
      · next hover =>
        obtain rfl := Option.some.inj h
        refine ⟨rfl, rfl, fun _ _ _ hloop => ?_⟩
        obtain ⟨rfl, rfl, -⟩ := SenderPoint.attempting.inj hloop
        exact ⟨fun hnil => hbatch (List.isEmpty_iff.mpr hnil), rfl, Nat.not_lt.mp hover⟩
  | countDropped final reason batch =>
    rw [hsender] at h
    obtain rfl := Option.some.inj h
    refine ⟨?_, ?_, fun _ _ _ hloop => by cases hloop⟩
    · cases reason <;> rfl
    · cases reason <;> rfl
  | draining =>
    rw [hsender] at h
    obtain rfl := Option.some.inj h
    refine ⟨rfl, rfl, fun batch now retries hloop => ?_⟩
    simp only at hloop
    split at hloop <;> cases hloop
  | countSent final batch =>
    rw [hsender] at h
    obtain rfl := Option.some.inj h
    exact ⟨rfl, rfl, fun _ _ _ hloop => by cases hloop⟩
  | countFailed final reason batch =>
    rw [hsender] at h
    obtain rfl := Option.some.inj h
    exact ⟨rfl, rfl, fun _ _ _ hloop => by cases hloop⟩
  | processed batch =>
    rw [hsender] at h
    obtain rfl := Option.some.inj h
    exact ⟨rfl, rfl, fun _ _ _ hloop => by cases hloop⟩
  | finished =>
    rw [hsender] at h
    cases h
  | attempting batch now retries => rw [hsender] at hsends; cases hsends
  | sentry final batch => rw [hsender] at hsends; cases hsends
  | flushing batch => rw [hsender] at hsends; cases hsends

/-- Of a batch with spans `send_batch` says whether the POST returned. -/
theorem eq_posted_of_sendBatch {posted sent : Bool} {batch : List SpanData} (hbatch : batch ≠ [])
    (h : sendBatch lib posted batch = some sent) : sent = posted := by
  unfold sendBatch at h
  split at h
  · next hnil => exact absurd (List.isEmpty_iff.mp hnil) hbatch
  · obtain ⟨spans, -, h⟩ := Option.bind_eq_some_iff.mp h
    obtain ⟨payload, -, h⟩ := Option.bind_eq_some_iff.mp h
    exact (Option.some.inj h).symm

namespace ShedInv

variable {s : TimedState} {j : JaegerState} {now batches : ℕ}

/-- A step that leaves the breakers and the log alone. -/
theorem still (h : ShedInv cfg s) (hclock : s.clock ≤ now)
    (hjaeger : j.delivery.jaeger = s.jaeger.delivery.jaeger)
    (hsentry : j.delivery.sentry = s.jaeger.delivery.sentry)
    (hattempts : ∀ batch began retries, j.sender = .attempting batch began retries →
      batch ≠ [] ∧ Attempts cfg { jaeger := j, clock := now, batches, log := s.log } began) :
    ShedInv cfg { jaeger := j, clock := now, batches, log := s.log } where
  log := by
    have hbreaker : j.delivery.breaker = s.jaeger.delivery.breaker := by
      funext sink
      cases sink with
      | jaeger => exact hjaeger
      | sentry => exact hsentry
    show LogInv j.delivery.breaker now s.log
    rw [hbreaker]
    exact h.log.later hclock
  attempts := hattempts

/-- A call, a push or a stop request. -/
theorem beside (h : ShedInv cfg s) (hclock : s.clock ≤ now)
    (hjaeger : j.delivery.jaeger = s.jaeger.delivery.jaeger)
    (hsentry : j.delivery.sentry = s.jaeger.delivery.sentry)
    (hsender : j.sender = s.jaeger.sender) :
    ShedInv cfg { jaeger := j, clock := now, batches := s.batches, log := s.log } := by
  refine h.still hclock hjaeger hsentry fun batch began retries hloop => ?_
  obtain ⟨hbatch, hnow, hcooldown, hearlier⟩ := h.attempts batch began retries (hsender ▸ hloop)
  refine ⟨hbatch, hnow.trans hclock, ?_, hearlier⟩
  rw [hjaeger]
  exact hcooldown

/-- The sender goes on at a point without a POST. -/
theorem quiet (h : ShedInv cfg s) {nowMs : ℕ} {posted : Bool} {choices : SentryChoices}
    (hsends : s.jaeger.sender.sends = false)
    (hj : senderStep lib cfg nowMs posted choices s.jaeger = some j) (hclock : s.clock ≤ nowMs)
    (hnow : nowMs ≤ now) :
    ShedInv cfg { jaeger := j, clock := now, batches, log := s.log } := by
  obtain ⟨hjaeger, hsentry, hloop⟩ := senderStep_of_not_sends hsends hj
  refine h.still (hclock.trans hnow) hjaeger hsentry fun batch began retries hattempting => ?_
  obtain ⟨hbatch, rfl, hover⟩ := hloop batch began retries hattempting
  refine ⟨hbatch, hnow, ?_, ?_⟩
  · rw [hjaeger]
    exact hover.trans (Nat.le_add_right _ _)
  · rintro untilMs ⟨setBy, hmem, -⟩
    have hbounded : untilMs ≤ max s.jaeger.delivery.jaeger.cooldownUntilSteadyMs s.clock :=
      h.log.bounded .jaeger setBy untilMs hmem
    omega

variable {nowMs : ℕ} {posted connected : Bool} {choices : SentryChoices}

/-- An attempt that succeeds. -/
theorem attempt_ok (h : ShedInv cfg s) {batch : List SpanData} {began retries : ℕ}
    (hsender : s.jaeger.sender = .attempting batch began retries)
    (hgoes : retries < tracingMaxRetries ∧ s.jaeger.stopRequested = false)
    (hclock : s.clock ≤ now)
    (hshed : ∀ untilMs, InTheWay .jaeger s.batches s.log untilMs → untilMs ≤ now) :
    ShedInv cfg (afterStep lib cfg s ⟨.sender nowMs true choices, now, true⟩
      { s.jaeger with
        delivery := { s.jaeger.delivery with jaeger := {} }
        sender := .countSent false batch }) where
  log := by
    have hlog : postsOf lib cfg s ⟨.sender nowMs true choices, now, true⟩ =
        [.posted .jaeger s.batches now true] := by
      unfold postsOf
      simp only [hsender, if_pos hgoes, if_true]
    simp only [afterStep, failuresOf_cleared, failuresOf_self, hlog]
    refine h.log.succeeded hclock hshed rfl fun other hother => ?_
    cases other with
    | jaeger => exact absurd rfl hother
    | sentry => rfl
  attempts := fun _ _ _ hloop => by cases hloop

/-- An attempt that fails. -/
theorem attempt_failed (h : ShedInv cfg s) {batch : List SpanData} {began retries : ℕ}
    (hsender : s.jaeger.sender = .attempting batch began retries)
    (hgoes : retries < tracingMaxRetries ∧ s.jaeger.stopRequested = false)
    (hclock : s.clock ≤ now) :
    ShedInv cfg (afterStep lib cfg s ⟨.sender nowMs false choices, now, connected⟩
      { s.jaeger with
        delivery := { s.jaeger.delivery with
          jaeger := recordSinkFailure cfg.settings s.jaeger.delivery.jaeger began }
        sender := .attempting batch began (retries + 1) }) := by
  obtain ⟨hbatch, hbegan, hcooldown, hearlier⟩ := h.attempts batch began retries hsender
  obtain ⟨setTo, hfailed, hset⟩ :=
    failuresOf_recordSinkFailure cfg .jaeger s.batches s.jaeger.delivery.jaeger began
  obtain ⟨hcount, hafter⟩ :=
    recordSinkFailure_cooldown cfg.settings s.jaeger.delivery.jaeger began
  have hmono := cooldownMs_mono cfg.settings
    (Nat.le_add_right s.jaeger.delivery.jaeger.consecutiveFailures 1)
  have hposts : LogInv s.jaeger.delivery.breaker now
        (postsOf lib cfg s ⟨.sender nowMs false choices, now, connected⟩ ++ s.log) ∧
      ∀ setBy untilMs, .failed .jaeger setBy (some untilMs) ∈ standing .jaeger
          (postsOf lib cfg s ⟨.sender nowMs false choices, now, connected⟩ ++ s.log) →
        .failed .jaeger setBy (some untilMs) ∈ standing .jaeger s.log := by
    unfold postsOf
    simp only [hsender, if_pos hgoes]
    split
    · refine ⟨(h.log.later hclock).posted fun untilMs hway => ?_, fun setBy untilMs hmem => ?_⟩
      · exact (hearlier untilMs hway).trans (hbegan.trans hclock)
      · exact mem_of_mem_standing_cons SinkEntry.noConfusion hmem
    · exact ⟨h.log.later hclock, fun _ _ hmem => hmem⟩
  constructor
  case log =>
    simp only [afterStep, hfailed, failuresOf_self]
    refine hposts.1.failed ?_ hset fun other hother => ?_
    · simp only [DeliveryState.breaker]
      omega
    · cases other with
      | jaeger => exact absurd rfl hother
      | sentry => rfl
  case attempts =>
    intro batch' began' retries' hloop
    obtain ⟨rfl, rfl, -⟩ := SenderPoint.attempting.inj hloop
    refine ⟨hbatch, hbegan.trans hclock, ?_, ?_⟩
    · simp only [afterStep]
      rw [hcount]
      omega
    · rintro untilMs ⟨setBy, hmem, hlt⟩
      have hearlierBatch : setBy < s.batches := by
        simpa [afterStep, batchesOf, hsender] using hlt
      simp only [afterStep, hfailed, failuresOf_self] at hmem
      refine hearlier untilMs ⟨setBy, hposts.2 setBy untilMs ?_, fun _ => hearlierBatch⟩
      refine mem_of_mem_standing_cons (fun heq => ?_) hmem
      obtain ⟨-, rfl, -⟩ := SinkEntry.failed.inj heq
      exact Nat.lt_irrefl _ hearlierBatch

/-- A step at the retry loop. -/
theorem attempt (h : ShedInv cfg s) {batch : List SpanData} {began retries : ℕ}
    (hsender : s.jaeger.sender = .attempting batch began retries)
    (hj : senderStep lib cfg nowMs posted choices s.jaeger = some j) (hclock : s.clock ≤ now)
    (hconnected : posted = true → connected = true) :
    ShedInv cfg (afterStep lib cfg s ⟨.sender nowMs posted choices, now, connected⟩ j) := by
  obtain ⟨hbatch, hbegan, -, hearlier⟩ := h.attempts batch began retries hsender
  unfold senderStep at hj
  simp only [hsender] at hj
  split at hj
  · next hgoes =>
    split at hj
    · cases hj
    · next hsent =>
      obtain rfl := Option.some.inj hj
      obtain rfl := eq_posted_of_sendBatch hbatch hsent
      rw [hconnected rfl]
      exact h.attempt_ok hsender hgoes hclock fun untilMs hway =>
        (hearlier untilMs hway).trans (hbegan.trans hclock)
    · next hlost =>
      obtain rfl := Option.some.inj hj
      obtain rfl := eq_posted_of_sendBatch hbatch hlost
      exact h.attempt_failed hsender hgoes hclock
  · next hends =>
    obtain rfl := Option.some.inj hj
    have hposts : postsOf lib cfg s ⟨.sender nowMs posted choices, now, connected⟩ = [] := by
      unfold postsOf
      simp only [hsender, if_neg hends, ite_self]
    simp only [afterStep, failuresOf_self, hposts, List.nil_append]
    exact h.still hclock rfl rfl fun _ _ _ hloop => by cases hloop

/-- A step of the flush. -/
theorem flush (h : ShedInv cfg s) {batch : List SpanData}
    (hsender : s.jaeger.sender = .flushing batch)
    (hj : senderStep lib cfg nowMs posted choices s.jaeger = some j) (hclock : s.clock ≤ now) :
    ShedInv cfg (afterStep lib cfg s ⟨.sender nowMs posted choices, now, connected⟩ j) := by
  have hdelivery : j.delivery = s.jaeger.delivery ∧
      ∀ batch began retries, j.sender ≠ .attempting batch began retries := by
    unfold senderStep at hj
    simp only [hsender] at hj
    split at hj
    · cases hj
    all_goals
      obtain rfl := Option.some.inj hj
      exact ⟨rfl, fun _ _ _ hloop => by cases hloop⟩
  constructor
  case log =>
    simp only [afterStep, hdelivery.1, failuresOf_self, List.nil_append]
    unfold postsOf
    simp only [hsender]
    split
    · exact (h.log.later hclock).flushed now posted
    · exact h.log.later hclock
  case attempts =>
    exact fun batch' began retries hloop => absurd hloop (hdelivery.2 batch' began retries)

/-- A step of the Sentry delivery. -/
theorem sentry (h : ShedInv cfg s) {final : Bool} {batch : List SpanData}
    (hsender : s.jaeger.sender = .sentry final batch)
    (hj : senderStep lib cfg nowMs posted choices s.jaeger = some j)
    (hclock : s.clock ≤ choices.nowSteadyMs) (hnow : choices.nowSteadyMs ≤ now)
    (hconnected : choices.posted = true → connected = true) :
    ShedInv cfg (afterStep lib cfg s ⟨.sender nowMs posted choices, now, connected⟩ j) := by
  unfold senderStep at hj
  simp only [hsender] at hj
  obtain ⟨d, hd, rfl⟩ := Option.map_eq_some_iff.mp hj
  obtain ⟨hjaeger, hsentry⟩ := deliverSentryTransactions_breaker hd
  constructor
  case attempts =>
    intro batch' began retries hloop
    simp only [afterStep] at hloop
    split at hloop <;> cases hloop
  case log =>
    simp only [afterStep, hjaeger, failuresOf_self, List.nil_append]
    have hlater := h.log.later (hclock.trans hnow)
    have hothers : ∀ other, Sink.sentry ≠ other →
        d.breaker other = s.jaeger.delivery.breaker other := by
      intro other hother
      cases other with
      | jaeger => exact hjaeger
      | sentry => exact absurd rfl hother
    rcases hsentry with ⟨hskips, hsame⟩ | ⟨hsends, hover, hresult⟩
    · have hposts : postsOf lib cfg s ⟨.sender nowMs posted choices, now, connected⟩ = [] := by
        unfold postsOf
        simp only [hsender, hskips, Bool.false_eq_true, if_false, ite_self]
      have hbreaker : d.breaker = s.jaeger.delivery.breaker := by
        funext sink
        cases sink with
        | jaeger => exact hjaeger
        | sentry => exact hsame
      rw [hposts, hsame, failuresOf_self, hbreaker]
      exact hlater
    · have hshed : ∀ untilMs, InTheWay .sentry s.batches s.log untilMs → untilMs ≤ now := by
        rintro untilMs ⟨setBy, hmem, -⟩
        have hbounded : untilMs ≤ max s.jaeger.delivery.sentry.cooldownUntilSteadyMs s.clock :=
          h.log.bounded .sentry setBy untilMs hmem
        omega
      have hposts : postsOf lib cfg s ⟨.sender nowMs posted choices, now, connected⟩ =
          if connected then [.posted .sentry s.batches now choices.posted] else [] := by
        unfold postsOf
        simp only [hsender, hsends, if_true]
      rw [hposts]
      cases hok : choices.posted with
      | true =>
        rw [hok, if_pos rfl] at hresult
        rw [hconnected hok, hresult, failuresOf_cleared]
        exact h.log.succeeded (hclock.trans hnow) hshed hresult hothers
      | false =>
        rw [hok, if_neg Bool.false_ne_true] at hresult
        obtain ⟨setTo, hfailed, hset⟩ := failuresOf_recordSinkFailure cfg .sentry
          s.batches s.jaeger.delivery.sentry choices.nowSteadyMs
        rw [hresult, hfailed]
        have hposted : LogInv s.jaeger.delivery.breaker now
            ((if connected then [.posted .sentry s.batches now false] else []) ++ s.log) := by
          split
          · exact hlater.posted hshed
          · exact hlater
        refine hposted.failed ?_ (fun untilMs huntil => ?_) hothers
        · simp only [DeliveryState.breaker]
          omega
        · simp only [DeliveryState.breaker, hresult]
          exact hset untilMs huntil

/-- A step of the sender thread. -/
theorem sender (h : ShedInv cfg s) (htimely : timely s.clock
      ⟨.sender nowMs posted choices, now, connected⟩ = true)
    (hj : senderStep lib cfg nowMs posted choices s.jaeger = some j) :
    ShedInv cfg (afterStep lib cfg s ⟨.sender nowMs posted choices, now, connected⟩ j) := by
  unfold timely at htimely
  simp only [Bool.and_eq_true, decide_eq_true_eq] at htimely
  obtain ⟨hclock, ⟨⟨⟨hread, hnow⟩, hreadSentry⟩, hnowSentry⟩, hclient⟩ := htimely
  cases hsends : s.jaeger.sender.sends with
  | false =>
    obtain ⟨hjaeger, hsentry, -⟩ := senderStep_of_not_sends hsends hj
    simp only [afterStep, hjaeger, hsentry, failuresOf_self, postsOf_eq_nil hsends,
      List.nil_append]
    exact h.quiet hsends hj hread hnow
  | true =>
    cases hsender : s.jaeger.sender with
    | attempting batch began retries =>
      refine h.attempt hsender hj hclock fun hposted => ?_
      simpa [hposted] using hclient
    | flushing batch => exact h.flush hsender hj hclock
    | sentry final batch =>
      refine h.sentry hsender hj hreadSentry hnowSentry fun hposted => ?_
      simpa [hposted] using hclient
    | _ => rw [hsender] at hsends; cases hsends

/-- A step beside the sender thread. -/
theorem other {event : JaegerEvent} (h : ShedInv cfg s) (hclock : s.clock ≤ now)
    (hevent : ∀ nowMs posted choices, event ≠ .sender nowMs posted choices)
    (hj : jaegerStep lib cfg s.jaeger event = some j) :
    ShedInv cfg (afterStep lib cfg s ⟨event, now, connected⟩ j) := by
  have hsame : j.delivery.jaeger = s.jaeger.delivery.jaeger ∧
      j.delivery.sentry = s.jaeger.delivery.sentry ∧ j.sender = s.jaeger.sender := by
    cases event with
    | sender nowMs posted choices => exact absurd rfl (hevent nowMs posted choices)
    | call span =>
      obtain rfl := Option.some.inj hj
      exact ⟨rfl, rfl, rfl⟩
    | requestStop =>
      obtain rfl := Option.some.inj hj
      exact ⟨rfl, rfl, rfl⟩
    | _ =>
      simp only [jaegerStep] at hj
      split at hj
      · obtain rfl := Option.some.inj hj
        exact ⟨rfl, rfl, rfl⟩
      · cases hj
  have hnone : postsOf lib cfg s ⟨event, now, connected⟩ = [] ∧ batchesOf s event = s.batches := by
    cases event with
    | sender nowMs posted choices => exact absurd rfl (hevent nowMs posted choices)
    | _ => exact ⟨rfl, rfl⟩
  simp only [afterStep, hsame.1, hsame.2.1, failuresOf_self, hnone.1, hnone.2, List.nil_append]
  exact h.beside hclock hsame.1 hsame.2.1 hsame.2.2

theorem step {s' : TimedState} {e : TimedEvent} (h : ShedInv cfg s)
    (hs' : timedStep lib cfg s e = some s') : ShedInv cfg s' := by
  unfold timedStep at hs'
  split at hs'
  case isFalse => cases hs'
  case isTrue htimely =>
    obtain ⟨j, hj, rfl⟩ := Option.map_eq_some_iff.mp hs'
    obtain ⟨event, now, connected⟩ := e
    cases event with
    | sender nowMs posted choices => exact h.sender htimely hj
    | _ =>
      refine h.other ?_ (fun _ _ _ heq => by cases heq) hj
      unfold timely at htimely
      exact of_decide_eq_true (Bool.and_eq_true_iff.mp htimely).1

end ShedInv

/-- Whatever the calls, the outcomes and the times: no POST to Sentry is started within a
cooldown of its breaker; no POST to Jaeger is started for a batch within a cooldown that an
earlier batch has set, unless the breaker was closed in between; and a POST of a batch that
succeeds clears the breaker of its sink. -/
theorem breaker_sheds (lib : JsonLibrary) (cfg : DeliveryConfig) (es : List TimedEvent) :
    Always (timedStep lib cfg) BreakerSheds initialTimed es :=
  always_of_step (fun _ _ _ h hs' => ShedInv.step h hs')
    (fun _ h => ⟨h.log.sheds, h.log.cleared⟩) (shedInv_initial cfg) es

def pingSpan : SpanData where
  traceId := ascii "t"
  spanId := ascii "s"
  parentId := []
  name := ascii "GET /ping"
  serviceName := ascii "proxy"
  startUs := 0
  endUs := 0
  enqueueTimeUs := 0
  attributes := .empty

/-- A step of the sender whose POST fails. -/
def failingAt (now : ℕ) : TimedEvent where
  event := .sender now false { steadyChoices.sentry with nowSteadyMs := now, posted := false }
  now := now
  connected := true

/-- The `i`-th call is made and its span is queued. -/
def spanAt (now i : ℕ) : List TimedEvent :=
  [⟨.call pingSpan, now, true⟩, ⟨.push i, now, true⟩]

/-- A batch that fails three times, the next one four seconds later, and a shutdown behind
it. -/
def outage : List TimedEvent :=
  spanAt 0 0 ++ [0, 0, 0, 0, 100, 300, 300, 300, 300, 300, 300].map failingAt ++
    spanAt 300 1 ++
    [300, 300, 4000, 4000, 4100, 4300, 4300, 4300, 4300, 4300, 4300].map failingAt ++
    spanAt 4300 2 ++ [⟨.requestStop, 4300, true⟩] ++ [4300, 4300, 4400].map failingAt

/-- With the default settings: the first failure of the second batch sets a cooldown until
12000, and the batch is posted again at 4100 and at 4300; the last of these failures sets a
cooldown until 34000, and the shutdown posts at 4400. -/
theorem posts_within_cooldown :
    (run (timedStep scalarLibraries.json jaegerOnly) initialTimed outage).map
        (fun s => s.log.take 7) =
      some
        [.flushed 4400 false,
          .failed .jaeger 2 (some 34000), .posted .jaeger 2 4300 false,
          .failed .jaeger 2 (some 20000), .posted .jaeger 2 4100 false,
          .failed .jaeger 2 (some 12000), .posted .jaeger 2 4000 false] := by
  decide +kernel

end Tracing
end HttpDataDiod
