import HttpDataDiod.Tracing.BreakerShedding
import Mathlib.Algebra.GroupWithZero.Nat

/-!
# Delivered and accepted

`send_batch` and `deliver_sentry_transactions` take a POST as delivered when
`post_no_response` returns.  It throws when the transport fails and returns otherwise: the
status of the answer is stored and not looked at.  `SentryClient::send_envelope`, which
posts the events of the same program to the same kind of collector, takes an answer as a
delivery when its status is a 2xx.

Here the steps of the tracer carry the answer of the collector, and a log keeps every
attempt with its answer.

* `CollectorAnswer`, `returns`, `accepted`: what `post_no_response` and `send_envelope`
  make of an answer.
* `answeredStep`: the steps of `jaegerStep`, with answers.
* `DeliveredMeansAccepted`: the counters and the breakers are those of the accepted
  attempts.
* `deliveredMeansAccepted_iff`: in a run they are so exactly when every answer with a
  status was a 2xx.
-/

namespace HttpDataDiod
namespace Tracing

open Transition Proxy ByteText

/-! ## The answers -/

/-- What comes back for a POST: an exception of the pool or of the transport, or an answer
with a status. -/
inductive CollectorAnswer where
  | transportError
  | status (code : ℕ)
  deriving DecidableEq

/-- `post_no_response` returns. -/
def CollectorAnswer.returns : CollectorAnswer → Bool
  | .transportError => false
  | .status _ => true

def kSuccessMin : ℕ := 200
def kSuccessMax : ℕ := 300

/-- The criterion of `SentryClient::send_envelope`. -/
def CollectorAnswer.accepted : CollectorAnswer → Bool
  | .transportError => false
  | .status code => kSuccessMin ≤ code && code < kSuccessMax

/-- An attempt to deliver: the sink, the spans or transactions in it, the time from which a
cooldown would be counted, whether it is one of the retry loop or of the Sentry delivery,
which tell the breaker, or the one of a shutdown, which does not, and the answer. -/
structure Attempt where
  sink : Sink
  items : ℕ
  sampledAt : ℕ
  tellsBreaker : Bool
  answer : CollectorAnswer
  deriving DecidableEq

/-- The tracer, with its attempts, the newest first. -/
structure AnsweredState where
  jaeger : JaegerState
  log : List Attempt

/-- A step, with the answer to the POST that it makes. -/
structure AnsweredEvent where
  event : JaegerEvent
  answer : CollectorAnswer

/-- The step as the tracer sees it: of the answer it learns whether the POST returned. -/
def AnsweredEvent.seen (e : AnsweredEvent) : JaegerEvent :=
  match e.event with
  | .sender nowMs _ choices =>
    .sender nowMs e.answer.returns { choices with posted := e.answer.returns }
  | event => event

/-- Before the first span. -/
def initialAnswered : AnsweredState where
  jaeger := initialJaeger
  log := []

variable (lib : JsonLibrary) (cfg : DeliveryConfig)

/-- The number of transactions that are sampled from a batch. -/
def transactionCount (choices : SentryChoices) (batch : List SpanData) : ℕ :=
  ((sampledTransactions lib cfg.sentry choices 0 batch).getD []).length

/-- The attempt that the sender makes at a point. -/
def attemptAt (s : JaegerState) (nowMs : ℕ) (choices : SentryChoices) (answer : CollectorAnswer) :
    List Attempt :=
  match s.sender with
  | .attempting batch now retries =>
    if retries < tracingMaxRetries ∧ s.stopRequested = false then
      [⟨.jaeger, batch.length, now, true, answer⟩]
    else []
  | .flushing batch => [⟨.jaeger, batch.length, nowMs, false, answer⟩]
  | .sentry _ batch =>
    if sentrySends lib cfg choices batch s.delivery then
      [⟨.sentry, transactionCount lib cfg choices batch, choices.nowSteadyMs, true, answer⟩]
    else []
  | _ => []

/-- The attempt of a step. -/
def attemptOf (s : JaegerState) (e : AnsweredEvent) : List Attempt :=
  match e.seen with
  | .sender nowMs _ choices => attemptAt lib cfg s nowMs choices e.answer
  | _ => []

/-- One step of the tracer. -/
def answeredStep (s : AnsweredState) (e : AnsweredEvent) : Option AnsweredState :=
  (jaegerStep lib cfg s.jaeger e.seen).map fun j =>
    { jaeger := j, log := attemptOf lib cfg s.jaeger e ++ s.log }

/-! ## What the counters should say -/

/-- What was delivered to a sink, by a criterion on the answers. -/
def delivered (counts : CollectorAnswer → Bool) (sink : Sink) (log : List Attempt) : ℕ :=
  (log.map fun a => if a.sink = sink ∧ counts a.answer = true then a.items else 0).sum

/-- The breaker of a sink, by a criterion on the answers: an attempt that counts as
delivered clears it, any other one is recorded as a failure. -/
def breakerBy (counts : CollectorAnswer → Bool) (settings : TracingBreakerSettings) (sink : Sink) :
    List Attempt → ExponentialBreaker
  | [] => {}
  | a :: older =>
    if a.sink = sink ∧ a.tellsBreaker = true then
      if counts a.answer then {}
      else recordSinkFailure settings (breakerBy counts settings sink older) a.sampledAt
    else breakerBy counts settings sink older

/-- The spans of a batch that is about to be counted as sent. -/
def SenderPoint.aboutToCount : SenderPoint → ℕ
  | .countSent _ batch => batch.length
  | _ => 0

/-- **Delivered means accepted**: the spans and transactions counted as sent, or about to
be, are those of the attempts that the collector answered with a 2xx, and the breakers have
taken these, and no others, as deliveries. -/
structure DeliveredMeansAccepted (settings : TracingBreakerSettings) (s : AnsweredState) :
    Prop where
  spans : s.jaeger.delivery.spansSent + s.jaeger.sender.aboutToCount =
    delivered CollectorAnswer.accepted .jaeger s.log
  transactions : s.jaeger.delivery.sentrySpansSent =
    delivered CollectorAnswer.accepted .sentry s.log
  breaker : ∀ sink, s.jaeger.delivery.breaker sink =
    breakerBy CollectorAnswer.accepted settings sink s.log

/-! ## What they do say -/

/-- The batch that the sender is about to post. -/
def SenderPoint.toPost : SenderPoint → Option (List SpanData)
  | .attempting batch _ _ => some batch
  | .flushing batch => some batch
  | _ => none

/-- In every state the counters and the breakers are those of the attempts whose POST
returned, and no attempt is about nothing. -/
structure ReturnedInv (settings : TracingBreakerSettings) (s : AnsweredState) : Prop where
  spans : s.jaeger.delivery.spansSent + s.jaeger.sender.aboutToCount =
    delivered CollectorAnswer.returns .jaeger s.log
  transactions : s.jaeger.delivery.sentrySpansSent =
    delivered CollectorAnswer.returns .sentry s.log
  breaker : ∀ sink, s.jaeger.delivery.breaker sink =
    breakerBy CollectorAnswer.returns settings sink s.log
  items_pos : ∀ a ∈ s.log, 0 < a.items
  toPost_ne_nil : ∀ batch, s.jaeger.sender.toPost = some batch → batch ≠ []

theorem returnedInv_initial (settings : TracingBreakerSettings) :
    ReturnedInv settings initialAnswered where
  spans := rfl
  transactions := rfl
  breaker := fun sink => by cases sink <;> rfl
  items_pos := fun a h => absurd h List.not_mem_nil
  toPost_ne_nil := fun _ h => by cases h

variable {lib cfg}

theorem delivered_cons (counts : CollectorAnswer → Bool) (sink : Sink) (a : Attempt)
    (log : List Attempt) :
    delivered counts sink (a :: log) =
      (if a.sink = sink ∧ counts a.answer = true then a.items else 0) +
        delivered counts sink log := by
  rw [delivered, delivered, List.map_cons, List.sum_cons]

/-- `deliver_sentry_transactions` comes to its POST when Sentry is configured, the breaker lets
it, and some transactions are sampled. -/
theorem sentrySends_iff {choices : SentryChoices} {batch : List SpanData} {d : DeliveryState} :
    sentrySends lib cfg choices batch d = true ↔
      (cfg.sentry.enabled = true ∧ batch.isEmpty = false) ∧
        ¬ (d.sentry.cooldownUntilSteadyMs ≠ 0 ∧
          choices.nowSteadyMs < d.sentry.cooldownUntilSteadyMs) ∧
        0 < transactionCount lib cfg choices batch := by
  have hany : ((sampledTransactions lib cfg.sentry choices 0 batch).any fun es => !es.isEmpty) =
      decide (0 < transactionCount lib cfg choices batch) := by
    unfold transactionCount
    cases sampledTransactions lib cfg.sentry choices 0 batch with
    | none => rfl
    | some events => cases events <;> rfl
  rw [sentrySends, hany]
  simp only [Bool.and_eq_true, Bool.not_eq_true', decide_eq_true_eq, decide_eq_false_iff_not,
    and_assoc]

/-- The transactions that the Sentry delivery counts as sent. -/
theorem deliverSentryTransactions_sent {choices : SentryChoices} {batch : List SpanData}
    {d d' : DeliveryState} (h : deliverSentryTransactions lib cfg choices batch d = some d') :
    d'.sentrySpansSent = d.sentrySpansSent +
      if sentrySends lib cfg choices batch d = true ∧ choices.posted = true then
        transactionCount lib cfg choices batch else 0 := by
  unfold deliverSentryTransactions at h
  split at h
  · next hoff =>
    obtain rfl := Option.some.inj h
    have hskips : ¬ sentrySends lib cfg choices batch d = true := by
      intro hsends
      obtain ⟨⟨henabled, hbatch⟩, -⟩ := sentrySends_iff.mp hsends
      rw [henabled, hbatch] at hoff
      cases hoff
    rw [if_neg fun hboth => hskips hboth.1, Nat.add_zero]
  · next hon =>
    split at h
    · next hshed =>
      obtain rfl := Option.some.inj h
      rw [if_neg fun hboth => (sentrySends_iff.mp hboth.1).2.1 hshed, Nat.add_zero]
    · next hopen =>
      obtain ⟨events, hevents, h⟩ := Option.bind_eq_some_iff.mp h
      have hlength : transactionCount lib cfg choices batch = events.length := by
        rw [transactionCount, hevents, Option.getD_some]
      split at h
      · next hnil =>
        obtain rfl := Option.some.inj h
        rw [hlength, List.isEmpty_iff.mp hnil, List.length_nil, ite_self, Nat.add_zero]
      · next hsome =>
        have hsends : sentrySends lib cfg choices batch d = true := by
          refine sentrySends_iff.mpr ⟨by simpa [not_or] using hon, hopen, ?_⟩
          rw [hlength]
          exact List.length_pos_of_ne_nil fun hnil => hsome (List.isEmpty_iff.mpr hnil)
        obtain ⟨envelope, -, h⟩ := Option.bind_eq_some_iff.mp h
        split at h
        · next hposted =>
          obtain rfl := Option.some.inj h
          rw [if_pos ⟨hsends, hposted⟩, hlength]
        · next hlost =>
          obtain rfl := Option.some.inj h
          rw [if_neg fun hboth => hlost hboth.2, Nat.add_zero]

/-- At the points without a POST the sender leaves the sum of the counted spans and those about
to be counted as it is, and goes to a POST only with spans. -/
theorem senderStep_counts {nowMs : ℕ} {posted : Bool} {choices : SentryChoices}
    {s j : JaegerState} (hsends : s.sender.sends = false)
    (h : senderStep lib cfg nowMs posted choices s = some j) :
    j.delivery.spansSent + j.sender.aboutToCount =
        s.delivery.spansSent + s.sender.aboutToCount ∧
      j.delivery.sentrySpansSent = s.delivery.sentrySpansSent ∧
      ∀ batch, j.sender.toPost = some batch → batch ≠ [] := by
  unfold senderStep at h
  cases hsender : s.sender with
  | loopHead =>
    rw [hsender] at h
    obtain rfl := Option.some.inj h
    cases s.stopRequested with
    | true => exact ⟨rfl, rfl, fun _ hpost => by cases hpost⟩
    | false => exact ⟨rfl, rfl, fun _ hpost => by cases hpost⟩
  | waiting =>
    rw [hsender] at h
    simp only at h
    split at h
    all_goals
      obtain rfl := Option.some.inj h
      exact ⟨rfl, rfl, fun _ hpost => by cases hpost⟩
  | batchTaken batch =>
    rw [hsender] at h
    simp only at h
    split at h
    · obtain rfl := Option.some.inj h
      exact ⟨rfl, rfl, fun _ hpost => by cases hpost⟩
    · next hbatch =>
      split at h
      · obtain rfl := Option.some.inj h
        exact ⟨rfl, rfl, fun _ hpost => by cases hpost⟩
      · obtain rfl := Option.some.inj h
        refine ⟨rfl, rfl, fun _ hpost hnil => ?_⟩
        obtain rfl := Option.some.inj hpost
        exact hbatch (List.isEmpty_iff.mpr hnil)
  | countDropped final reason batch =>
    rw [hsender] at h
    obtain rfl := Option.some.inj h
    refine ⟨by rw [countSpanDrop_spansSent]; rfl, ?_, fun _ hpost => by cases hpost⟩
    cases reason <;> rfl
  | draining =>
    rw [hsender] at h
    obtain rfl := Option.some.inj h
    simp only
    split
    · exact ⟨rfl, trivial, fun _ hpost => by cases hpost⟩
    · next hqueue =>
      refine ⟨rfl, trivial, fun _ hpost hnil => ?_⟩
      obtain rfl := Option.some.inj hpost
      exact hqueue (List.isEmpty_iff.mpr hnil)
  | countSent final batch =>
    rw [hsender] at h
    obtain rfl := Option.some.inj h
    exact ⟨rfl, rfl, fun _ hpost => by cases hpost⟩
  | countFailed final reason batch =>
    rw [hsender] at h
    obtain rfl := Option.some.inj h
    exact ⟨rfl, rfl, fun _ hpost => by cases hpost⟩
  | processed batch =>
    rw [hsender] at h
    obtain rfl := Option.some.inj h
    exact ⟨rfl, rfl, fun _ hpost => by cases hpost⟩
  | finished =>
    rw [hsender] at h
    cases h
  | attempting batch now retries => rw [hsender] at hsends; cases hsends
  | sentry final batch => rw [hsender] at hsends; cases hsends
  | flushing batch => rw [hsender] at hsends; cases hsends

theorem attemptAt_eq_nil {s : JaegerState} (h : s.sender.sends = false) (nowMs : ℕ)
    (choices : SentryChoices) (answer : CollectorAnswer) :
    attemptAt lib cfg s nowMs choices answer = [] := by
  unfold attemptAt
  cases hsender : s.sender with
  | attempting batch now retries => rw [hsender] at h; cases h
  | sentry final batch => rw [hsender] at h; cases h
  | flushing batch => rw [hsender] at h; cases h
  | _ => rfl

namespace ReturnedInv

variable {settings : TracingBreakerSettings} {s : AnsweredState} {j : JaegerState}

/-- A step without an attempt. -/
theorem still (h : ReturnedInv settings s)
    (hspans : j.delivery.spansSent + j.sender.aboutToCount =
      s.jaeger.delivery.spansSent + s.jaeger.sender.aboutToCount)
    (htransactions : j.delivery.sentrySpansSent = s.jaeger.delivery.sentrySpansSent)
    (hbreaker : ∀ sink, j.delivery.breaker sink = s.jaeger.delivery.breaker sink)
    (htoPost : ∀ batch, j.sender.toPost = some batch → batch ≠ []) :
    ReturnedInv settings { jaeger := j, log := s.log } where
  spans := hspans.trans h.spans
  transactions := htransactions.trans h.transactions
  breaker := fun sink => (hbreaker sink).trans (h.breaker sink)
  items_pos := h.items_pos
  toPost_ne_nil := htoPost

/-- A step beside the sender thread. -/
theorem other (h : ReturnedInv settings s) {event : JaegerEvent}
    (hevent : ∀ nowMs posted choices, event ≠ .sender nowMs posted choices)
    (hj : jaegerStep lib cfg s.jaeger event = some j) :
    ReturnedInv settings { jaeger := j, log := s.log } := by
  have hsame : j.delivery.spansSent = s.jaeger.delivery.spansSent ∧
      j.delivery.sentrySpansSent = s.jaeger.delivery.sentrySpansSent ∧
      (∀ sink, j.delivery.breaker sink = s.jaeger.delivery.breaker sink) ∧
      j.sender = s.jaeger.sender := by
    cases event with
    | sender nowMs posted choices => exact absurd rfl (hevent nowMs posted choices)
    | call span =>
      obtain rfl := Option.some.inj hj
      exact ⟨rfl, rfl, fun _ => rfl, rfl⟩
    | requestStop =>
      obtain rfl := Option.some.inj hj
      exact ⟨rfl, rfl, fun _ => rfl, rfl⟩
    | _ =>
      simp only [jaegerStep] at hj
      split at hj
      · obtain rfl := Option.some.inj hj
        exact ⟨rfl, rfl, fun sink => by cases sink <;> rfl, rfl⟩
      · cases hj
  obtain ⟨hspans, htransactions, hbreaker, hsender⟩ := hsame
  refine h.still ?_ htransactions hbreaker ?_
  · rw [hspans, hsender]
  · rw [hsender]
    exact h.toPost_ne_nil

/-- A step with an attempt. -/
theorem attempted (h : ReturnedInv settings s) {a : Attempt} (hitems : 0 < a.items)
    (hspans : j.delivery.spansSent + j.sender.aboutToCount =
      (if a.sink = .jaeger ∧ a.answer.returns = true then a.items else 0) +
        (s.jaeger.delivery.spansSent + s.jaeger.sender.aboutToCount))
    (htransactions : j.delivery.sentrySpansSent =
      (if a.sink = .sentry ∧ a.answer.returns = true then a.items else 0) +
        s.jaeger.delivery.sentrySpansSent)
    (hbreaker : ∀ sink, j.delivery.breaker sink =
      if a.sink = sink ∧ a.tellsBreaker = true then
        if a.answer.returns then {}
        else recordSinkFailure settings (s.jaeger.delivery.breaker sink) a.sampledAt
      else s.jaeger.delivery.breaker sink)
    (htoPost : ∀ batch, j.sender.toPost = some batch → batch ≠ []) :
    ReturnedInv settings { jaeger := j, log := a :: s.log } where
  spans := by
    rw [delivered_cons, ← h.spans]
    exact hspans
  transactions := by
    rw [delivered_cons, ← h.transactions]
    exact htransactions
  breaker := fun sink => by
    rw [breakerBy, ← h.breaker sink]
    exact hbreaker sink
  items_pos := List.forall_mem_cons.mpr ⟨hitems, h.items_pos⟩
  toPost_ne_nil := htoPost

variable {nowMs : ℕ} {choices : SentryChoices} {answer : CollectorAnswer}

/-- An attempt of the retry loop. -/
theorem attempt (h : ReturnedInv cfg.settings s) {batch : List SpanData} {began retries : ℕ}
    (hsender : s.jaeger.sender = .attempting batch began retries)
    (hj : senderStep lib cfg nowMs answer.returns choices s.jaeger = some j) :
    ReturnedInv cfg.settings
      { jaeger := j, log := attemptAt lib cfg s.jaeger nowMs choices answer ++ s.log } := by
  have hbatch : batch ≠ [] := h.toPost_ne_nil batch (by rw [hsender]; rfl)
  unfold attemptAt
  unfold senderStep at hj
  simp only [hsender] at hj ⊢
  split at hj
  · next hgoes =>
    rw [if_pos hgoes, List.singleton_append]
    split at hj
    · cases hj
    · next hsent =>
      obtain rfl := Option.some.inj hj
      have hreturns : answer.returns = true := (eq_posted_of_sendBatch hbatch hsent).symm
      refine h.attempted (List.length_pos_of_ne_nil hbatch) ?_ ?_ (fun sink => ?_)
        fun _ hpost => by cases hpost
      · rw [if_pos ⟨rfl, hreturns⟩, hsender]
        exact Nat.add_comm _ _
      · rw [if_neg fun hboth => Sink.noConfusion hboth.1, Nat.zero_add]
      · cases sink with
        | jaeger => rw [if_pos ⟨rfl, rfl⟩, if_pos hreturns]; rfl
        | sentry => rw [if_neg fun hboth => Sink.noConfusion hboth.1]; rfl
    · next hlost =>
      obtain rfl := Option.some.inj hj
      have hreturns : ¬ answer.returns = true := by
        rw [← eq_posted_of_sendBatch hbatch hlost]
        exact Bool.false_ne_true
      refine h.attempted (List.length_pos_of_ne_nil hbatch) ?_ ?_ (fun sink => ?_)
        fun _ hpost => ?_
      · rw [if_neg fun hboth => hreturns hboth.2, Nat.zero_add, hsender]
        rfl
      · rw [if_neg fun hboth => Sink.noConfusion hboth.1, Nat.zero_add]
      · cases sink with
        | jaeger => rw [if_pos ⟨rfl, rfl⟩, if_neg hreturns]; rfl
        | sentry => rw [if_neg fun hboth => Sink.noConfusion hboth.1]; rfl
      · obtain rfl := Option.some.inj hpost
        exact hbatch
  · next hends =>
    obtain rfl := Option.some.inj hj
    rw [if_neg hends]
    exact h.still (by rw [hsender]; rfl) rfl (fun _ => rfl) fun _ hpost => by cases hpost

/-- The attempt of a shutdown. -/
theorem flush (h : ReturnedInv cfg.settings s) {batch : List SpanData}
    (hsender : s.jaeger.sender = .flushing batch)
    (hj : senderStep lib cfg nowMs answer.returns choices s.jaeger = some j) :
    ReturnedInv cfg.settings
      { jaeger := j, log := attemptAt lib cfg s.jaeger nowMs choices answer ++ s.log } := by
  have hbatch : batch ≠ [] := h.toPost_ne_nil batch (by rw [hsender]; rfl)
  unfold attemptAt
  unfold senderStep at hj
  simp only [hsender] at hj ⊢
  rw [List.singleton_append]
  have htransactions : s.jaeger.delivery.sentrySpansSent =
      (if Sink.jaeger = .sentry ∧ answer.returns = true then batch.length else 0) +
        s.jaeger.delivery.sentrySpansSent := by
    rw [if_neg fun hboth => Sink.noConfusion hboth.1, Nat.zero_add]
  split at hj
  · cases hj
  · next hsent =>
    obtain rfl := Option.some.inj hj
    refine h.attempted (List.length_pos_of_ne_nil hbatch) ?_ htransactions (fun sink => ?_)
      fun _ hpost => by cases hpost
    · rw [if_pos ⟨rfl, (eq_posted_of_sendBatch hbatch hsent).symm⟩, hsender]
      exact Nat.add_comm _ _
    · rw [if_neg fun hboth => Bool.noConfusion hboth.2]
  · next hlost =>
    obtain rfl := Option.some.inj hj
    refine h.attempted (List.length_pos_of_ne_nil hbatch) ?_ htransactions (fun sink => ?_)
      fun _ hpost => by cases hpost
    · rw [if_neg fun hboth => ?_, Nat.zero_add, hsender]
      · rfl
      · exact absurd (hboth.2.symm.trans (eq_posted_of_sendBatch hbatch hlost).symm) (by decide)
    · rw [if_neg fun hboth => Bool.noConfusion hboth.2]

/-- The Sentry delivery. -/
theorem sentry (h : ReturnedInv cfg.settings s) {final : Bool} {batch : List SpanData}
    (hsender : s.jaeger.sender = .sentry final batch) (hposted : choices.posted = answer.returns)
    (hj : senderStep lib cfg nowMs answer.returns choices s.jaeger = some j) :
    ReturnedInv cfg.settings
      { jaeger := j, log := attemptAt lib cfg s.jaeger nowMs choices answer ++ s.log } := by
  unfold attemptAt
  unfold senderStep at hj
  simp only [hsender] at hj ⊢
  obtain ⟨d, hd, rfl⟩ := Option.map_eq_some_iff.mp hj
  obtain ⟨hjaeger, hsentry⟩ := deliverSentryTransactions_breaker hd
  obtain ⟨hspans, -⟩ := deliverSentryTransactions_counters hd
  have hsent := deliverSentryTransactions_sent hd
  obtain ⟨hnone, htoPost⟩ :
      (if final then SenderPoint.finished else .processed batch).aboutToCount = 0 ∧
        ∀ batch', (if final then SenderPoint.finished else .processed batch).toPost =
          some batch' → batch' ≠ [] := by
    cases final with
    | true => exact ⟨rfl, fun _ hpost => by cases hpost⟩
    | false => exact ⟨rfl, fun _ hpost => by cases hpost⟩
  generalize (if final then SenderPoint.finished else .processed batch) = point at hnone htoPost ⊢
  rcases hsentry with ⟨hskips, hsame⟩ | ⟨hsends, -, hresult⟩
  · rw [hskips, if_neg Bool.false_ne_true]
    refine h.still ?_ ?_ (fun sink => ?_) htoPost
    · rw [hnone, hspans, hsender]
      rfl
    · rw [hskips, if_neg fun hboth => Bool.false_ne_true hboth.1, Nat.add_zero] at hsent
      exact hsent
    · cases sink with
      | jaeger => exact hjaeger
      | sentry => exact hsame
  · rw [hsends, if_pos rfl, List.singleton_append]
    refine h.attempted (sentrySends_iff.mp hsends).2.2 ?_ ?_ (fun sink => ?_) htoPost
    · rw [if_neg fun hboth => Sink.noConfusion hboth.1, Nat.zero_add, hnone, hspans, hsender]
      rfl
    · rw [hsends, hposted, Nat.add_comm] at hsent
      simpa using hsent
    · cases sink with
      | jaeger =>
        rw [if_neg fun hboth => Sink.noConfusion hboth.1]
        exact hjaeger
      | sentry =>
        rw [if_pos ⟨rfl, rfl⟩, ← hposted]
        exact hresult

/-- A step of the sender thread. -/
theorem sender (h : ReturnedInv cfg.settings s) (hposted : choices.posted = answer.returns)
    (hj : senderStep lib cfg nowMs answer.returns choices s.jaeger = some j) :
    ReturnedInv cfg.settings
      { jaeger := j, log := attemptAt lib cfg s.jaeger nowMs choices answer ++ s.log } := by
  cases hsends : s.jaeger.sender.sends with
  | false =>
    obtain ⟨hjaeger, hsentry, -⟩ := senderStep_of_not_sends hsends hj
    obtain ⟨hspans, htransactions, htoPost⟩ := senderStep_counts hsends hj
    rw [attemptAt_eq_nil hsends, List.nil_append]
    refine h.still hspans htransactions (fun sink => ?_) htoPost
    cases sink with
    | jaeger => exact hjaeger
    | sentry => exact hsentry
  | true =>
    cases hsender : s.jaeger.sender with
    | attempting batch began retries => exact h.attempt hsender hj
    | flushing batch => exact h.flush hsender hj
    | sentry final batch => exact h.sentry hsender hposted hj
    | _ => rw [hsender] at hsends; cases hsends

theorem step {s' : AnsweredState} {e : AnsweredEvent} (h : ReturnedInv cfg.settings s)
    (hs' : answeredStep lib cfg s e = some s') : ReturnedInv cfg.settings s' := by
  obtain ⟨j, hj, rfl⟩ := Option.map_eq_some_iff.mp hs'
  obtain ⟨event, answer⟩ := e
  cases event with
  | sender nowMs posted choices => exact h.sender rfl hj
  | _ => exact h.other (fun _ _ _ heq => by cases heq) hj

end ReturnedInv

/-! ## When they agree -/

theorem CollectorAnswer.returns_of_accepted {answer : CollectorAnswer}
    (h : answer.accepted = true) : answer.returns = true := by
  cases answer with
  | transportError => cases h
  | status code => rfl

section Criteria

variable {counts counts' : CollectorAnswer → Bool} {log : List Attempt}

theorem delivered_congr (h : ∀ a ∈ log, counts a.answer = counts' a.answer) (sink : Sink) :
    delivered counts sink log = delivered counts' sink log := by
  induction log with
  | nil => rfl
  | cons a older ih =>
    rw [List.forall_mem_cons] at h
    rw [delivered_cons, delivered_cons, h.1, ih h.2]

theorem breakerBy_congr (h : ∀ a ∈ log, counts a.answer = counts' a.answer)
    (settings : TracingBreakerSettings) (sink : Sink) :
    breakerBy counts settings sink log = breakerBy counts' settings sink log := by
  induction log with
  | nil => rfl
  | cons a older ih =>
    rw [List.forall_mem_cons] at h
    rw [breakerBy, breakerBy, h.1, ih h.2]

/-- A stricter criterion counts no more. -/
theorem delivered_mono (h : ∀ answer, counts answer = true → counts' answer = true) (sink : Sink)
    (log : List Attempt) : delivered counts sink log ≤ delivered counts' sink log := by
  induction log with
  | nil => exact le_rfl
  | cons a older ih =>
    rw [delivered_cons, delivered_cons]
    refine Nat.add_le_add ?_ ih
    split
    · next hcounts => rw [if_pos ⟨hcounts.1, h _ hcounts.2⟩]
    · exact Nat.zero_le _

/-- And as much only if it agrees on every attempt. -/
theorem counts_of_delivered_eq (h : ∀ answer, counts answer = true → counts' answer = true)
    (hitems : ∀ a ∈ log, 0 < a.items)
    (heq : ∀ sink, delivered counts' sink log = delivered counts sink log) :
    ∀ a ∈ log, counts' a.answer = true → counts a.answer = true := by
  induction log with
  | nil => exact List.forall_mem_nil _
  | cons a older ih =>
    rw [List.forall_mem_cons] at hitems ⊢
    simp only [delivered_cons] at heq
    constructor
    · intro hlax
      by_contra hstrict
      have hsum := heq a.sink
      have hle := delivered_mono h a.sink older
      have hpos := hitems.1
      rw [if_pos ⟨rfl, hlax⟩, if_neg fun hboth => hstrict hboth.2] at hsum
      omega
    · refine ih hitems.2 fun sink => ?_
      have hsum := heq sink
      have hle := delivered_mono h sink older
      have hhead : (if a.sink = sink ∧ counts a.answer = true then a.items else 0) ≤
          if a.sink = sink ∧ counts' a.answer = true then a.items else 0 := by
        split
        · next hcounts => rw [if_pos ⟨hcounts.1, h _ hcounts.2⟩]
        · exact Nat.zero_le _
      omega

end Criteria

/-- **When delivered means accepted**: in every state of a run, whatever the calls, the batches
and the answers, the counters and the breakers are those of the accepted attempts exactly when
every attempt that was answered was answered with a 2xx. -/
theorem deliveredMeansAccepted_iff (lib : JsonLibrary) (cfg : DeliveryConfig)
    (es : List AnsweredEvent) :
    Always (answeredStep lib cfg)
      (fun s => DeliveredMeansAccepted cfg.settings s ↔
        ∀ a ∈ s.log, a.answer.returns = true → a.answer.accepted = true)
      initialAnswered es := by
  refine always_of_step (fun _ _ _ h hs' => ReturnedInv.step h hs') (fun s h => ?_)
    (returnedInv_initial cfg.settings) es
  constructor
  · rintro ⟨hspans, htransactions, -⟩
    refine counts_of_delivered_eq (fun _ => CollectorAnswer.returns_of_accepted) h.items_pos
      fun sink => ?_
    cases sink with
    | jaeger => exact h.spans.symm.trans hspans
    | sentry => exact h.transactions.symm.trans htransactions
  · intro hanswers
    have hagree : ∀ a ∈ s.log, a.answer.returns = a.answer.accepted := fun a ha =>
      Bool.eq_iff_iff.mpr ⟨hanswers a ha, CollectorAnswer.returns_of_accepted⟩
    constructor
    case spans => rw [h.spans, delivered_congr hagree]
    case transactions => rw [h.transactions, delivered_congr hagree]
    case breaker =>
      intro sink
      rw [h.breaker sink, breakerBy_congr hagree]

/-- A step of the sender, and the answer to its POST if it makes one. -/
def answeredBy (answer : CollectorAnswer) : AnsweredEvent where
  event := .sender 0 false steadyChoices.sentry
  answer := answer

/-- A call whose span is queued, taken and posted, to a collector that answers with a 503, and
counted. -/
def unavailableCollector : List AnsweredEvent :=
  [⟨.call pingSpan, .transportError⟩, ⟨.push 0, .transportError⟩] ++
    List.replicate 5 (answeredBy (.status 503))

/-- **A refused batch is counted as sent.** -/
theorem unavailableCollector_counted :
    ¬ Always (answeredStep scalarLibraries.json jaegerOnly)
      (DeliveredMeansAccepted jaegerOnly.settings) initialAnswered unavailableCollector := by
  intro halways
  have hrun : (run (answeredStep scalarLibraries.json jaegerOnly) initialAnswered
      unavailableCollector).map (fun s => (s.jaeger.delivery.spansSent +
        s.jaeger.sender.aboutToCount, s.log)) =
      some (1, [⟨.jaeger, 1, 0, true, .status 503⟩]) := by
    decide +kernel
  obtain ⟨s, hs, hcounted⟩ := Option.map_eq_some_iff.mp hrun
  have haccepted := (always_iff.mp halways unavailableCollector [] s
    (List.append_nil _).symm hs).spans
  obtain ⟨hsent, hlog⟩ := Prod.mk.inj hcounted
  rw [hsent, hlog] at haccepted
  exact absurd haccepted (by decide)

end Tracing
end HttpDataDiod
