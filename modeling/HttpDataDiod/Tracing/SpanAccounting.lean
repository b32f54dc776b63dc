import HttpDataDiod.Tracing.SenderLoop
import HttpDataDiod.Tracing.SenderQueue

/-!
# Where the spans go

The threads that call `enqueue_span` and the sender thread share the queue, the counters
and the stop flag.  Here every access to one of these is a step of its own: a call that was
refused by the queue has still to count itself twice, and so has a batch that was lost.

* `senderStep`: the sender thread, from one access to the next.
* `jaegerStep`: the calls and the sender, in any order.
* `Ledger`: the balance in every state, with what is in hand or half counted.
* `spans_accounted`: the balance between batches.
-/

namespace HttpDataDiod
namespace Tracing

open Transition Proxy

/-! ## The counters -/

/-- `g_tracing_drop_reasons`. -/
inductive DropReason where
  | queueFull
  | breakerOpen
  | exportError
  | shutdownFlush

/-- `count_span_drop`. -/
def countSpanDrop (reason : DropReason) (count : ℕ) (d : DeliveryState) : DeliveryState :=
  match reason with
  | .queueFull => { d with droppedQueueFull := d.droppedQueueFull + count }
  | .breakerOpen => { d with droppedBreakerOpen := d.droppedBreakerOpen + count }
  | .exportError => { d with droppedExportError := d.droppedExportError + count }
  | .shutdownFlush => { d with droppedShutdownFlush := d.droppedShutdownFlush + count }

/-- The dropped spans, over all reasons. -/
def DeliveryState.spansDropped (d : DeliveryState) : ℕ :=
  d.droppedQueueFull + d.droppedBreakerOpen + d.droppedExportError + d.droppedShutdownFlush

/-! ## The threads -/

/-- A call of `enqueue_span`: it has still to push its span, it has been refused and counted
nothing yet, it has counted itself as failed, or it is through. -/
inductive EnqueueCall where
  | entered (span : SpanData)
  | refused
  | failed
  | returned

/-- The sender thread: where it is in `sender_loop` and what it has in hand.  The counters are
the same for a batch of the loop and for the final one. -/
inductive SenderPoint where
  | loopHead
  | waiting
  | batchTaken (batch : List SpanData)
  | attempting (batch : List SpanData) (nowMs retries : ℕ)
  | countSent (final : Bool) (batch : List SpanData)
  | countFailed (final : Bool) (reason : DropReason) (batch : List SpanData)
  | countDropped (final : Bool) (reason : DropReason) (batch : List SpanData)
  | sentry (final : Bool) (batch : List SpanData)
  | processed (batch : List SpanData)
  | draining
  | flushing (batch : List SpanData)
  | finished

/-- The calls, the queue, the stop flag, the sender and its counters. -/
structure JaegerState where
  calls : List EnqueueCall
  spanQueue : AsyncSenderQueue SpanData
  stopRequested : Bool
  sender : SenderPoint
  delivery : DeliveryState

/-- A step: a call begins, pushes its span or counts itself; a stop is requested; or the sender
goes on. -/
inductive JaegerEvent where
  | call (span : SpanData)
  | push (i : ℕ)
  | countFailed (i : ℕ)
  | countDropped (i : ℕ)
  | requestStop
  | sender (nowMs : ℕ) (posted : Bool) (sentry : SentryChoices)

/-- A new `JaegerLogger`. -/
def initialJaeger : JaegerState where
  calls := []
  spanQueue :=
    { maxQueueSize := tracingMaxQueueSize, policy := .dropNewest, queue := [], pending := 0 }
  stopRequested := false
  sender := .loopHead
  delivery := {}

/-- `enqueue_span`, behind the push. -/
def afterPush (outcome : PushOutcome) : EnqueueCall :=
  if outcome.accepted then .returned else .refused

variable (lib : JsonLibrary) (cfg : DeliveryConfig)

/-- The sender goes on.  It does not when a send throws. -/
def senderStep (nowMs : ℕ) (posted : Bool) (choices : SentryChoices) (s : JaegerState) :
    Option JaegerState :=
  match s.sender with
  | .loopHead => some { s with sender := if s.stopRequested then .draining else .waiting }
  | .waiting =>
    match s.spanQueue.waitAndTake s.stopRequested cfg.batchSize false with
    | (.stopped, _, q) => some { s with spanQueue := q, sender := .draining }
    | (.idle, _, q) => some { s with spanQueue := q, sender := .loopHead }
    | (.batch, batch, q) => some { s with spanQueue := q, sender := .batchTaken batch }
  | .batchTaken batch =>
    if batch.isEmpty then some { s with sender := .processed batch }
    else if nowMs < s.delivery.jaeger.cooldownUntilSteadyMs then
      some { s with sender := .countFailed false .breakerOpen batch }
    else some { s with sender := .attempting batch nowMs 0 }
  | .attempting batch now retries =>
    if retries < tracingMaxRetries ∧ s.stopRequested = false then
      match sendBatch lib posted batch with
      | none => none
      | some true =>
        some { s with
          delivery := { s.delivery with jaeger := {} }
          sender := .countSent false batch }
      | some false =>
        some { s with
          delivery :=
            { s.delivery with jaeger := recordSinkFailure cfg.settings s.delivery.jaeger now }
          sender := .attempting batch now (retries + 1) }
    else some { s with sender := .countFailed false .exportError batch }
  | .countSent final batch =>
    some { s with
      delivery := { s.delivery with spansSent := s.delivery.spansSent + batch.length }
      sender := .sentry final batch }
  | .countFailed final reason batch =>
    some { s with
      delivery := { s.delivery with spansFailed := s.delivery.spansFailed + batch.length }
      sender := .countDropped final reason batch }
  | .countDropped final reason batch =>
    some { s with
      delivery := countSpanDrop reason batch.length s.delivery
      sender := .sentry final batch }
  | .sentry final batch =>
    (deliverSentryTransactions lib cfg choices batch s.delivery).map fun d =>
      { s with delivery := d, sender := if final then .finished else .processed batch }
  | .processed batch =>
    some { s with spanQueue := s.spanQueue.markProcessed batch.length, sender := .loopHead }
  | .draining =>
    some { s with
      spanQueue := s.spanQueue.drain.2
      sender := if s.spanQueue.drain.1.isEmpty then .finished else .flushing s.spanQueue.drain.1 }
  | .flushing batch =>
    match sendBatch lib posted batch with
    | none => none
    | some true => some { s with sender := .countSent true batch }
    | some false => some { s with sender := .countFailed true .shutdownFlush batch }
  | .finished => none

/-- One step of a call or of the sender. -/
def jaegerStep (s : JaegerState) : JaegerEvent → Option JaegerState
  | .call span => some { s with calls := s.calls ++ [.entered span] }
  | .push i =>
    match s.calls[i]? with
    | some (.entered span) =>
      some { s with
        calls := s.calls.set i (afterPush (s.spanQueue.push span).1)
        spanQueue := (s.spanQueue.push span).2 }
    | _ => none
  | .countFailed i =>
    match s.calls[i]? with
    | some .refused =>
      some { s with
        calls := s.calls.set i .failed
        delivery := { s.delivery with spansFailed := s.delivery.spansFailed + 1 } }
    | _ => none
  | .countDropped i =>
    match s.calls[i]? with
    | some .failed =>
      some { s with
        calls := s.calls.set i .returned
        delivery := countSpanDrop .queueFull 1 s.delivery }
    | _ => none
  | .requestStop => some { s with stopRequested := true }
  | .sender nowMs posted choices => senderStep lib cfg nowMs posted choices s

/-! ## What is under way -/

/-- The span of the call is neither queued nor counted. -/
def EnqueueCall.uncounted : EnqueueCall → Bool
  | .entered _ => true
  | .refused => true
  | .failed => false
  | .returned => false

/-- The call has counted itself as failed, and not yet as dropped. -/
def EnqueueCall.halfCounted : EnqueueCall → Bool
  | .failed => true
  | _ => false

namespace SenderPoint

/-- The spans that the sender has taken and not counted. -/
def inHand : SenderPoint → ℕ
  | .batchTaken batch => batch.length
  | .attempting batch _ _ => batch.length
  | .countSent _ batch => batch.length
  | .countFailed _ _ batch => batch.length
  | .flushing batch => batch.length
  | _ => 0

/-- The spans that the sender has counted as failed, and not yet as dropped. -/
def halfCounted : SenderPoint → ℕ
  | .countDropped _ _ batch => batch.length
  | _ => 0

/-- The spans of the loop that are not marked as processed. -/
def unmarked : SenderPoint → ℕ
  | .batchTaken batch => batch.length
  | .attempting batch _ _ => batch.length
  | .countSent false batch => batch.length
  | .countFailed false _ batch => batch.length
  | .countDropped false _ batch => batch.length
  | .sentry false batch => batch.length
  | .processed batch => batch.length
  | _ => 0

/-- The sender is between batches, or finished. -/
def betweenBatches : SenderPoint → Bool
  | .loopHead => true
  | .waiting => true
  | .draining => true
  | .finished => true
  | _ => false

theorem inHand_of_betweenBatches {point : SenderPoint} (h : point.betweenBatches = true) :
    point.inHand = 0 ∧ point.halfCounted = 0 := by
  cases point <;> first | exact ⟨rfl, rfl⟩ | cases h

end SenderPoint

/-! ## The balance -/

/-- Every call is counted, queued, in hand or under way, every failed span is counted as
dropped or about to be, and every span that `flush` waits for is queued or not yet marked. -/
structure Ledger (s : JaegerState) : Prop where
  policy : s.spanQueue.policy = .dropNewest
  spans : s.calls.length = s.delivery.spansSent + s.delivery.spansFailed +
    s.spanQueue.queue.length + s.calls.countP EnqueueCall.uncounted + s.sender.inHand
  drops : s.delivery.spansFailed = s.delivery.spansDropped +
    s.calls.countP EnqueueCall.halfCounted + s.sender.halfCounted
  pending : s.spanQueue.pending = s.spanQueue.queue.length + s.sender.unmarked

theorem ledger_initial : Ledger initialJaeger where
  policy := rfl
  spans := rfl
  drops := rfl
  pending := rfl

variable {lib cfg}

/-- The Sentry delivery has counters of its own. -/
theorem deliverSentryTransactions_counters {choices : SentryChoices} {batch : List SpanData}
    {d d' : DeliveryState} (h : deliverSentryTransactions lib cfg choices batch d = some d') :
    d'.spansSent = d.spansSent ∧ d'.spansFailed = d.spansFailed ∧
      d'.spansDropped = d.spansDropped := by
  unfold deliverSentryTransactions at h
  split at h
  · obtain rfl := Option.some.inj h
    exact ⟨rfl, rfl, rfl⟩
  · split at h
    · obtain rfl := Option.some.inj h
      exact ⟨rfl, rfl, rfl⟩
    · obtain ⟨events, -, h⟩ := Option.bind_eq_some_iff.mp h
      split at h
      · obtain rfl := Option.some.inj h
        exact ⟨rfl, rfl, rfl⟩
      · obtain ⟨envelope, -, h⟩ := Option.bind_eq_some_iff.mp h
        split at h
        · obtain rfl := Option.some.inj h
          exact ⟨rfl, rfl, rfl⟩
        · obtain rfl := Option.some.inj h
          exact ⟨rfl, rfl, rfl⟩

@[simp] theorem countSpanDrop_spansSent (reason : DropReason) (count : ℕ) (d : DeliveryState) :
    (countSpanDrop reason count d).spansSent = d.spansSent := by
  cases reason <;> rfl

@[simp] theorem countSpanDrop_spansFailed (reason : DropReason) (count : ℕ) (d : DeliveryState) :
    (countSpanDrop reason count d).spansFailed = d.spansFailed := by
  cases reason <;> rfl

@[simp] theorem spansDropped_countSpanDrop (reason : DropReason) (count : ℕ) (d : DeliveryState) :
    (countSpanDrop reason count d).spansDropped = d.spansDropped + count := by
  cases reason with
  | queueFull =>
    simp only [countSpanDrop, DeliveryState.spansDropped]
    omega
  | breakerOpen =>
    simp only [countSpanDrop, DeliveryState.spansDropped]
    omega
  | exportError =>
    simp only [countSpanDrop, DeliveryState.spansDropped]
    omega
  | shutdownFlush =>
    simp only [countSpanDrop, DeliveryState.spansDropped]
    omega

/-! ## The sender -/

/-- A batch is taken. -/
theorem Ledger.take {s : JaegerState} (h : Ledger s) (hsender : s.sender = .waiting) (n : ℕ) :
    Ledger { s with
      spanQueue := { s.spanQueue with queue := s.spanQueue.queue.drop n }
      sender := .batchTaken (s.spanQueue.queue.take n) } := by
  obtain ⟨hpolicy, hspans, hdrops, hpending⟩ := h
  have hsplit : (s.spanQueue.queue.take n).length + (s.spanQueue.queue.drop n).length =
      s.spanQueue.queue.length := by
    rw [← List.length_append, List.take_append_drop]
  rw [hsender] at hspans hdrops hpending
  refine ⟨hpolicy, ?_, hdrops, ?_⟩
  · simp only [SenderPoint.inHand] at hspans ⊢
    omega
  · simp only [SenderPoint.unmarked] at hpending ⊢
    omega

/-- The queue is drained. -/
theorem Ledger.drain {s : JaegerState} (h : Ledger s) (hsender : s.sender = .draining) :
    Ledger { s with
      spanQueue := s.spanQueue.drain.2
      sender := if s.spanQueue.drain.1.isEmpty then .finished
        else .flushing s.spanQueue.drain.1 } := by
  obtain ⟨hpolicy, hspans, hdrops, hpending⟩ := h
  rw [hsender] at hspans hdrops hpending
  simp only [SenderPoint.inHand, SenderPoint.unmarked] at hspans hpending
  have hmarked : s.spanQueue.drain.2.pending = 0 := by
    rw [AsyncSenderQueue.drain]
    simp only
    rw [if_pos (by omega)]
    omega
  by_cases hempty : s.spanQueue.drain.1.isEmpty = true
  · have hlength : s.spanQueue.queue.length = 0 :=
      List.length_eq_zero_iff.mpr (List.isEmpty_iff.mp hempty)
    rw [if_pos hempty]
    refine ⟨hpolicy, ?_, hdrops, hmarked⟩
    simp only [AsyncSenderQueue.drain, SenderPoint.inHand, List.length_nil]
    omega
  · rw [if_neg hempty]
    refine ⟨hpolicy, ?_, hdrops, hmarked⟩
    simp only [AsyncSenderQueue.drain, SenderPoint.inHand, List.length_nil]
    omega

/-- The batch was sent and is counted. -/
theorem Ledger.countSent {s : JaegerState} {final : Bool} {batch : List SpanData} (h : Ledger s)
    (hsender : s.sender = .countSent final batch) :
    Ledger { s with
      delivery := { s.delivery with spansSent := s.delivery.spansSent + batch.length }
      sender := .sentry final batch } := by
  obtain ⟨hpolicy, hspans, hdrops, hpending⟩ := h
  rw [hsender] at hspans hdrops hpending
  refine ⟨hpolicy, ?_, hdrops, ?_⟩
  · simp only [SenderPoint.inHand] at hspans ⊢
    omega
  · cases final with
    | true => exact hpending
    | false => exact hpending

/-- The batch was lost and is counted as failed. -/
theorem Ledger.countFailed {s : JaegerState} {final : Bool} {reason : DropReason}
    {batch : List SpanData} (h : Ledger s) (hsender : s.sender = .countFailed final reason batch) :
    Ledger { s with
      delivery := { s.delivery with spansFailed := s.delivery.spansFailed + batch.length }
      sender := .countDropped final reason batch } := by
  obtain ⟨hpolicy, hspans, hdrops, hpending⟩ := h
  rw [hsender] at hspans hdrops hpending
  refine ⟨hpolicy, ?_, ?_, ?_⟩
  · simp only [SenderPoint.inHand] at hspans ⊢
    omega
  · simp only [SenderPoint.halfCounted, DeliveryState.spansDropped] at hdrops ⊢
    omega
  · cases final with
    | true => exact hpending
    | false => exact hpending

/-- And as dropped. -/
theorem Ledger.countDropped {s : JaegerState} {final : Bool} {reason : DropReason}
    {batch : List SpanData} (h : Ledger s)
    (hsender : s.sender = .countDropped final reason batch) :
    Ledger { s with
      delivery := countSpanDrop reason batch.length s.delivery
      sender := .sentry final batch } := by
  obtain ⟨hpolicy, hspans, hdrops, hpending⟩ := h
  rw [hsender] at hspans hdrops hpending
  refine ⟨hpolicy, ?_, ?_, ?_⟩
  · simp only [SenderPoint.inHand, countSpanDrop_spansSent, countSpanDrop_spansFailed] at hspans ⊢
    omega
  · simp only [SenderPoint.halfCounted, countSpanDrop_spansFailed, spansDropped_countSpanDrop]
      at hdrops ⊢
    omega
  · cases final with
    | true => exact hpending
    | false => exact hpending

/-- The batch goes to Sentry. -/
theorem Ledger.sentry {s : JaegerState} {final : Bool} {batch : List SpanData}
    {choices : SentryChoices} {d : DeliveryState} (h : Ledger s)
    (hsender : s.sender = .sentry final batch)
    (hd : deliverSentryTransactions lib cfg choices batch s.delivery = some d) :
    Ledger { s with delivery := d, sender := if final then .finished else .processed batch } := by
  obtain ⟨hpolicy, hspans, hdrops, hpending⟩ := h
  obtain ⟨hsent, hfailed, hdropped⟩ := deliverSentryTransactions_counters hd
  rw [hsender, ← hsent, ← hfailed] at hspans
  rw [hsender, ← hfailed, ← hdropped] at hdrops
  rw [hsender] at hpending
  cases final with
  | true => exact ⟨hpolicy, hspans, hdrops, hpending⟩
  | false => exact ⟨hpolicy, hspans, hdrops, hpending⟩

/-- The batch is marked as processed. -/
theorem Ledger.processed {s : JaegerState} {batch : List SpanData} (h : Ledger s)
    (hsender : s.sender = .processed batch) :
    Ledger { s with
      spanQueue := s.spanQueue.markProcessed batch.length
      sender := .loopHead } := by
  obtain ⟨hpolicy, hspans, hdrops, hpending⟩ := h
  rw [hsender] at hspans hdrops hpending
  refine ⟨hpolicy, hspans, hdrops, ?_⟩
  simp only [SenderPoint.unmarked, AsyncSenderQueue.markProcessed] at hpending ⊢
  rw [if_pos (by omega)]
  omega

/-- **The sender keeps the balance.** -/
theorem Ledger.sender {s s' : JaegerState} {nowMs : ℕ} {posted : Bool} {choices : SentryChoices}
    (h : Ledger s) (hstep : senderStep lib cfg nowMs posted choices s = some s') : Ledger s' := by
  obtain ⟨calls, q, stop, point, d⟩ := s
  have hledger := h
  obtain ⟨hpolicy, hspans, hdrops, hpending⟩ := h
  simp only at hpolicy hspans hdrops hpending
  unfold senderStep at hstep
  cases point with
  | loopHead =>
    obtain rfl := Option.some.inj hstep
    cases stop with
    | true => exact ⟨hpolicy, hspans, hdrops, hpending⟩
    | false => exact ⟨hpolicy, hspans, hdrops, hpending⟩
  | waiting =>
    simp only at hstep
    rcases q.waitAndTake_cases stop cfg.batchSize false with ⟨result, hresult, htake⟩ | htake
    · rw [htake] at hstep
      cases result with
      | batch => exact absurd rfl hresult
      | idle =>
        obtain rfl := Option.some.inj hstep
        exact ⟨hpolicy, hspans, hdrops, hpending⟩
      | stopped =>
        obtain rfl := Option.some.inj hstep
        exact ⟨hpolicy, hspans, hdrops, hpending⟩
    · rw [htake] at hstep
      obtain rfl := Option.some.inj hstep
      exact hledger.take rfl cfg.batchSize
  | batchTaken batch =>
    simp only at hstep
    split at hstep
    · rename_i hempty
      obtain rfl := List.isEmpty_iff.mp hempty
      obtain rfl := Option.some.inj hstep
      exact ⟨hpolicy, hspans, hdrops, hpending⟩
    · split at hstep
      · obtain rfl := Option.some.inj hstep
        exact ⟨hpolicy, hspans, hdrops, hpending⟩
      · obtain rfl := Option.some.inj hstep
        exact ⟨hpolicy, hspans, hdrops, hpending⟩
  | attempting batch now retries =>
    simp only at hstep
    split at hstep
    · split at hstep
      · cases hstep
      · obtain rfl := Option.some.inj hstep
        exact ⟨hpolicy, hspans, hdrops, hpending⟩
      · obtain rfl := Option.some.inj hstep
        exact ⟨hpolicy, hspans, hdrops, hpending⟩
    · obtain rfl := Option.some.inj hstep
      exact ⟨hpolicy, hspans, hdrops, hpending⟩
  | countSent final batch =>
    obtain rfl := Option.some.inj hstep
    exact hledger.countSent rfl
  | countFailed final reason batch =>
    obtain rfl := Option.some.inj hstep
    exact hledger.countFailed rfl
  | countDropped final reason batch =>
    obtain rfl := Option.some.inj hstep
    exact hledger.countDropped rfl
  | sentry final batch =>
    obtain ⟨d', hd', rfl⟩ := Option.map_eq_some_iff.mp hstep
    exact hledger.sentry rfl hd'
  | processed batch =>
    obtain rfl := Option.some.inj hstep
    exact hledger.processed rfl
  | draining =>
    obtain rfl := Option.some.inj hstep
    exact hledger.drain rfl
  | flushing batch =>
    simp only at hstep
    split at hstep
    · cases hstep
    · obtain rfl := Option.some.inj hstep
      exact ⟨hpolicy, hspans, hdrops, hpending⟩
    · obtain rfl := Option.some.inj hstep
      exact ⟨hpolicy, hspans, hdrops, hpending⟩
  | finished => cases hstep

/-! ## The calls -/

/-- A push that is refused leaves the queue as it is. -/
theorem push_cases {q : AsyncSenderQueue SpanData} (hpolicy : q.policy = .dropNewest)
    (span : SpanData) :
    (afterPush (q.push span).1 = .refused ∧ (q.push span).2 = q) ∨
      (afterPush (q.push span).1 = .returned ∧
        (q.push span).2 = { q with queue := q.queue ++ [span], pending := q.pending + 1 }) := by
  unfold AsyncSenderQueue.push
  split
  · rw [hpolicy]
    exact .inl ⟨rfl, rfl⟩
  · exact .inr ⟨rfl, rfl⟩

/-- A call pushes its span. -/
theorem Ledger.push {s : JaegerState} {i : ℕ} {span : SpanData} (h : Ledger s)
    (hcall : s.calls[i]? = some (.entered span)) :
    Ledger { s with
      calls := s.calls.set i (afterPush (s.spanQueue.push span).1)
      spanQueue := (s.spanQueue.push span).2 } := by
  obtain ⟨hpolicy, hspans, hdrops, hpending⟩ := h
  rcases push_cases hpolicy span with ⟨hafter, hqueue⟩ | ⟨hafter, hqueue⟩
  · have huncounted := countP_set EnqueueCall.uncounted hcall .refused
    have hhalf := countP_set EnqueueCall.halfCounted hcall .refused
    simp only [EnqueueCall.uncounted, EnqueueCall.halfCounted] at huncounted hhalf
    rw [hafter, hqueue]
    refine ⟨hpolicy, ?_, ?_, hpending⟩
    · simp only [List.length_set]
      omega
    · simp only
      omega
  · have huncounted := countP_set EnqueueCall.uncounted hcall .returned
    have hhalf := countP_set EnqueueCall.halfCounted hcall .returned
    simp only [EnqueueCall.uncounted, EnqueueCall.halfCounted, Bool.toNat_true,
      Bool.toNat_false] at huncounted hhalf
    rw [hafter, hqueue]
    refine ⟨hpolicy, ?_, ?_, ?_⟩
    · simp only [List.length_set, List.length_append, List.length_singleton]
      omega
    · simp only
      omega
    · simp only [List.length_append, List.length_singleton]
      omega

/-- **One step keeps the balance.** -/
theorem Ledger.step {s s' : JaegerState} {e : JaegerEvent} (h : Ledger s)
    (hstep : jaegerStep lib cfg s e = some s') : Ledger s' := by
  cases e with
  | call span =>
    obtain rfl := Option.some.inj hstep
    obtain ⟨hpolicy, hspans, hdrops, hpending⟩ := h
    refine ⟨hpolicy, ?_, ?_, hpending⟩
    · simp only [List.length_append, List.length_singleton, List.countP_append,
        List.countP_singleton, EnqueueCall.uncounted, if_true]
      omega
    · simp only [List.countP_append, List.countP_singleton, EnqueueCall.halfCounted,
        Bool.false_eq_true, if_false]
      exact hdrops
  | push i =>
    simp only [jaegerStep] at hstep
    split at hstep
    · rename_i span hcall
      obtain rfl := Option.some.inj hstep
      exact h.push hcall
    · cases hstep
  | countFailed i =>
    simp only [jaegerStep] at hstep
    split at hstep
    · rename_i hcall
      obtain rfl := Option.some.inj hstep
      obtain ⟨hpolicy, hspans, hdrops, hpending⟩ := h
      have huncounted := countP_set EnqueueCall.uncounted hcall .failed
      have hhalf := countP_set EnqueueCall.halfCounted hcall .failed
      simp only [EnqueueCall.uncounted, EnqueueCall.halfCounted, Bool.toNat_true,
        Bool.toNat_false] at huncounted hhalf
      refine ⟨hpolicy, ?_, ?_, hpending⟩
      · simp only [List.length_set]
        omega
      · simp only [DeliveryState.spansDropped] at hdrops ⊢
        omega
    · cases hstep
  | countDropped i =>
    simp only [jaegerStep] at hstep
    split at hstep
    · rename_i hcall
      obtain rfl := Option.some.inj hstep
      obtain ⟨hpolicy, hspans, hdrops, hpending⟩ := h
      have huncounted := countP_set EnqueueCall.uncounted hcall .returned
      have hhalf := countP_set EnqueueCall.halfCounted hcall .returned
      simp only [EnqueueCall.uncounted, EnqueueCall.halfCounted, Bool.toNat_true,
        Bool.toNat_false] at huncounted hhalf
      refine ⟨hpolicy, ?_, ?_, hpending⟩
      · simp only [List.length_set, countSpanDrop_spansSent, countSpanDrop_spansFailed]
        omega
      · simp only [countSpanDrop_spansFailed, spansDropped_countSpanDrop]
        omega
    · cases hstep
  | requestStop =>
    obtain rfl := Option.some.inj hstep
    exact ⟨h.policy, h.spans, h.drops, h.pending⟩
  | sender nowMs posted choices => exact h.sender hstep

/-! ## Between batches -/

/-- The balance when the sender has no batch in hand.  Calls that are on their way are in it
with what they have not counted yet; without them it is exact. -/
structure SpansAccounted (s : JaegerState) : Prop where
  spans : s.calls.length = s.delivery.spansSent + s.delivery.spansFailed +
    s.spanQueue.queue.length + s.calls.countP EnqueueCall.uncounted
  drops : s.delivery.spansFailed =
    s.delivery.spansDropped + s.calls.countP EnqueueCall.halfCounted
  quiet : (∀ call ∈ s.calls, call = .returned) →
    s.calls.length = s.delivery.spansSent + s.delivery.spansFailed + s.spanQueue.queue.length ∧
      s.delivery.spansFailed = s.delivery.spansDropped

theorem Ledger.accounted {s : JaegerState} (h : Ledger s)
    (hsender : s.sender.betweenBatches = true) : SpansAccounted s := by
  obtain ⟨hinHand, hhalf⟩ := SenderPoint.inHand_of_betweenBatches hsender
  have hspans := h.spans
  have hdrops := h.drops
  rw [hinHand, Nat.add_zero] at hspans
  rw [hhalf, Nat.add_zero] at hdrops
  refine ⟨hspans, hdrops, fun hreturned => ?_⟩
  have hzero : ∀ p : EnqueueCall → Bool, p .returned = false → s.calls.countP p = 0 := by
    intro p hp
    refine List.countP_eq_zero.mpr fun call hcall => ?_
    rw [hreturned call hcall, hp]
    exact Bool.noConfusion
  rw [hzero _ rfl, Nat.add_zero] at hspans
  rw [hzero _ rfl, Nat.add_zero] at hdrops
  exact ⟨hspans, hdrops⟩

/-- **No span is lost.**  In every run, whatever the order of the calls and of the sender, the
outcomes of the sends, the breakers and the stop, the spans of all calls are accounted for
whenever the sender is between batches or finished. -/
theorem spans_accounted (lib : JsonLibrary) (cfg : DeliveryConfig) (events : List JaegerEvent) :
    Always (jaegerStep lib cfg) (fun s => s.sender.betweenBatches = true → SpansAccounted s)
      initialJaeger events :=
  always_of_step (fun _ _ _ h hstep => h.step hstep) (fun _ h => h.accounted) ledger_initial
    events

end Tracing
end HttpDataDiod
