import HttpDataDiod.Tracing.Span

/-!
# Delivering a batch of spans

Model of the delivery side of `JaegerLogger`: the breaker of a sink, the Sentry
transactions of a batch, and `send_batch_with_retry`.  As in `sendBatch`, an
exception that leaves a function is `none`; what the `try` blocks catch is an
ordinary outcome.

* `recordSinkFailure`: the exponential breaker shared by the two sinks.
* `buildSentryTransactionJson`, `buildSentryEnvelope`, `deliverSentryTransactions`.
* `sendBatchWithRetry`: up to three attempts, then the Sentry delivery.
* `sendBatchWithRetry_eq_some`, `sendBatchWithRetry_eq_none`: of a batch of valid
  spans no exception leaves it; of another one an exception does.
-/

namespace HttpDataDiod
namespace Tracing

open ByteText JsonValue

/-! ## The breaker of a sink -/

/-- `TracingBreakerSettings`. -/
structure TracingBreakerSettings where
  failureThreshold : ℕ := 3
  cooldownBaseMs : ℕ := 1000
  cooldownMaxMs : ℕ := 30000

/-- `ExponentialBreaker`. -/
structure ExponentialBreaker where
  consecutiveFailures : ℕ := 0
  cooldownUntilSteadyMs : ℕ := 0
  deriving DecidableEq

def tracingMaxCooldownShift : ℕ := 20

/-- `record_sink_failure`. -/
def recordSinkFailure (settings : TracingBreakerSettings) (breaker : ExponentialBreaker)
    (nowSteadyMs : ℕ) : ExponentialBreaker :=
  let failures := breaker.consecutiveFailures + 1
  if failures < settings.failureThreshold then { breaker with consecutiveFailures := failures }
  else
    let cooldownMs :=
      min (settings.cooldownBaseMs <<< (min failures tracingMaxCooldownShift - 1))
        settings.cooldownMaxMs
    { consecutiveFailures := failures, cooldownUntilSteadyMs := nowSteadyMs + cooldownMs }

/-! ## Sentry transactions -/

/-- `SentryConfig`; `enabled` stands for a parsed DSN, with which the client pool of
the sink is created. -/
structure SentryConfig where
  enabled : Bool
  service : Text
  environment : Text
  release : Text
  sampleRate : ℚ

def httpSpanStartLength : ℕ := 5

/-- The operation of a span by the beginning of its token. -/
def spanOpOfToken (token : Bytes) (fallback : Bytes) : Bytes :=
  if ascii "NATS" <+: token then ascii "messaging"
  else if ascii "DB" <+: token then ascii "db"
  else fallback

/-- `sentry_span_op`. -/
def sentrySpanOp (name : Bytes) : Bytes :=
  if ascii "HTTP " <+: name then
    let token := (name.drop httpSpanStartLength).takeWhile fun c => c ≠ 32
    spanOpOfToken token
      (if ascii "L2" <+: token then ascii "http.client" else ascii "http.server")
  else spanOpOfToken name (ascii "span")

/-- `sentry_transaction_status`. -/
def sentryTransactionStatus (statusCode : ℤ) : Bytes :=
  if 500 ≤ statusCode then ascii "internal_error" else ascii "ok"

/-- An assignment that is made only if the text is not empty. -/
def assignIfNonempty (key text : Bytes) (value : JsonValue) : List (Bytes × JsonValue) :=
  if text.isEmpty then [] else [(key, value)]

/-- What one delivery to Sentry takes from outside: the clock, a draw and an event id
for each span, the formatter of times, the time of sending, and whether the POST
returns. -/
structure SentryChoices where
  nowSteadyMs : ℕ
  draw : ℕ → Draw
  eventId : ℕ → HexId 32
  formatRfc3339Us : UInt64 → Text
  sentAt : Text
  posted : Bool

variable (lib : JsonLibrary)

/-- `build_sentry_transaction_json`. -/
def buildSentryTransactionJson (cfg : SentryConfig) (choices : SentryChoices) (i : ℕ)
    (span : SpanData) : Option JsonValue :=
  let product := cfg.service.bytes
  let statusCode := (JsonValue.object span.attributes.entries).safeGetInt
    (ascii "http.status_code") 200
  let traceCtx := objectOf
    ([(ascii "trace_id", JsonValue.string span.traceId),
      (ascii "span_id", .string span.spanId),
      (ascii "op", .string (sentrySpanOp span.name)),
      (ascii "status", .string (sentryTransactionStatus statusCode))] ++
     assignIfNonempty (ascii "parent_span_id") span.parentId (.string span.parentId))
  let contexts := objectOf
    ([(ascii "trace", traceCtx)] ++
     assignIfNonempty (ascii "service") span.serviceName
       (objectOf [(ascii "name", .string span.serviceName)]))
  let serviceTags := assign []
    (assignIfNonempty (ascii "service") span.serviceName (.string span.serviceName) ++
     assignIfNonempty (ascii "mode") product (.string product))
  (mergeStringifiedTags lib serviceTags span.attributes.entries).map fun tags =>
    objectOf
      ([(ascii "event_id", JsonValue.string (choices.eventId i).bytes),
        (ascii "type", .string (ascii "transaction")),
        (ascii "start_timestamp", .string (choices.formatRfc3339Us span.startUs).bytes),
        (ascii "timestamp", .string (choices.formatRfc3339Us span.endUs).bytes),
        (ascii "platform", .string (ascii "native")),
        (ascii "transaction", .string
          (if product.isEmpty then span.name else product ++ ascii ": " ++ span.name))] ++
       assignIfNonempty (ascii "release") cfg.release.bytes (.string cfg.release.bytes) ++
       [(ascii "contexts", contexts)] ++
       assignIfNonempty (ascii "environment") cfg.environment.bytes
         (.string cfg.environment.bytes) ++
       [(ascii "tags", JsonValue.object tags)] ++
       (if span.attributes.entries.isEmpty then []
        else [(ascii "extra", JsonValue.object span.attributes.entries)]))

/-- `envelope_header`. -/
def envelopeHeader (eventId : Bytes) (sentAt : Text) : JsonValue :=
  objectOf
    [(ascii "event_id", .string eventId),
     (ascii "sent_at", .string sentAt.bytes),
     (ascii "sdk", objectOf
       [(ascii "name", .string (ascii "http-data-diod")),
        (ascii "version", .string (ascii "0"))])]

/-- `envelope_item` of a transaction, with its length. -/
def envelopeItem (payload : JsonValue) : Option Bytes := do
  let body ← lib.dump payload
  let item ← lib.dump (objectOf
    [(ascii "type", .string (ascii "transaction")), (ascii "length", .uint body.length)])
  return item ++ ascii "\n" ++ body

/-- The loop of `build_sentry_envelope` over the events. -/
def envelopeItems : List JsonValue → Bytes → Option Bytes
  | [], envelope => some envelope
  | event :: events, envelope => do
    let item ← envelopeItem lib event
    envelopeItems events (envelope ++ ascii "\n" ++ item)

/-- `build_sentry_envelope`. -/
def buildSentryEnvelope (sentAt : Text) : List JsonValue → Option Bytes
  | [] => some []
  | event :: events => do
    let header ← lib.dump (envelopeHeader (event.safeGetString (ascii "event_id") []) sentAt)
    envelopeItems lib (event :: events) header

/-- The loop of `deliver_sentry_transactions` over the spans from the `i`-th on. -/
def sampledTransactions (cfg : SentryConfig) (choices : SentryChoices) :
    ℕ → List SpanData → Option (List JsonValue)
  | _, [] => some []
  | i, span :: batch =>
    if cfg.sampleRate < 1 ∧ cfg.sampleRate ≤ (choices.draw i).value then
      sampledTransactions cfg choices (i + 1) batch
    else do
      let event ← buildSentryTransactionJson lib cfg choices i span
      let events ← sampledTransactions cfg choices (i + 1) batch
      return event :: events

/-! ## The state of the delivery -/

/-- The breakers and the delivery counters. -/
structure DeliveryState where
  jaeger : ExponentialBreaker := {}
  sentry : ExponentialBreaker := {}
  spansSent : ℕ := 0
  spansFailed : ℕ := 0
  sentrySpansSent : ℕ := 0
  sentrySpansFailed : ℕ := 0
  droppedQueueFull : ℕ := 0
  droppedBreakerOpen : ℕ := 0
  droppedExportError : ℕ := 0
  droppedShutdownFlush : ℕ := 0
  deriving DecidableEq

/-- The settings of the delivery; `validate_tracing` has checked the batch size. -/
structure DeliveryConfig where
  batchSize : ℕ
  batchSize_pos : 0 < batchSize
  settings : TracingBreakerSettings
  sentry : SentryConfig

/-- `deliver_sentry_transactions`.  The envelope is built before the `try`. -/
def deliverSentryTransactions (cfg : DeliveryConfig) (choices : SentryChoices)
    (batch : List SpanData) (d : DeliveryState) : Option DeliveryState :=
  if !cfg.sentry.enabled || batch.isEmpty then some d
  else if d.sentry.cooldownUntilSteadyMs ≠ 0 ∧
      choices.nowSteadyMs < d.sentry.cooldownUntilSteadyMs then
    some { d with sentrySpansFailed := d.sentrySpansFailed + batch.length }
  else do
    let events ← sampledTransactions lib cfg.sentry choices 0 batch
    if events.isEmpty then return d
    else
      let _envelope ← buildSentryEnvelope lib choices.sentAt events
      if choices.posted then
        return { d with
          sentry := {}
          sentrySpansSent := d.sentrySpansSent + events.length }
      else
        return { d with
          sentry := recordSinkFailure cfg.settings d.sentry choices.nowSteadyMs
          sentrySpansFailed := d.sentrySpansFailed + events.length }

/-- What the handling of one batch takes from outside: the clock, for each attempt
whether a stop has been requested before it and whether its POST returns, and the
choices of the Sentry delivery. -/
structure BatchChoices where
  nowMs : ℕ
  stopRequested : ℕ → Bool
  posted : ℕ → Bool
  sentry : SentryChoices

/-- `g_tracing_max_retries`. -/
def tracingMaxRetries : ℕ := 3

/-- The `while` loop of `send_batch_with_retry`, with so many attempts left after
`retries` failed ones: whether the batch has been sent. -/
def sendAttempts (cfg : DeliveryConfig) (choices : BatchChoices) (batch : List SpanData) :
    ℕ → ℕ → DeliveryState → Option (Bool × DeliveryState)
  | 0, _, d => some (false, d)
  | left + 1, retries, d =>
    if choices.stopRequested retries then some (false, d)
    else
      match sendBatch lib (choices.posted retries) batch with
      | none => none
      | some true => some (true, { d with jaeger := {} })
      | some false =>
        sendAttempts cfg choices batch left (retries + 1)
          { d with jaeger := recordSinkFailure cfg.settings d.jaeger choices.nowMs }

/-- The counters after the attempts. -/
def countAttempts (batch : List SpanData) : Bool × DeliveryState → DeliveryState
  | (true, d) => { d with spansSent := d.spansSent + batch.length }
  | (false, d) =>
    { d with
      spansFailed := d.spansFailed + batch.length
      droppedExportError := d.droppedExportError + batch.length }

/-- `send_batch_with_retry`. -/
def sendBatchWithRetry (cfg : DeliveryConfig) (choices : BatchChoices) (batch : List SpanData)
    (d : DeliveryState) : Option DeliveryState :=
  if choices.nowMs < d.jaeger.cooldownUntilSteadyMs then
    deliverSentryTransactions lib cfg choices.sentry batch
      { d with
        spansFailed := d.spansFailed + batch.length
        droppedBreakerOpen := d.droppedBreakerOpen + batch.length }
  else do
    let attempts ← sendAttempts lib cfg choices batch tracingMaxRetries 0 d
    deliverSentryTransactions lib cfg choices.sentry batch (countAttempts batch attempts)

/-- The flush of `sender_loop` on shutdown: one attempt, then the Sentry delivery. -/
def flushFinalBatch (cfg : DeliveryConfig) (choices : BatchChoices) (finalBatch : List SpanData)
    (d : DeliveryState) : Option DeliveryState :=
  if finalBatch.isEmpty then some d
  else do
    let sent ← sendBatch lib (choices.posted 0) finalBatch
    deliverSentryTransactions lib cfg choices.sentry finalBatch
      (if sent then { d with spansSent := d.spansSent + finalBatch.length }
       else
        { d with
          spansFailed := d.spansFailed + finalBatch.length
          droppedShutdownFlush := d.droppedShutdownFlush + finalBatch.length })

/-! ## Valid spans are delivered without an exception -/

variable {lib}

theorem entryUtf8_of_mem_assignIfNonempty {key text : Bytes} {value : JsonValue}
    (hkey : isValidUtf8 key = true) (hvalue : value.allUtf8 = true) :
    ∀ p ∈ assignIfNonempty key text value, EntryUtf8 p := by
  unfold assignIfNonempty
  split
  · exact List.forall_mem_nil _
  · exact List.forall_mem_singleton.mpr (entryUtf8_mk hkey hvalue)

theorem isValidUtf8_spanOpOfToken {token fallback : Bytes} (h : isValidUtf8 fallback = true) :
    isValidUtf8 (spanOpOfToken token fallback) = true := by
  unfold spanOpOfToken
  split
  · decide
  · split
    · decide
    · exact h

theorem isValidUtf8_sentrySpanOp (name : Bytes) : isValidUtf8 (sentrySpanOp name) = true := by
  unfold sentrySpanOp
  split
  · refine isValidUtf8_spanOpOfToken ?_
    split <;> decide
  · exact isValidUtf8_spanOpOfToken (by decide)

theorem isValidUtf8_sentryTransactionStatus (statusCode : ℤ) :
    isValidUtf8 (sentryTransactionStatus statusCode) = true := by
  unfold sentryTransactionStatus
  split <;> decide

/-- The text of the field `transaction`. -/
theorem isValidUtf8_transaction {product name : Bytes} (hproduct : isValidUtf8 product = true)
    (hname : isValidUtf8 name = true) :
    isValidUtf8 (if product.isEmpty then name else product ++ ascii ": " ++ name) = true := by
  split
  · exact hname
  · exact isValidUtf8_append_of_valid (isValidUtf8_append_of_valid hproduct (by decide)) hname

theorem allUtf8_traceCtx {span : SpanData} (h : span.Valid) (statusCode : ℤ) :
    (objectOf
      ([(ascii "trace_id", JsonValue.string span.traceId),
        (ascii "span_id", .string span.spanId),
        (ascii "op", .string (sentrySpanOp span.name)),
        (ascii "status", .string (sentryTransactionStatus statusCode))] ++
       assignIfNonempty (ascii "parent_span_id") span.parentId
         (.string span.parentId))).allUtf8 = true := by
  refine allUtf8_objectOf (List.forall_mem_append.mpr ⟨?_, ?_⟩)
  · simp only [List.forall_mem_cons]
    exact ⟨entryUtf8_string (by decide) h.traceId, entryUtf8_string (by decide) h.spanId,
      entryUtf8_string (by decide) (isValidUtf8_sentrySpanOp _),
      entryUtf8_string (by decide) (isValidUtf8_sentryTransactionStatus _),
      List.forall_mem_nil _⟩
  · exact entryUtf8_of_mem_assignIfNonempty (by decide) (by rw [allUtf8_string, h.parentId])

theorem allUtf8_object_of_utf8 {o : JsonObject} (h : o.Utf8) :
    (JsonValue.object o.entries).allUtf8 = true := by
  rw [allUtf8, allUtf8Entries_iff]
  exact h

/-- **A valid span has a transaction that can be written out.** -/
theorem buildSentryTransactionJson_utf8 {cfg : SentryConfig} {choices : SentryChoices} {i : ℕ}
    {span : SpanData} (h : span.Valid) :
    ∃ j, buildSentryTransactionJson lib cfg choices i span = some j ∧ j.allUtf8 = true := by
  have hservice : (JsonValue.string span.serviceName).allUtf8 = true := by
    rw [allUtf8_string, h.serviceName]
  have htext : ∀ t : Text, (JsonValue.string t.bytes).allUtf8 = true := fun t => by
    rw [allUtf8_string, t.valid]
  have hserviceTags : ∀ e ∈ assign []
      (assignIfNonempty (ascii "service") span.serviceName (.string span.serviceName) ++
       assignIfNonempty (ascii "mode") cfg.service.bytes (.string cfg.service.bytes)),
      EntryUtf8 e := by
    intro e he
    rcases List.mem_append.mp ((mem_or_mem_of_mem_assign he).resolve_left List.not_mem_nil)
      with he | he
    · exact entryUtf8_of_mem_assignIfNonempty (by decide) hservice e he
    · exact entryUtf8_of_mem_assignIfNonempty (by decide) (htext _) e he
  obtain ⟨tags, htags, hall⟩ :
      ∃ tags, mergeStringifiedTags lib _ span.attributes.entries = some tags ∧
        ∀ e ∈ tags, EntryUtf8 e := mergeStringifiedTags_eq_some h.attributes hserviceTags
  refine ⟨_, by rw [buildSentryTransactionJson, htags]; rfl, allUtf8_objectOf ?_⟩
  simp only [List.forall_mem_append, List.forall_mem_cons]
  refine ⟨⟨⟨⟨⟨⟨?_, ?_, ?_, ?_, ?_, ?_, ?_⟩, ?_⟩, ?_, ?_⟩, ?_⟩, ?_, ?_⟩, ?_⟩
  · exact entryUtf8_string (by decide) (choices.eventId i).valid
  · exact entryUtf8_string (by decide) (by decide)
  · exact entryUtf8_string (by decide) (choices.formatRfc3339Us _).valid
  · exact entryUtf8_string (by decide) (choices.formatRfc3339Us _).valid
  · exact entryUtf8_string (by decide) (by decide)
  · exact entryUtf8_string (by decide) (isValidUtf8_transaction cfg.service.valid h.name)
  · exact List.forall_mem_nil _
  · exact entryUtf8_of_mem_assignIfNonempty (by decide) (htext _)
  · refine entryUtf8_mk (by decide) (allUtf8_objectOf (List.forall_mem_append.mpr ⟨?_, ?_⟩))
    · exact List.forall_mem_singleton.mpr (entryUtf8_mk (by decide) (allUtf8_traceCtx h _))
    · refine entryUtf8_of_mem_assignIfNonempty (by decide) (allUtf8_objectOf ?_)
      exact List.forall_mem_singleton.mpr (entryUtf8_mk (by decide) hservice)
  · exact List.forall_mem_nil _
  · exact entryUtf8_of_mem_assignIfNonempty (by decide) (htext _)
  · refine entryUtf8_mk (by decide) ?_
    rw [allUtf8, allUtf8Entries_iff]
    exact hall
  · exact List.forall_mem_nil _
  · split
    · exact List.forall_mem_nil _
    · exact List.forall_mem_singleton.mpr
        (entryUtf8_mk (by decide) (allUtf8_object_of_utf8 h.attributes))

theorem sampledTransactions_utf8 {cfg : SentryConfig} {choices : SentryChoices} {i : ℕ}
    {batch : List SpanData} (h : ∀ span ∈ batch, span.Valid) :
    ∃ events, sampledTransactions lib cfg choices i batch = some events ∧
      ∀ event ∈ events, event.allUtf8 = true := by
  induction batch generalizing i with
  | nil => exact ⟨[], rfl, List.forall_mem_nil _⟩
  | cons span batch ih =>
    rw [List.forall_mem_cons] at h
    obtain ⟨events, hevents, hall⟩ := @ih (i + 1) h.2
    rw [sampledTransactions]
    split
    · exact ⟨events, hevents, hall⟩
    · obtain ⟨event, hevent, hutf8⟩ :
          ∃ j, buildSentryTransactionJson lib cfg choices i span = some j ∧
            j.allUtf8 = true := buildSentryTransactionJson_utf8 h.1
      refine ⟨event :: events, ?_, List.forall_mem_cons.mpr ⟨hutf8, hall⟩⟩
      rw [hevent, hevents]
      rfl

theorem envelopeItem_eq_some {payload : JsonValue} (h : payload.allUtf8 = true) :
    ∃ item, envelopeItem lib payload = some item := by
  have hitem : (objectOf [(ascii "type", .string (ascii "transaction")),
      (ascii "length", .uint (lib.serialize payload).length)]).allUtf8 = true := by
    refine allUtf8_objectOf ?_
    simp only [List.forall_mem_cons]
    exact ⟨entryUtf8_string (by decide) (by decide), entryUtf8_mk (by decide) (allUtf8_uint _),
      List.forall_mem_nil _⟩
  rw [envelopeItem, lib.dump_of_allUtf8 h, Option.bind_eq_bind, Option.bind_some,
    lib.dump_of_allUtf8 hitem]
  exact ⟨_, rfl⟩

theorem envelopeItems_eq_some {events : List JsonValue}
    (h : ∀ event ∈ events, event.allUtf8 = true) (envelope : Bytes) :
    ∃ text, envelopeItems lib events envelope = some text := by
  induction events generalizing envelope with
  | nil => exact ⟨envelope, rfl⟩
  | cons event events ih =>
    rw [List.forall_mem_cons] at h
    obtain ⟨item, hitem⟩ : ∃ item, envelopeItem lib event = some item :=
      envelopeItem_eq_some h.1
    rw [envelopeItems, hitem]
    exact ih h.2 _

theorem allUtf8_envelopeHeader {eventId : Bytes} (h : isValidUtf8 eventId = true)
    (sentAt : Text) : (envelopeHeader eventId sentAt).allUtf8 = true := by
  refine allUtf8_objectOf ?_
  simp only [List.forall_mem_cons]
  refine ⟨entryUtf8_string (by decide) h, entryUtf8_string (by decide) sentAt.valid, ?_,
    List.forall_mem_nil _⟩
  refine entryUtf8_mk (by decide) (allUtf8_objectOf ?_)
  simp only [List.forall_mem_cons]
  exact ⟨entryUtf8_string (by decide) (by decide), entryUtf8_string (by decide) (by decide),
    List.forall_mem_nil _⟩

theorem buildSentryEnvelope_eq_some {sentAt : Text} {events : List JsonValue}
    (h : ∀ event ∈ events, event.allUtf8 = true) :
    ∃ envelope, buildSentryEnvelope lib sentAt events = some envelope := by
  cases events with
  | nil => exact ⟨[], rfl⟩
  | cons event events =>
    have hid : isValidUtf8 (event.safeGetString (ascii "event_id") []) = true :=
      isValidUtf8_safeGetString (h event List.mem_cons_self) isValidUtf8_nil
    rw [buildSentryEnvelope, lib.dump_of_allUtf8 (allUtf8_envelopeHeader hid sentAt)]
    exact envelopeItems_eq_some h _

/-- No exception leaves the Sentry delivery of valid spans. -/
theorem deliverSentryTransactions_eq_some {cfg : DeliveryConfig} {choices : SentryChoices}
    {batch : List SpanData} (h : ∀ span ∈ batch, span.Valid) (d : DeliveryState) :
    ∃ d', deliverSentryTransactions lib cfg choices batch d = some d' := by
  rw [deliverSentryTransactions]
  split
  · exact ⟨d, rfl⟩
  · split
    · exact ⟨_, rfl⟩
    · obtain ⟨events, hevents, hall⟩ :
          ∃ events, sampledTransactions lib cfg.sentry choices 0 batch = some events ∧
            ∀ event ∈ events, event.allUtf8 = true := sampledTransactions_utf8 h
      obtain ⟨envelope, henvelope⟩ :
          ∃ envelope, buildSentryEnvelope lib choices.sentAt events = some envelope :=
        buildSentryEnvelope_eq_some hall
      rw [hevents, Option.bind_eq_bind, Option.bind_some]
      split
      · exact ⟨d, rfl⟩
      · rw [henvelope, Option.bind_eq_bind, Option.bind_some]
        split
        · exact ⟨_, rfl⟩
        · exact ⟨_, rfl⟩

/-- No exception leaves the attempts to send valid spans. -/
theorem sendAttempts_eq_some {cfg : DeliveryConfig} {choices : BatchChoices}
    {batch : List SpanData} (h : ∀ span ∈ batch, span.Valid) (left retries : ℕ)
    (d : DeliveryState) :
    ∃ attempts, sendAttempts lib cfg choices batch left retries d = some attempts := by
  induction left generalizing retries d with
  | zero => exact ⟨_, rfl⟩
  | succ left ih =>
    rw [sendAttempts]
    split
    · exact ⟨_, rfl⟩
    · obtain ⟨sent, hsent⟩ : ∃ sent, sendBatch lib (choices.posted retries) batch = some sent :=
        sendBatch_of_valid h
      rw [hsent]
      cases sent with
      | true => exact ⟨_, rfl⟩
      | false => exact ih _ _

/-- **Valid spans, no exception.**  Of a batch of valid spans `send_batch_with_retry`
returns, whatever the sinks, the clock and the breakers do. -/
theorem sendBatchWithRetry_eq_some {cfg : DeliveryConfig} {choices : BatchChoices}
    {batch : List SpanData} (h : ∀ span ∈ batch, span.Valid) (d : DeliveryState) :
    ∃ d', sendBatchWithRetry lib cfg choices batch d = some d' := by
  rw [sendBatchWithRetry]
  split
  · exact deliverSentryTransactions_eq_some h _
  · obtain ⟨attempts, hattempts⟩ :
        ∃ attempts, sendAttempts lib cfg choices batch tracingMaxRetries 0 d = some attempts :=
      sendAttempts_eq_some h _ _ _
    rw [hattempts]
    exact deliverSentryTransactions_eq_some h _

/-- And so does the flush on shutdown. -/
theorem flushFinalBatch_eq_some {cfg : DeliveryConfig} {choices : BatchChoices}
    {batch : List SpanData} (h : ∀ span ∈ batch, span.Valid) (d : DeliveryState) :
    ∃ d', flushFinalBatch lib cfg choices batch d = some d' := by
  rw [flushFinalBatch]
  split
  · exact ⟨d, rfl⟩
  · obtain ⟨sent, hsent⟩ : ∃ sent, sendBatch lib (choices.posted 0) batch = some sent :=
      sendBatch_of_valid h
    rw [hsent]
    exact deliverSentryTransactions_eq_some h _

/-- **A span that is not valid.**  With the breaker of the sink closed and no stop
requested, an exception leaves `send_batch_with_retry`. -/
theorem sendBatchWithRetry_eq_none {cfg : DeliveryConfig} {choices : BatchChoices}
    {batch : List SpanData} {d : DeliveryState} {span : SpanData} (hspan : span ∈ batch)
    (hinvalid : ¬ span.Valid) (hclosed : d.jaeger.cooldownUntilSteadyMs ≤ choices.nowMs)
    (hstop : choices.stopRequested 0 = false) :
    sendBatchWithRetry lib cfg choices batch d = none := by
  have hsend : sendBatch lib (choices.posted 0) batch = none := by
    rw [← Option.not_isSome_iff_eq_none, isSome_sendBatch_iff]
    exact fun hall => hinvalid (hall span hspan)
  have hattempts : sendAttempts lib cfg choices batch tracingMaxRetries 0 d = none := by
    rw [tracingMaxRetries, sendAttempts, hstop, hsend]
    rfl
  rw [sendBatchWithRetry, if_neg (Nat.not_lt.mpr hclosed), hattempts]
  rfl

end Tracing
end HttpDataDiod
