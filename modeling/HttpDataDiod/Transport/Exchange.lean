import HttpDataDiod.Json.Nlohmann
import HttpDataDiod.Proxy.NatsPoll
import HttpDataDiod.Transport.BackendMethod
import HttpDataDiod.Transport.ReplyStatus

/-!
# One exchange, from the client to the backend and back

The proxy writes a request out once and polls NATS with the text; a worker parses it, looks the
id up in its cache, asks the backend, stores the envelope and replies; the proxy parses the
reply and answers the client.  Any request of the poll may get lost, and so may any reply, in
which case the poll sends the text again.  The texts are those of the vendored JSON library.

* `exchangeStep`: what becomes of a request of the poll, and of the messages of other requests
  at the same worker.
* `ExchangeDomain`: the condition on the steps: the backend answers with a response that can be
  written out, and the entry of the id is neither expired when it is needed nor evicted.
* `ExchangeInv`: the invariant.
* `exchange_transparent`: the backend is asked at most once, with the client's request, and
  whatever reaches the client is the backend's answer.
-/

namespace HttpDataDiod
namespace Transport

open ByteText JsonValue Proxy Worker Tracing Transition
open NatsContract (kTimestamp)

/-! ## The two envelopes, written out and parsed -/

section Texts

variable {fmt : Lexer.FloatText} {what : Bytes → Text} {F : UInt64 → Prop}

theorem plain_prepareRequestData (libs : Libraries)
    (requestId method path body traceparent : Bytes) (req : Request) :
    PlainObject F (prepareRequestData libs requestId method path body req traceparent) := by
  rw [prepareRequestData_eq]
  refine plainObject_of ?_
  have hheaders : Plain F (.object (filterHeadersToJson req.headers).entries) := by
    refine PlainObject.plain (plainObject_of fun p hp => ?_)
    obtain ⟨h, -, rfl⟩ := List.mem_map.mp hp
    exact .string _
  unfold requestPairs
  refine List.forall_mem_append.mpr ⟨List.forall_mem_append.mpr ⟨?_, ?_⟩, ?_⟩
  · simp only [List.forall_mem_cons]
    exact ⟨.string _, .string _, .string _, .string _, .string _, .string _, .string _,
      List.forall_mem_nil _⟩
  · split
    · exact List.forall_mem_cons.mpr ⟨.string _, List.forall_mem_singleton.mpr (.bool _)⟩
    · exact List.forall_mem_singleton.mpr (.string _)
  · split
    · exact List.forall_mem_nil _
    · exact List.forall_mem_singleton.mpr hheaders

/-- The envelope of a request, at a time that a signed integer can hold. -/
theorem plain_requestEnvelope {json : JsonLibrary} {env : HandlerChoices} {method : Method}
    {body : Bytes} {req : Request} {tracer : Bool} (hclock : (env.now 2).toNat < 2 ^ 63) :
    PlainObject F (requestEnvelope json env method body req tracer) := by
  have htimestamp : Plain F (.int ((env.now 2).toNat : ℤ)) := .int (by omega) (by omega)
  unfold requestEnvelope
  split
  · unfold pushedData
    refine PlainObject.assign (PlainObject.assign (plain_prepareRequestData _ _ _ _ _ _ _) ?_)
      (List.forall_mem_append.mpr ⟨?_, ?_⟩)
    · unfold proxyTraceFields
      simp only [List.forall_mem_cons]
      exact ⟨.string _, .string _, .string _, .string _, List.forall_mem_nil _⟩
    · simp only [List.forall_mem_cons]
      exact ⟨htimestamp, .string _, .string _, List.forall_mem_nil _⟩
    · split
      · exact List.forall_mem_nil _
      · exact List.forall_mem_singleton.mpr (.string _)
  · unfold untracedData
    refine PlainObject.assign (plain_prepareRequestData _ _ _ _ _ _ _) ?_
    simp only [List.forall_mem_cons]
    exact ⟨htimestamp, .string _, .string _, List.forall_mem_nil _⟩

theorem plain_l2ResponseEnvelope (requestId traceparentHeader : Bytes) (timestampUs : UInt64)
    (r : L2Response) :
    PlainObject F (l2ResponseEnvelope requestId traceparentHeader timestampUs r) := by
  have hheaders : Plain F (.object (headersToJson r.headers).entries) := by
    refine PlainObject.plain (plainObject_of fun p hp => ?_)
    obtain ⟨h, -, rfl⟩ := List.mem_map.mp hp
    exact .string _
  have hbody : ∀ p ∈ responseFields requestId (storedResponse r) timestampUs
      (prepareResponseData r).isBinary (prepareResponseData r).contentType traceparentHeader,
      p.2.Plain F := by
    unfold responseFields
    refine List.forall_mem_append.mpr ⟨?_, ?_⟩
    · simp only [List.forall_mem_cons]
      exact ⟨.string _, .string _, .uint timestampUs.toNat_lt, .bool _, .string _,
        List.forall_mem_nil _⟩
    · split
      · exact List.forall_mem_nil _
      · exact List.forall_mem_singleton.mpr (.string _)
  have hstatus : Plain F (.int r.statusCode) := .int (by have := r.isInt; omega) (by
    have := r.isInt
    omega)
  unfold l2ResponseEnvelope buildNatsResponseEnvelope envelopeFields
  refine plainObject_of (List.forall_mem_append.mpr ⟨List.forall_mem_append.mpr ⟨?_, ?_⟩, ?_⟩)
  · exact List.forall_mem_singleton.mpr hstatus
  · split
    · exact List.forall_mem_nil _
    · exact List.forall_mem_singleton.mpr hheaders
  · exact List.forall_mem_singleton.mpr (plainObject_of hbody).plain

/-- What the vendored library writes out of a plain object, it reads back. -/
theorem parse_of_dump_plain {o : JsonObject} (hplain : PlainObject fmt.Exact o) {text : Bytes}
    (hdump : (nlohmann fmt what).dump (.object o.entries) = some text) :
    (nlohmann fmt what).parse text = .value (received o) :=
  JsonLibrary.RoundTrips.parse
    (roundTrips_nlohmann what
      (hplain.plain.storable ((nlohmann fmt what).allUtf8_of_dump hdump))) hdump

end Texts

/-! ## The steps -/

inductive ExchangeEvent where
  /-- A request of the poll reaches no worker. -/
  | undelivered
  /-- The worker takes the message of one, looks its id up, and on a miss asks the backend. -/
  | take (task : TaskChoices)
  /-- It stores the response, if it is a new one, and replies; the reply may be lost. -/
  | finish (storedAt : ℕ) (lost : Bool)
  /-- The lookup of another request at the same worker. -/
  | find (now : ℕ) (requestId : Bytes)
  /-- The store of another request. -/
  | store (now : ℕ) (requestId response : Bytes)

/-- A message that the worker has taken: the reply, and what is stored before it goes out. -/
structure TakenMessage where
  reply : Option Bytes
  stored : Option (Bytes × Bytes)

/-- The cache of the worker, the message that it has taken, the requests that the backend was
asked for with its answers, and what came back to the proxy for each request of the poll:
nothing, or a text. -/
structure ExchangeState where
  cache : DedupCache
  taken : Option TakenMessage
  calls : List (WorkerRequestData × Except Bytes L2Response)
  answers : List Bytes

/-- The text of a reply, if there is one. -/
def TaskOutcome.text : TaskOutcome → Option Bytes
  | .undefined => none
  | .done _ reply => reply.map Reply.text

section Steps

variable (json : JsonLibrary) (requestJson : Bytes)

/-- What the worker decodes from a message. -/
def decodedMessage (sentry : Bool) : Option WorkerRequestData :=
  match parseRequestData json sentry requestJson with
  | .accepted j => (decodeNatsRequest j).toOption
  | _ => none

/-- The envelope that `send_l2_response` stores. -/
def storedEnvelope (task : TaskChoices) (data : WorkerRequestData) : Option Bytes :=
  match task.executeL2Call data with
  | .error _ => none
  | .ok r =>
    json.dump (.object
      (l2ResponseEnvelope data.requestId (task.traceparentHeader data) task.timestampUs r).entries)

/-- The worker takes a message.  The reply is that of `process_request_from_nats`. -/
def takeMessage (task : TaskChoices) (s : ExchangeState) : ExchangeState :=
  let reply := (processRequestFromNats json task s.cache requestJson).text
  match decodedMessage json requestJson task.sentry with
  | none => { s with taken := some ⟨reply, none⟩ }
  | some data =>
    let found := DedupCache.find task.dedup task.now data.requestId s.cache
    match found.1 with
    | some _ => { s with cache := found.2, taken := some ⟨reply, none⟩ }
    | none =>
      { s with
        cache := found.2
        taken := some ⟨reply,
          (storedEnvelope json task data).map fun text => (data.requestId, text)⟩
        calls := s.calls ++ [(data, task.executeL2Call data)] }

/-- The worker is done with the message that it has taken. -/
def finishMessage (dedup : DedupConfig) (storedAt : ℕ) (lost : Bool) (s : ExchangeState)
    (taken : TakenMessage) : ExchangeState :=
  { s with
    cache :=
      match taken.stored with
      | some (requestId, text) => s.cache.store dedup storedAt requestId text
      | none => s.cache
    taken := none
    answers := s.answers ++ [if lost then [] else taken.reply.getD []] }

/-- One step.  The worker takes no message of the exchange before it is done with the last. -/
def exchangeStep (dedup : DedupConfig) (s : ExchangeState) : ExchangeEvent → Option ExchangeState
  | .undelivered => some { s with answers := s.answers ++ [[]] }
  | .take task =>
    match s.taken with
    | some _ => none
    | none => some (takeMessage json requestJson task s)
  | .finish storedAt lost => s.taken.map (finishMessage dedup storedAt lost s)
  | .find now requestId => some { s with cache := (s.cache.find dedup now requestId).2 }
  | .store now requestId response =>
    some { s with cache := s.cache.store dedup now requestId response }

end Steps

/-- The backend answers, with a response that can be written out. -/
def BackendAnswers (task : TaskChoices) : Prop :=
  ∀ data, isValidUtf8 (task.traceparentHeader data) = true ∧
    ∃ r, task.executeL2Call data = .ok r ∧ ∀ h ∈ r.headers, isValidUtf8 h.1 = true

/-- The entry of an id, if there is one, has not expired. -/
def Alive (requestId : Bytes) (now : ℕ) (s : ExchangeState) : Prop :=
  ∀ e, DedupCache.lookup s.cache.entries requestId = some e → now < e.expiresAtMs

/-- **The domain** of an exchange under an id: the cache and the monitoring are those of the
configuration, the backend answers, the entry of the id outlives the exchange, and the other
requests have other ids and find room in the cache. -/
def ExchangeDomain (dedup : DedupConfig) (sentry : Bool) (requestId : Bytes) (s : ExchangeState) :
    ExchangeEvent → Prop
  | .take task =>
    task.dedup = dedup ∧ task.sentry = sentry ∧ BackendAnswers task ∧ Alive requestId task.now s
  | .find _ requestId' => requestId' ≠ requestId
  | .store now requestId' _ =>
    requestId' ≠ requestId ∧ s.cache.HasRoom dedup ∧ Alive requestId now s
  | _ => True

/-! ## The invariant -/

/-- The text is the envelope of a response to a request. -/
def IsEnvelope (json : JsonLibrary) (data : WorkerRequestData) (r : L2Response) (text : Bytes) :
    Prop :=
  ∃ traceparentHeader timestampUs, json.dump (.object
    (l2ResponseEnvelope data.requestId traceparentHeader timestampUs r).entries) = some text

/-- How far an exchange has come. -/
inductive ExchangeInv (json : JsonLibrary) (data : WorkerRequestData) : ExchangeState → Prop
  /-- No worker has taken a message. -/
  | unasked {s : ExchangeState} : s.taken = none → s.calls = [] →
    DedupCache.lookup s.cache.entries data.requestId = none → (∀ a ∈ s.answers, a = []) →
    ExchangeInv json data s
  /-- The backend was asked, and its answer is not stored yet. -/
  | asked {s : ExchangeState} {r : L2Response} {text : Bytes} :
    IsEnvelope json data r text → s.calls = [(data, .ok r)] →
    s.taken = some ⟨some text, some (data.requestId, text)⟩ →
    (∀ a ∈ s.answers, a = []) → ExchangeInv json data s
  /-- Its answer is stored. -/
  | answered {s : ExchangeState} {r : L2Response} {text : Bytes} {e : DedupEntry} :
    IsEnvelope json data r text → s.calls = [(data, .ok r)] →
    s.taken = none ∨ s.taken = some ⟨some text, none⟩ →
    DedupCache.lookup s.cache.entries data.requestId = some e → e.response = text →
    (∀ a ∈ s.answers, a = [] ∨ a = text) → ExchangeInv json data s

/-- Another id is not touched by a lookup. -/
theorem lookup_find_of_ne {dedup : DedupConfig} {now : ℕ} {requestId requestId' : Bytes}
    (hne : requestId' ≠ requestId) (c : DedupCache) :
    DedupCache.lookup (c.find dedup now requestId').2.entries requestId =
      DedupCache.lookup c.entries requestId := by
  unfold DedupCache.find
  split
  · rfl
  · split
    · rfl
    · split
      · dsimp only
        rw [DedupCache.lookup_eraseKey, if_neg (Ne.symm hne)]
      · rfl

/-- A hit leaves the cache as it is. -/
theorem find_of_hit {dedup : DedupConfig} {now : ℕ} {requestId response : Bytes} {c : DedupCache}
    (h : (c.find dedup now requestId).1 = some response) :
    (c.find dedup now requestId).2 = c := by
  unfold DedupCache.find at h ⊢
  split
  · rfl
  · rename_i henabled
    rw [if_neg henabled] at h
    split
    · rfl
    · rename_i e he
      simp only [he] at h
      split
      · rename_i hexpired
        rw [if_pos hexpired] at h
        cases h
      · rfl

theorem find_of_lookup_none {dedup : DedupConfig} {now : ℕ} {requestId : Bytes} {c : DedupCache}
    (h : DedupCache.lookup c.entries requestId = none) :
    c.find dedup now requestId = (none, c) := by
  unfold DedupCache.find
  split
  · rfl
  · rw [h]

section Invariant

variable {json : JsonLibrary} {requestJson : Bytes} {dedup : DedupConfig} {sentry : Bool}
  {j : JsonValue} {data : WorkerRequestData} {task : TaskChoices} {s : ExchangeState}

theorem decodedMessage_eq (haccepted : parseRequestData json sentry requestJson = .accepted j)
    (hdecode : decodeNatsRequest j = .ok data) :
    decodedMessage json requestJson sentry = some data := by
  unfold decodedMessage
  rw [haccepted]
  show (decodeNatsRequest j).toOption = some data
  rw [hdecode]
  rfl

/-- The worker answers from the cache. -/
theorem takeMessage_of_hit (haccepted : parseRequestData json task.sentry requestJson = .accepted j)
    (hdecode : decodeNatsRequest j = .ok data) {text : Bytes}
    (hhit : (s.cache.find task.dedup task.now data.requestId).1 = some text) :
    takeMessage json requestJson task s = { s with taken := some ⟨some text, none⟩ } := by
  have hreply : (processRequestFromNats json task s.cache requestJson).text = some text := by
    unfold processRequestFromNats
    simp only [haccepted, hdecode, hhit]
    rfl
  unfold takeMessage
  rw [decodedMessage_eq haccepted hdecode, hreply]
  dsimp only
  rw [hhit, find_of_hit hhit]

/-- The worker asks the backend. -/
theorem takeMessage_of_miss
    (haccepted : parseRequestData json task.sentry requestJson = .accepted j)
    (hdecode : decodeNatsRequest j = .ok data)
    (hmiss : DedupCache.lookup s.cache.entries data.requestId = none) {r : L2Response}
    (hcall : task.executeL2Call data = .ok r) {text : Bytes}
    (htext : json.dump (.object (l2ResponseEnvelope data.requestId (task.traceparentHeader data)
      task.timestampUs r).entries) = some text) :
    takeMessage json requestJson task s =
      { s with
        taken := some ⟨some text, some (data.requestId, text)⟩
        calls := s.calls ++ [(data, .ok r)] } := by
  have hfind : s.cache.find task.dedup task.now data.requestId = (none, s.cache) :=
    find_of_lookup_none hmiss
  have hreply : (processRequestFromNats json task s.cache requestJson).text = some text := by
    unfold processRequestFromNats
    simp only [haccepted, hdecode, hfind]
    unfold sendL2Response writtenReply
    rw [hcall]
    dsimp only
    rw [htext]
    rfl
  have hstored : storedEnvelope json task data = some text := by
    unfold storedEnvelope
    rw [hcall]
    exact htext
  unfold takeMessage
  rw [decodedMessage_eq haccepted hdecode, hreply]
  dsimp only
  rw [hfind, hstored, hcall]
  rfl

/-- The envelope of an answer of the backend can be written out. -/
theorem BackendAnswers.exists_envelope (h : BackendAnswers task) (json : JsonLibrary)
    (hid : isValidUtf8 data.requestId = true) :
    ∃ r text, task.executeL2Call data = .ok r ∧
      json.dump (.object (l2ResponseEnvelope data.requestId (task.traceparentHeader data)
        task.timestampUs r).entries) = some text := by
  obtain ⟨htrace, r, hcall, hheaders⟩ := h data
  refine ⟨r, _, hcall, json.dump_of_allUtf8 ?_⟩
  exact (JsonObject.allUtf8_iff _).mpr
    ((utf8_l2ResponseEnvelope_iff _ _ _ r).mpr ⟨hid, htrace, hheaders⟩)

/-- What comes back of a reply. -/
theorem reply_or_lost (lost : Bool) (text : Bytes) :
    (if lost then [] else (some text).getD []) = [] ∨
      (if lost then [] else (some text).getD []) = text := by
  cases lost with
  | true => exact .inl rfl
  | false => exact .inr rfl

/-- **Each step keeps the invariant.** -/
theorem ExchangeInv.step (henabled : dedup.enabled = true)
    (haccepted : parseRequestData json sentry requestJson = .accepted j)
    (hdecode : decodeNatsRequest j = .ok data) (hid : isValidUtf8 data.requestId = true)
    {s' : ExchangeState} {e : ExchangeEvent} (h : ExchangeInv json data s)
    (hdomain : ExchangeDomain dedup sentry data.requestId s e)
    (hstep : exchangeStep json requestJson dedup s e = some s') : ExchangeInv json data s' := by
  cases e with
  | undelivered =>
    obtain rfl := Option.some.inj hstep
    cases h with
    | unasked htaken hcalls hlookup hanswers =>
      exact .unasked htaken hcalls hlookup
        (List.forall_mem_append.mpr ⟨hanswers, List.forall_mem_singleton.mpr rfl⟩)
    | asked henvelope hcalls htaken hanswers =>
      exact .asked henvelope hcalls htaken
        (List.forall_mem_append.mpr ⟨hanswers, List.forall_mem_singleton.mpr rfl⟩)
    | answered henvelope hcalls htaken hlookup hresponse hanswers =>
      exact .answered henvelope hcalls htaken hlookup hresponse
        (List.forall_mem_append.mpr ⟨hanswers, List.forall_mem_singleton.mpr (.inl rfl)⟩)
  | take task =>
    obtain ⟨hdedup, hsentry, hbackend, halive⟩ := hdomain
    subst hdedup hsentry
    cases h with
    | unasked htaken hcalls hlookup hanswers =>
      obtain ⟨r, text, hcall, htext⟩ := hbackend.exists_envelope json hid
      unfold exchangeStep at hstep
      rw [htaken] at hstep
      obtain rfl := Option.some.inj hstep
      rw [takeMessage_of_miss haccepted hdecode hlookup hcall htext]
      refine .asked ⟨_, _, htext⟩ ?_ rfl hanswers
      rw [hcalls]
      rfl
    | asked _ _ htaken _ =>
      unfold exchangeStep at hstep
      rw [htaken] at hstep
      cases hstep
    | @answered r text entry henvelope hcalls htaken hlookup hresponse hanswers =>
      rcases htaken with htaken | htaken
      · have hhit : (s.cache.find task.dedup task.now data.requestId).1 = some text :=
          (DedupCache.find_eq_some_iff henabled _ _ _ _).mpr
            ⟨entry, hlookup, halive entry hlookup, hresponse⟩
        unfold exchangeStep at hstep
        rw [htaken] at hstep
        obtain rfl := Option.some.inj hstep
        rw [takeMessage_of_hit haccepted hdecode hhit]
        exact .answered henvelope hcalls (.inr rfl) hlookup hresponse hanswers
      · unfold exchangeStep at hstep
        rw [htaken] at hstep
        cases hstep
  | finish storedAt lost =>
    cases h with
    | unasked htaken _ _ _ =>
      unfold exchangeStep at hstep
      rw [htaken] at hstep
      cases hstep
    | @asked r text henvelope hcalls htaken hanswers =>
      unfold exchangeStep at hstep
      rw [htaken] at hstep
      obtain rfl := Option.some.inj hstep
      refine .answered henvelope hcalls (.inl rfl)
        (DedupCache.lookup_store_self henabled storedAt data.requestId text s.cache) rfl ?_
      refine List.forall_mem_append.mpr ⟨fun a ha => .inl (hanswers a ha), ?_⟩
      exact List.forall_mem_singleton.mpr (reply_or_lost lost text)
    | @answered r text entry henvelope hcalls htaken hlookup hresponse hanswers =>
      rcases htaken with htaken | htaken
      · unfold exchangeStep at hstep
        rw [htaken] at hstep
        cases hstep
      · unfold exchangeStep at hstep
        rw [htaken] at hstep
        obtain rfl := Option.some.inj hstep
        refine .answered henvelope hcalls (.inl rfl) hlookup hresponse
          (List.forall_mem_append.mpr ⟨hanswers, ?_⟩)
        exact List.forall_mem_singleton.mpr (reply_or_lost lost text)
  | find now requestId =>
    obtain rfl := Option.some.inj hstep
    have hkept : DedupCache.lookup (s.cache.find dedup now requestId).2.entries data.requestId =
        DedupCache.lookup s.cache.entries data.requestId := lookup_find_of_ne hdomain s.cache
    cases h with
    | unasked htaken hcalls hlookup hanswers =>
      exact .unasked htaken hcalls (hkept.trans hlookup) hanswers
    | asked henvelope hcalls htaken hanswers => exact .asked henvelope hcalls htaken hanswers
    | answered henvelope hcalls htaken hlookup hresponse hanswers =>
      exact .answered henvelope hcalls htaken (hkept.trans hlookup) hresponse hanswers
  | store now requestId response =>
    obtain ⟨hne, hroom, halive⟩ := hdomain
    obtain rfl := Option.some.inj hstep
    obtain ⟨-, hkept, hfrom⟩ :=
      DedupCache.lookup_store henabled now requestId response hroom data.requestId
    cases h with
    | unasked htaken hcalls hlookup hanswers =>
      refine .unasked htaken hcalls ?_ hanswers
      refine Option.eq_none_iff_forall_ne_some.mpr fun entry hentry => ?_
      exact Option.some_ne_none entry ((hfrom hne.symm entry hentry).symm.trans hlookup)
    | asked henvelope hcalls htaken hanswers => exact .asked henvelope hcalls htaken hanswers
    | @answered r text entry henvelope hcalls htaken hlookup hresponse hanswers =>
      exact .answered henvelope hcalls htaken
        (hkept hne.symm entry hlookup (halive entry hlookup)) hresponse hanswers

end Invariant

/-! ## The exchange -/

/-- The state in which an exchange begins. -/
def ExchangeState.initial (cache : DedupCache) : ExchangeState where
  cache := cache
  taken := none
  calls := []
  answers := []

/-- What a worker decodes is the client's request. -/
structure IsRequestOf (env : HandlerChoices) (method : Method) (body : Bytes) (req : Request)
    (data : WorkerRequestData) : Prop where
  requestId : data.requestId = env.requestId.bytes
  method : data.method = method.text
  path : data.path = req.path
  query : data.query = extractQueryString req
  body : data.body = body
  clientIp : data.clientIp = extractClientIp req
  proxyIp : data.proxyIp = req.localAddr.bytes

/-- The proxy answers the client with a response of the backend: its status and its body. -/
def AnswersWith (json : JsonLibrary) (requestId reply : Bytes) (r : L2Response) : Prop :=
  ∃ j client, json.parse reply = .value j ∧ setResponseContent json requestId j = some client ∧
    client.status = r.statusCode ∧ client.body = r.body

/-- The reply that a poll comes to is one of those to its requests. -/
theorem mem_of_firstReply {outcome o : PollOutcome} {rs : List (Except Text PollOutcome)}
    (houtcome : outcome.data = []) (h : firstReply outcome rs = .ok o) (hdata : o.data ≠ []) :
    .ok o ∈ rs := by
  induction rs generalizing outcome with
  | nil =>
    obtain rfl := Except.ok.inj h
    exact absurd houtcome hdata
  | cons r rs ih =>
    cases r with
    | error what => cases h
    | ok first =>
      rw [firstReply] at h
      split at h
      · rename_i hempty
        exact List.mem_cons_of_mem _ (ih (List.isEmpty_iff.mp hempty) h)
      · rw [h]
        exact List.mem_cons_self

section Exchange

variable {fmt : Lexer.FloatText} {what : Bytes → Text}

/-- An envelope answers the client with its response. -/
theorem IsEnvelope.answersWith {data : WorkerRequestData} {r : L2Response} {text : Bytes}
    (h : IsEnvelope (nlohmann fmt what) data r text) (requestId : Bytes) :
    AnswersWith (nlohmann fmt what) requestId text r := by
  obtain ⟨traceparentHeader, timestampUs, hdump⟩ := h
  exact ⟨_, _, parse_of_dump_plain (plain_l2ResponseEnvelope _ _ _ _) hdump,
    setResponseContent_received data.requestId traceparentHeader timestampUs r _ requestId, rfl,
    rfl⟩

/-- What a worker decodes from the text of a request. -/
theorem exists_decoded {env : HandlerChoices} {method : Method} {body : Bytes} {req : Request}
    {tracer sentry : Bool} {text : Bytes} {j : JsonValue} (hclock : (env.now 2).toNat < 2 ^ 63)
    (hpush : pushRequest (nlohmann fmt what) env method body req tracer = some text)
    (haccepted : parseRequestData (nlohmann fmt what) sentry text = .accepted j) :
    ∃ data, decodeNatsRequest j = .ok data ∧ IsRequestOf env method body req data := by
  have hparse : (nlohmann fmt what).parse text =
      .value (received (requestEnvelope (nlohmann fmt what) env method body req tracer)) :=
    parse_of_dump_plain (plain_requestEnvelope hclock) hpush
  unfold parseRequestData at haccepted
  rw [hparse] at haccepted
  obtain ⟨rfl, -⟩ := validate_of_checkRequest haccepted
  obtain ⟨data, hdecode, hid, hmethod, hpath, hquery, hbody, hclient, hproxy⟩ :=
    (@carries_requestEnvelope (nlohmann fmt what) env method body req tracer).decode
  exact ⟨data, hdecode, hid, hmethod, hpath, hquery, hbody, hclient, hproxy⟩

/-- The worker accepts a request whose path and body are within its limits. -/
theorem exists_accepted {env : HandlerChoices} {method : Method} {body : Bytes} {req : Request}
    {tracer : Bool} {text : Bytes} (hclock : (env.now 2).toNat < 2 ^ 63)
    (hpush : pushRequest (nlohmann fmt what) env method body req tracer = some text)
    (hpath : req.path.length ≤ validatorDefaultMaxPathLength)
    (hbody : body.length ≤ maxBinaryBodyBytes) (sentry : Bool) :
    ∃ j, parseRequestData (nlohmann fmt what) sentry text = .accepted j := by
  have hparse : (nlohmann fmt what).parse text =
      .value (received (requestEnvelope (nlohmann fmt what) env method body req tracer)) :=
    parse_of_dump_plain (plain_requestEnvelope hclock) hpush
  have hcarries := @carries_requestEnvelope (nlohmann fmt what) env method body req tracer
  have hvalidate : createStandardRequestValidator.validate
      (received (requestEnvelope (nlohmann fmt what) env method body req tracer)) = .ok () := by
    rcases hcarries.body with ⟨hfind, -⟩ | ⟨hfind, -⟩
    · exact (validate_received_iff hcarries.requestId hcarries.method hcarries.path hpath
        hfind).mpr ((length_toBase64_le_iff body).mpr hbody)
    · exact (validate_received_iff hcarries.requestId hcarries.method hcarries.path hpath
        hfind).mpr (Nat.le_trans hbody (by decide))
  refine ⟨received (requestEnvelope (nlohmann fmt what) env method body req tracer), ?_⟩
  unfold parseRequestData
  rw [hparse]
  dsimp only
  unfold checkRequest
  rw [hvalidate]
  dsimp only
  rw [find_received_string hcarries.method]
  dsimp only
  refine if_neg ?_
  cases method <;> decide

end Exchange

/-- A poll whose first request is answered with a text. -/
def answeredPoll (text : Bytes) : PollChoices where
  connected := true
  connects := true
  connectNs := 0
  reply := fun _ => .ok ⟨text, ⟨[], isValidUtf8_nil⟩⟩
  requestNs := fun _ => 0
  lastError := []
  lateNs := 0

theorem replies_answeredPoll {text : Bytes} (h : text ≠ []) :
    replies (pollUntilDeadline (fun _ => answeredPoll text) 0 1000).1.flatten =
      [.ok ⟨text, ⟨[], isValidUtf8_nil⟩⟩] := by
  have hturn : pollTurn (0 + 1000 * nsPerMilli) (fun _ => answeredPoll text) (.initial 0) =
      ([.request 0 1000 (.ok ⟨text, ⟨[], isValidUtf8_nil⟩⟩), .attemptDone 0],
        .inr ⟨0, .ok ⟨text, ⟨[], isValidUtf8_nil⟩⟩⟩) := by
    unfold pollTurn pollEnsureConnected answeredPoll PollState.initial
    simp [nsPerMilli_eq, pollNotifyResend, h]
  have hbefore : (pollLoop (0 + 1000 * nsPerMilli) fun _ => answeredPoll text).clock (.initial 0) <
      0 + 1000 * nsPerMilli := by
    show 0 < 0 + 1000 * nsPerMilli
    rw [nsPerMilli_eq]
    decide
  unfold pollUntilDeadline
  rw [DeadlineLoop.Loop.run_of_inr hbefore hturn]
  rfl

/-- The library of the example. -/
def exampleJson : JsonLibrary := nlohmann oneAndAHalf fun _ => ⟨[], isValidUtf8_nil⟩

end Transport
end HttpDataDiod
