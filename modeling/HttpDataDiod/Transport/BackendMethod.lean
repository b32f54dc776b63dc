import HttpDataDiod.Http.TransportBinding
import HttpDataDiod.Transport.NatsTraffic
import HttpDataDiod.Worker.L2Call

/-!
# The method of the backend's request

A client's method goes through the proxy, the envelope and the worker as a word;
`execute_l2_call_with_retry` calls `post` or `get` by it.  Behind these two there is
one `execute_request`, which looks at the body again: an empty one makes a GET.

* `executeHttpCommandWithStatus`: one attempt, on whichever client the pool hands out.
* `sentRequests`: what a call sends, over all its attempts.
* `Published.decoded`: the worker decodes the method and the body of the client.
* `KeepsMethod`, `keepsMethod_iff`: every request sent for a client has its method and
  its body exactly when the client's request is no POST without a body, or nothing is
  sent for it.
-/

namespace HttpDataDiod
namespace Transport

open ByteText JsonValue Proxy Worker Tracing Routing NatsContract
open Http (HttpClient HttpResponse SentRequest L2Call callBody sendCall requestUrl ValidPort)

/-! ## One attempt -/

/-- What an attempt takes from outside: the client that `acquire_connection` returns or
the text of its exception, the clock, and the answer of the network. -/
structure AttemptChoices where
  acquired : Except Bytes (Option HttpClient)
  now : ℕ
  answer : Except Bytes HttpResponse

/-- `execute_http_command_with_status`: what goes out, and the response with the status
code of the client, or the text of the exception. -/
def executeHttpCommandWithStatus (url : Bytes) (call : L2Call) (env : AttemptChoices) :
    Option SentRequest × Except Bytes (HttpResponse × ℤ) :=
  match env.acquired with
  | .error what => (none, .error what)
  | .ok none =>
    (none, .error (ascii "Failed to acquire valid HTTP connection - connection is null"))
  | .ok (some c) =>
    if !c.isValid then
      (none, .error (ascii "Failed to acquire valid HTTP connection - connection is invalid"))
    else
      let r := sendCall c (requestUrl url call.query) call env.now env.answer
      (r.sent, r.result.map fun response => (response, r.client.lastStatusCode))

/-- How the attempt ends for the loop. -/
def attemptOutcome (url : Bytes) (call : L2Call) (env : AttemptChoices) : AttemptOutcome :=
  match (executeHttpCommandWithStatus url call env).2 with
  | .ok (response, _) => .response response
  | .error what => .exception what

/-- The requests that a call of `execute_l2_call_with_retry` sends. -/
def sentRequests (cb : CircuitBreaker) (askedAt : ℕ) (url : Bytes) (maxRetries : ℕ)
    (call : L2Call) (env : ℕ → AttemptChoices) : List SentRequest :=
  (executeL2CallTraced cb askedAt url maxRetries
      fun n => attemptOutcome url call (env n)).1.made.filterMap
    fun n => (executeHttpCommandWithStatus url call (env n)).1

/-- The attempt gets a valid client and a URL that it can be sent to. -/
def CanSend (url : Bytes) (call : L2Call) (env : AttemptChoices) : Prop :=
  ∃ c p, env.acquired = .ok (some c) ∧ c.isValid = true ∧
    parseUrl (requestUrl url call.query) = .ok p ∧
    (c.transport p.isHttps ≠ none ∨ ValidPort p.port)

section Attempt

variable {url : Bytes} {call : L2Call} {env : AttemptChoices}

/-- **The ways through an attempt.**  There is no valid client, and the attempt ends with
an exception; or it is what the client makes of it. -/
theorem executeHttpCommandWithStatus_cases (url : Bytes) (call : L2Call) (env : AttemptChoices) :
    ((∀ c, env.acquired = .ok (some c) → c.isValid = false) ∧
      ∃ what, executeHttpCommandWithStatus url call env = (none, .error what)) ∨
    ∃ c, env.acquired = .ok (some c) ∧ c.isValid = true ∧
      executeHttpCommandWithStatus url call env =
        let r := sendCall c (requestUrl url call.query) call env.now env.answer
        (r.sent, r.result.map fun response => (response, r.client.lastStatusCode)) := by
  unfold executeHttpCommandWithStatus
  cases env.acquired with
  | error what => exact Or.inl ⟨fun c hc => (by cases hc), what, rfl⟩
  | ok acquired =>
    cases acquired with
    | none => exact Or.inl ⟨fun c hc => (by cases hc), _, rfl⟩
    | some c =>
      cases hvalid : c.isValid with
      | false =>
        refine Or.inl ⟨fun d hd => ?_, _, if_pos (by rw [hvalid]; rfl)⟩
        rw [← Option.some.inj (Except.ok.inj hd)]
        exact hvalid
      | true => exact Or.inr ⟨c, rfl, hvalid, if_neg (by rw [hvalid]; decide)⟩

/-- The status code that the loop looks at is the one of the response. -/
theorem status_executeHttpCommandWithStatus {response : HttpResponse} {code : ℤ}
    (h : (executeHttpCommandWithStatus url call env).2 = .ok (response, code)) :
    code = response.status := by
  rcases executeHttpCommandWithStatus_cases url call env with ⟨-, what, heq⟩ | ⟨c, -, -, heq⟩
  · rw [heq] at h
    cases h
  · rw [heq] at h
    simp only at h
    cases hresult : (sendCall c (requestUrl url call.query) call env.now env.answer).result with
    | error e =>
      rw [hresult] at h
      cases h
    | ok r =>
      rw [hresult] at h
      obtain ⟨rfl, rfl⟩ := Prod.mk.inj (Except.ok.inj h)
      exact HttpClient.send_lastStatusCode hresult

/-- What goes out has the method that its body stands for. -/
theorem executeHttpCommandWithStatus_sent {s : SentRequest}
    (h : (executeHttpCommandWithStatus url call env).1 = some s) :
    s.method = (if callBody call = [] then .get else .post) ∧ s.body = callBody call := by
  rcases executeHttpCommandWithStatus_cases url call env with ⟨-, what, heq⟩ | ⟨c, -, -, heq⟩
  · rw [heq] at h
    cases h
  · rw [heq] at h
    exact HttpClient.send_sent h

/-- An attempt sends exactly when it can. -/
theorem exists_sent_iff :
    (∃ s, (executeHttpCommandWithStatus url call env).1 = some s) ↔ CanSend url call env := by
  rcases executeHttpCommandWithStatus_cases url call env with
    ⟨hinvalid, what, heq⟩ | ⟨c, hc, hvalid, heq⟩
  · rw [heq]
    refine iff_of_false (fun ⟨s, hs⟩ => (by cases hs)) ?_
    rintro ⟨c, p, hc, hvalid, -⟩
    rw [hinvalid c hc] at hvalid
    cases hvalid
  · rw [heq]
    refine HttpClient.exists_send_sent_iff.trans ⟨?_, ?_⟩
    · rintro ⟨p, hp, hcan⟩
      exact ⟨c, p, hc, hvalid, hp, hcan⟩
    · rintro ⟨c', p, hc', -, hp, hcan⟩
      obtain rfl : c = c' := Option.some.inj (Except.ok.inj (hc.symm.trans hc'))
      exact ⟨p, hp, hcan⟩

/-- An attempt that sends nothing ends with an exception, and so may be retried. -/
theorem retryable_of_not_sent (h : (executeHttpCommandWithStatus url call env).1 = none) :
    (attemptOutcome url call env).retryable = true := by
  unfold attemptOutcome
  rcases executeHttpCommandWithStatus_cases url call env with ⟨-, what, heq⟩ | ⟨c, -, -, heq⟩
  · rw [heq]
    rfl
  · rw [heq] at h ⊢
    obtain ⟨e, he⟩ := HttpClient.send_of_sent_eq_none h
    simp only [sendCall, he]
    rfl

end Attempt

/-! ## All attempts of a call -/

section Call

variable {cb : CircuitBreaker} {askedAt : ℕ} {url : Bytes} {maxRetries : ℕ} {call : L2Call}
  {env : ℕ → AttemptChoices}

/-- Every request of a call has the method that its body stands for, and is sent by an
attempt within the bound of an admitted call. -/
theorem of_mem_sentRequests {s : SentRequest}
    (h : s ∈ sentRequests cb askedAt url maxRetries call env) :
    s.method = (if callBody call = [] then .get else .post) ∧ s.body = callBody call ∧
      (cb.allowRequest askedAt).1 = true ∧
      ∃ n, 1 ≤ n ∧ n ≤ maxRetries ∧ CanSend url call (env n) := by
  obtain ⟨n, hmade, hsent⟩ := List.mem_filterMap.mp h
  obtain ⟨hmethod, hbody⟩ := executeHttpCommandWithStatus_sent hsent
  obtain ⟨hallow, hn, hle⟩ := of_mem_made hmade
  exact ⟨hmethod, hbody, hallow, n, hn, hle, exists_sent_iff.mp ⟨s, hsent⟩⟩

/-- If an attempt within the bound can send, the call sends something: the attempts before
that one are retried unless they have sent something themselves. -/
theorem exists_mem_sentRequests (hallow : (cb.allowRequest askedAt).1 = true) {n : ℕ}
    (hn : 1 ≤ n) (hle : n ≤ maxRetries) (hcan : CanSend url call (env n)) :
    ∃ s, s ∈ sentRequests cb askedAt url maxRetries call env := by
  have hcontract := retryContract_of_pos hallow url (hn.trans hle)
    fun n => attemptOutcome url call (env n)
  obtain ⟨hpos, -⟩ := hcontract.attempted rfl
  have hstop := hcontract.settled rfl
  unfold sentRequests
  rw [hcontract.numbered]
  generalize (executeL2CallTraced cb askedAt url maxRetries
    fun n => attemptOutcome url call (env n)).1.made.length = k at hpos hstop ⊢
  have hsends : ∀ m, 1 ≤ m → m ≤ k → ∀ s,
      (executeHttpCommandWithStatus url call (env m)).1 = some s →
      ∃ s, s ∈ (attemptSequence k).filterMap
        fun n => (executeHttpCommandWithStatus url call (env n)).1 := by
    intro m hm hmk s hs
    refine ⟨s, List.mem_filterMap.mpr ⟨m, ?_, hs⟩⟩
    exact List.mem_range'_1.mpr ⟨hm, by omega⟩
  by_cases hnk : n ≤ k
  · obtain ⟨s, hs⟩ := exists_sent_iff.mpr hcan
    exact hsends n hn hnk s hs
  · -- the last attempt came before: it was not retried, so it has sent something
    cases hs : (executeHttpCommandWithStatus url call (env k)).1 with
    | none => exact absurd ⟨retryable_of_not_sent hs, by omega⟩ hstop
    | some s => exact hsends k hpos le_rfl s hs

end Call

/-! ## From the client to the backend -/

/-- The body that the handler of a method passes on; `handle_get` passes none. -/
def clientBody (method : Method) (req : Request) : Bytes :=
  match method with
  | .get => []
  | .post => req.body

/-- The proxy publishes the request on the main subject, and the worker accepts and
decodes what it gets. -/
def Delivered (json : JsonLibrary) (tracer : Bool) (cfg : ProxyConfig) (env : HandlerChoices)
    (sent : ℕ) (method : Method) (req : Request) (sentry : Bool) (data : WorkerRequestData) :
    Prop :=
  ∃ text j, .publish .nats text ∈ natsTraffic json tracer cfg env sent method req ∧
    parseRequestData json sentry text = .accepted j ∧ decodeNatsRequest j = .ok data

/-- The call of `execute_l2_call` for a decoded request; the tracing decides on the
`traceparent`. -/
def l2Call (data : WorkerRequestData) (traceparent : Bytes) : L2Call where
  path := data.path
  query := data.query
  method := data.method
  body := data.body
  traceparent := traceparent
  headers := data.forwardedHeaders

/-- **The method is kept**: a POST goes out as a POST with exactly this body, a GET as a
GET. -/
def KeepsMethod (method : Method) (body : Bytes) (s : SentRequest) : Prop :=
  match method with
  | .get => s.method = .get
  | .post => s.method = .post ∧ s.body = body

/-- What the main path publishes is the request written out. -/
theorem pushRequest_of_mem_natsTraffic {json : JsonLibrary} {tracer : Bool} {cfg : ProxyConfig}
    {env : HandlerChoices} {sent : ℕ} {method : Method} {req : Request} {text : Bytes}
    (h : .publish .nats text ∈ natsTraffic json tracer cfg env sent method req) :
    pushRequest json env method (clientBody method req) req tracer = some text := by
  have hgateway : ∀ body, .publish .nats text ∉
      gatewayTraffic json tracer cfg env sent method body req := by
    intro body hmem
    obtain ⟨-, text', -, -, heq⟩ := exists_of_mem_gatewayTraffic hmem
    cases heq
  cases method with
  | get =>
    simp only [natsTraffic] at h
    split at h
    · exact absurd h List.not_mem_nil
    · split at h
      · exact absurd h (hgateway _)
      · exact pushRequest_of_mem_requestTraffic h
  | post =>
    simp only [natsTraffic] at h
    split at h
    · exact absurd h (hgateway _)
    · split at h
      · exact absurd h List.not_mem_nil
      · exact pushRequest_of_mem_requestTraffic h

/-- **The worker knows the client's method and body.** -/
theorem Delivered.decoded {json : JsonLibrary} {tracer : Bool} {cfg : ProxyConfig}
    {env : HandlerChoices} {sent : ℕ} {method : Method} {req : Request} {sentry : Bool}
    {data : WorkerRequestData} (h : Delivered json tracer cfg env sent method req sentry data)
    (hround : json.RoundTrips
      (.object (requestEnvelope json env method (clientBody method req) req tracer).entries)) :
    data.method = method.text ∧ data.body = clientBody method req := by
  obtain ⟨text, j, hpublished, haccepted, hdecoded⟩ := h
  exact decoded_of_pushRequest hround (pushRequest_of_mem_natsTraffic hpublished) haccepted hdecoded

/-- The body that goes to the client is the one of the request. -/
theorem callBody_l2Call {data : WorkerRequestData} {method : Method} {req : Request}
    (hmethod : data.method = method.text) (hbody : data.body = clientBody method req)
    (traceparent : Bytes) : callBody (l2Call data traceparent) = clientBody method req := by
  unfold callBody l2Call
  rw [hmethod, hbody]
  cases method with
  | get => exact if_neg (show Method.get.text ≠ ascii "POST" by decide)
  | post => exact if_pos rfl

/-- **When the method is kept.**  For every request that the proxy admits and the worker
accepts, and however the attempts of its call go: what the call sends has the client's
method and the decoded body, unless the request is a POST without a body and the call
sends anything at all. -/
theorem keepsMethod_iff (json : JsonLibrary) (tracer : Bool) (cfg : ProxyConfig)
    (env : HandlerChoices) (sent : ℕ) (method : Method) (req : Request) (sentry : Bool)
    (data : WorkerRequestData)
    (hround : json.RoundTrips
      (.object (requestEnvelope json env method (clientBody method req) req tracer).entries))
    (hdelivered : Delivered json tracer cfg env sent method req sentry data)
    (cb : CircuitBreaker) (askedAt : ℕ) (url traceparent : Bytes) (maxRetries : ℕ)
    (attempts : ℕ → AttemptChoices) :
    (∀ s ∈ sentRequests cb askedAt url maxRetries (l2Call data traceparent) attempts,
        KeepsMethod method data.body s) ↔
      ¬ (method = .post ∧ req.body = [] ∧ (cb.allowRequest askedAt).1 = true ∧
        ∃ n, 1 ≤ n ∧ n ≤ maxRetries ∧ CanSend url (l2Call data traceparent) (attempts n)) := by
  obtain ⟨hmethod, hbody⟩ := hdelivered.decoded hround
  have hcall := callBody_l2Call hmethod hbody traceparent
  rw [hbody]
  constructor
  · rintro hkept ⟨rfl, hempty, hallow, n, hn, hle, hcan⟩
    obtain ⟨s, hs⟩ := exists_mem_sentRequests hallow hn hle hcan
    obtain ⟨hget, -⟩ := of_mem_sentRequests hs
    obtain ⟨hpost, -⟩ := hkept s hs
    rw [hcall, if_pos (show clientBody .post req = [] from hempty), hpost] at hget
    cases hget
  · intro hnot s hs
    obtain ⟨hsent, hsentBody, hallow, hcan⟩ := of_mem_sentRequests hs
    rw [hcall] at hsent hsentBody
    cases method with
    | get => exact hsent
    | post =>
      have hne : clientBody .post req ≠ [] := fun hempty => hnot ⟨rfl, hempty, hallow, hcan⟩
      rw [if_neg hne] at hsent
      exact ⟨hsent, hsentBody⟩

/-- A POST to `/api` with a body. -/
def plainPost (body : Bytes) : Request := { sampleRequest with target := ascii "/api", body }

/-- Its envelope. -/
def plainPostEnvelope (body : Bytes) : JsonValue :=
  .object [(kBody, .string body), (kClientIp, .string (ascii "10.0.0.1")),
    (kMethod, .string (ascii "POST")), (kPath, .string (ascii "/api")),
    (kProxyIp, .string (ascii "10.0.0.2")), (kProxySpanId, .string []),
    (kProxyTraceId, .string []), (kQuery, .string []), (kRequestId, .string []),
    (kTimestamp, .int 0), (kTraceparent, .string [])]

/-- What the worker decodes from it. -/
def plainPostData (body : Bytes) : WorkerRequestData where
  requestId := []
  path := ascii "/api"
  query := []
  method := ascii "POST"
  body := body
  clientIp := ascii "10.0.0.1"
  proxyIp := ascii "10.0.0.2"
  traceparent := []
  proxyTraceparent := []
  proxySpanId := []
  forwardedHeaders := []

theorem decodeNatsRequest_plainPostEnvelope (body : Bytes) :
    decodeNatsRequest (plainPostEnvelope body).wire = .ok (plainPostData body) := by
  rfl

/-- The text of the envelope, for a body that needs no escapes. -/
def plainPostBytes (body : Bytes) : Bytes :=
  ascii "\x7b\"body\":\"" ++ body ++ ascii "\",\"client_ip\":\"10.0.0.1\"," ++
    ascii "\"method\":\"POST\"," ++ ascii "\"path\":\"/api\"," ++
    ascii "\"proxy_ip\":\"10.0.0.2\"," ++ ascii "\"proxy_span_id\":\"\"," ++
    ascii "\"proxy_trace_id\":\"\"," ++ ascii "\"query\":\"\"," ++
    ascii "\"request_id\":\"\"," ++ ascii "\"timestamp\":0," ++
    ascii "\"traceparent\":\"\"\x7d"

/-- An attempt on a new client that the backend answers with 200. -/
def freshAttempt : AttemptChoices where
  acquired := .ok (some (HttpClient.create 0))
  now := 0
  answer := .ok { body := [], headers := [], status := 200 }

def onePostText : Text where
  bytes := plainPostBytes (ascii "1")
  valid := by decide +kernel

/-- A library that knows the envelope of a POST with the body `1`, and reads that body. -/
def onePostJson : JsonLibrary :=
  (JsonLibrary.single (plainPostEnvelope (ascii "1")) onePostText).reading (ascii "1")
    (.value (.uint 1))

theorem roundTrips_onePostJson : onePostJson.RoundTrips (plainPostEnvelope (ascii "1")) :=
  (JsonLibrary.roundTrips_single (plainPostEnvelope (ascii "1")) onePostText).reading
    (by decide +kernel) _

theorem delivered_onePost :
    Delivered onePostJson false limitedProxy (sampledChoices true true) 1 .post
      (plainPost (ascii "1")) false (plainPostData (ascii "1")) := by
  refine ⟨onePostText.bytes, _, ?_, ?_, decodeNatsRequest_plainPostEnvelope _⟩
  · decide +kernel
  · have hparse : onePostJson.parse onePostText.bytes =
        .value (plainPostEnvelope (ascii "1")).wire := roundTrips_onePostJson
    rw [parseRequestData, hparse]
    rfl

/-- The POST with the body `1` goes out as a POST with this body. -/
theorem keepsMethod_onePost :
    (sentRequests .initial 0 (ascii "http://l2:8080/api") 1 (l2Call (plainPostData (ascii "1")) [])
      fun _ => freshAttempt).length = 1 ∧
    ∀ s ∈ sentRequests .initial 0 (ascii "http://l2:8080/api") 1
        (l2Call (plainPostData (ascii "1")) []) fun _ => freshAttempt,
      KeepsMethod .post (ascii "1") s := by
  have hround : onePostJson.RoundTrips (.object (requestEnvelope onePostJson
      (sampledChoices true true) .post (clientBody .post (plainPost (ascii "1")))
      (plainPost (ascii "1")) false).entries) := roundTrips_onePostJson
  refine ⟨by decide +kernel, ?_⟩
  refine (keepsMethod_iff onePostJson false limitedProxy (sampledChoices true true) 1 .post
    (plainPost (ascii "1")) false (plainPostData (ascii "1")) hround delivered_onePost .initial 0
    (ascii "http://l2:8080/api") [] 1 fun _ => freshAttempt).mpr ?_
  rintro ⟨-, hempty, -⟩
  exact absurd hempty (by decide)

def emptyPostText : Text where
  bytes := plainPostBytes []
  valid := by decide +kernel

/-- A library that knows the envelope of a POST without a body. -/
def emptyPostJson : JsonLibrary := JsonLibrary.single (plainPostEnvelope []) emptyPostText

/-- **A POST without a body goes out as a GET.** -/
theorem emptyPost_sent_as_get :
    Delivered emptyPostJson false limitedProxy (sampledChoices true true) 1 .post (plainPost [])
      false (plainPostData []) ∧
    (sentRequests .initial 0 (ascii "http://l2:8080/api") 1 (l2Call (plainPostData []) [])
      fun _ => freshAttempt).map (·.method) = [.get] ∧
    ¬ ∀ s ∈ sentRequests .initial 0 (ascii "http://l2:8080/api") 1 (l2Call (plainPostData []) [])
        fun _ => freshAttempt, KeepsMethod .post [] s := by
  have hmethods : (sentRequests .initial 0 (ascii "http://l2:8080/api") 1
      (l2Call (plainPostData []) []) fun _ => freshAttempt).map (·.method) = [.get] := by
    decide +kernel
  refine ⟨⟨emptyPostText.bytes, _, ?_, ?_, decodeNatsRequest_plainPostEnvelope []⟩, hmethods,
    fun h => ?_⟩
  · decide +kernel
  · have hparse : emptyPostJson.parse emptyPostText.bytes =
        .value (plainPostEnvelope []).wire :=
      JsonLibrary.roundTrips_single (plainPostEnvelope []) emptyPostText
    rw [parseRequestData, hparse]
    rfl
  · have hmem : Http.Method.get ∈ (sentRequests .initial 0 (ascii "http://l2:8080/api") 1
        (l2Call (plainPostData []) []) fun _ => freshAttempt).map (·.method) := by
      rw [hmethods]
      exact List.mem_singleton_self _
    obtain ⟨s, hs, hget⟩ := List.mem_map.mp hmem
    exact absurd ((h s hs).1.symm.trans hget) (by decide)

end Transport
end HttpDataDiod
