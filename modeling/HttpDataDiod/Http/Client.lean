import HttpDataDiod.Routing.ParseUrl

/-!
# The HTTP client

Model of `HttpClient` of `http_client.cpp`.  A client keeps at most one plain
and one TLS transport; a transport is bound to the host and port of the request
that created it, and every later request of the same scheme uses it again.

* `HttpClient`, `prepareRequest`, `executeRequest`, `send`: the client, and the
  path of one `get` or `post` through it.  What the network answers is an
  argument.
* `send_cases`: the ways through a request, and the transport each goes out on.
* `send_sent`, `exists_send_sent_iff`: what goes out, and when.
-/

namespace HttpDataDiod
namespace Http

open ByteText Routing

/-- The host and port a transport is bound to. -/
structure Endpoint where
  host : Bytes
  port : ℤ
  deriving DecidableEq

/-- `httplib::Headers`, as the pairs in the order of insertion. -/
abbrev Headers := List (Bytes × Bytes)

/-- `HttpResponse`. -/
structure HttpResponse where
  body : Bytes
  headers : Headers
  status : ℤ

/-- `HttpClient`: its two transports, its state, and the flag of the pool.  The
serial number stands for the object's identity; the pool hands it out. -/
structure HttpClient where
  serial : ℕ
  client : Option Endpoint
  sslClient : Option Endpoint
  lastStatusCode : ℤ
  isValid : Bool
  lastUsed : ℕ
  poolLeased : Bool

/-- A request as `prepare_request` leaves it. -/
structure PreparedRequest where
  parsedUrl : ParsedUrl
  headers : Headers

inductive Method where
  | get
  | post
  deriving DecidableEq

/-- What goes out on a transport. -/
structure SentRequest where
  isHttps : Bool
  endpoint : Endpoint
  method : Method
  path : Bytes
  headers : Headers
  body : Bytes
  contentType : Bytes

/-- `net_limits::kMaxTcpPort`. -/
def kMaxTcpPort : ℤ := 65535

/-- A port that `setup_client` accepts. -/
def ValidPort (port : ℤ) : Prop := 0 < port ∧ port ≤ kMaxTcpPort

instance (port : ℤ) : Decidable (ValidPort port) :=
  inferInstanceAs (Decidable (0 < port ∧ port ≤ kMaxTcpPort))

/-- `normalize_path`. -/
def normalizePath (path : Bytes) : Bytes :=
  if path = [] then ascii "/" else if path.head? = some 47 then path else 47 :: path

namespace HttpClient

/-- The constructor. -/
def create (now : ℕ) : HttpClient :=
  { serial := 0, client := none, sslClient := none, lastStatusCode := 0, isValid := true,
    lastUsed := now, poolLeased := false }

/-- The transport for a scheme. -/
def transport (c : HttpClient) (isHttps : Bool) : Option Endpoint :=
  if isHttps then c.sslClient else c.client

/-- `touch`. -/
def touch (c : HttpClient) (now : ℕ) : HttpClient := { c with lastUsed := now }

/-- `invalidate`. -/
def invalidate (c : HttpClient) : HttpClient := { c with isValid := false }

/-- `setup_client`. -/
def setupClient (c : HttpClient) (parsedUrl : ParsedUrl) : Except Bytes HttpClient :=
  if ¬ ValidPort parsedUrl.port then .error (ascii "Invalid URL: port out of range")
  else if parsedUrl.isHttps then
    .ok { c with sslClient := some ⟨parsedUrl.host, parsedUrl.port⟩ }
  else .ok { c with client := some ⟨parsedUrl.host, parsedUrl.port⟩ }

/-- The headers `prepare_request` assembles. -/
def requestHeaders (body traceparent : Bytes) (additionalHeaders : Headers) : Headers :=
  (if body ≠ [] then [(ascii "Content-Length", decimal body.length)] else []) ++
    additionalHeaders ++
    (if traceparent ≠ [] then [(ascii "traceparent", traceparent)] else [])

/-- The transport check of `prepare_request`: a transport is set up only when
the scheme has none. -/
def ensureTransport (c : HttpClient) (parsedUrl : ParsedUrl) : Except Bytes HttpClient :=
  if c.transport parsedUrl.isHttps = none then c.setupClient parsedUrl else .ok c

/-- `prepare_request`. -/
def prepareRequest (c : HttpClient) (url body traceparent : Bytes) (additionalHeaders : Headers) :
    Except Bytes (HttpClient × PreparedRequest) := do
  let parsed ← parseUrl url
  let parsedUrl := { parsed with path := normalizePath parsed.path }
  let c' ← c.ensureTransport parsedUrl
  return (c', { parsedUrl, headers := requestHeaders body traceparent additionalHeaders })

/-- The outcome of a `get` or `post`: the client afterwards, what went out, and
the response or the text of the exception. -/
structure SendResult where
  client : HttpClient
  sent : Option SentRequest
  result : Except Bytes HttpResponse

/-- `execute_request`.  `answer` is what the network gives: a response, or the
text of the transport error.  A body makes the request a POST. -/
def executeRequest (c : HttpClient) (req : PreparedRequest) (body contentType : Bytes)
    (answer : Except Bytes HttpResponse) : SendResult :=
  match c.transport req.parsedUrl.isHttps with
  | none => { client := c, sent := none, result := .error [] }
  | some endpoint =>
    let sent : SentRequest :=
      { isHttps := req.parsedUrl.isHttps, endpoint,
        method := if body = [] then .get else .post,
        path := req.parsedUrl.path, headers := req.headers, body, contentType }
    match answer with
    | .error e =>
      { client := { c with lastStatusCode := 0 }, sent := some sent, result := .error e }
    | .ok response =>
      { client := { c with lastStatusCode := response.status }, sent := some sent,
        result := .ok response }

/-- `post`; `get` is the same with an empty body. -/
def send (c : HttpClient) (now : ℕ) (url body traceparent : Bytes) (additionalHeaders : Headers)
    (answer : Except Bytes HttpResponse) : SendResult :=
  match (c.touch now).prepareRequest url body traceparent additionalHeaders with
  | .error e => { client := c.touch now, sent := none, result := .error e }
  | .ok (c', req) => c'.executeRequest req body (ascii "application/json") answer

/-! ## Which transport a request goes out on -/

/-- The transports of two clients are the same. -/
def SameTransports (c c' : HttpClient) : Prop :=
  ∀ isHttps, c'.transport isHttps = c.transport isHttps

theorem setupClient_transport {c c' : HttpClient} {parsed : ParsedUrl}
    (h : c.setupClient parsed = .ok c') (isHttps : Bool) :
    c'.transport isHttps =
      if isHttps = parsed.isHttps then some ⟨parsed.host, parsed.port⟩
      else c.transport isHttps := by
  unfold setupClient at h
  split at h
  · exact absurd h (by simp)
  · split at h
    · next hs =>
      rw [← Except.ok.inj h, hs]
      cases isHttps <;> rfl
    · next hs =>
      rw [← Except.ok.inj h, Bool.eq_false_iff.mpr hs]
      cases isHttps <;> rfl

/-- The answer changes neither the transports nor what was sent. -/
theorem executeRequest_of_transport (c : HttpClient) (req : PreparedRequest) {endpoint : Endpoint}
    (h : c.transport req.parsedUrl.isHttps = some endpoint) (body contentType : Bytes)
    (answer : Except Bytes HttpResponse) :
    SameTransports c (c.executeRequest req body contentType answer).client ∧
    ∃ s, (c.executeRequest req body contentType answer).sent = some s ∧
      s.isHttps = req.parsedUrl.isHttps ∧ s.endpoint = endpoint := by
  unfold executeRequest
  rw [h]
  cases answer with
  | error e => exact ⟨fun _ => rfl, _, rfl, rfl, rfl⟩
  | ok response => exact ⟨fun _ => rfl, _, rfl, rfl, rfl⟩

/-- **The ways through `get` and `post`.**  Nothing goes out, because the URL
does not parse or its port is out of range; or the request goes out on the
transport the scheme has; or on a new one, bound to its own host and port. -/
theorem send_cases (c : HttpClient) (now : ℕ) (url body traceparent : Bytes) (hs : Headers)
    (answer : Except Bytes HttpResponse) :
    let r := c.send now url body traceparent hs answer
    (SameTransports c r.client ∧ r.sent = none ∧
      ∀ p, parseUrl url = .ok p → c.transport p.isHttps = none ∧ ¬ ValidPort p.port) ∨
    (∃ p s, parseUrl url = .ok p ∧ r.sent = some s ∧ s.isHttps = p.isHttps ∧
      c.transport p.isHttps = some s.endpoint ∧ SameTransports c r.client) ∨
    (∃ p s, parseUrl url = .ok p ∧ r.sent = some s ∧ s.isHttps = p.isHttps ∧
      ValidPort p.port ∧ c.transport p.isHttps = none ∧ s.endpoint = ⟨p.host, p.port⟩ ∧
      ∀ b, r.client.transport b =
        if b = p.isHttps then some ⟨p.host, p.port⟩ else c.transport b) := by
  intro r
  have hr : r = c.send now url body traceparent hs answer := rfl
  have htouch : ∀ b, (c.touch now).transport b = c.transport b := fun _ => rfl
  cases hparse : parseUrl url with
  | error e =>
    have hprep : (c.touch now).prepareRequest url body traceparent hs = .error e := by
      unfold prepareRequest
      rw [hparse]
      rfl
    left
    rw [hr, send, hprep]
    exact ⟨fun _ => rfl, rfl, by simp⟩
  | ok p =>
    have hprep : (c.touch now).prepareRequest url body traceparent hs
        = ((c.touch now).ensureTransport { p with path := normalizePath p.path }).map fun c' =>
          (c', { parsedUrl := { p with path := normalizePath p.path },
                 headers := requestHeaders body traceparent hs }) := by
      unfold prepareRequest
      rw [hparse]
      rfl
    cases htransport : c.transport p.isHttps with
    | some endpoint =>
      -- the scheme has a transport: it is used as it is
      have hready : (c.touch now).ensureTransport { p with path := normalizePath p.path }
          = .ok (c.touch now) := by
        unfold ensureTransport
        rw [if_neg (by rw [htouch, htransport]; simp)]
      have hsend := executeRequest_of_transport (c.touch now)
        { parsedUrl := { p with path := normalizePath p.path },
          headers := requestHeaders body traceparent hs }
        ((htouch p.isHttps).trans htransport) body (ascii "application/json") answer
      right; left
      rw [hr, send, hprep, hready]
      obtain ⟨hsame, s, hsent, hhttps, hendpoint⟩ := hsend
      exact ⟨p, s, rfl, hsent, hhttps, by rw [htransport, hendpoint], hsame⟩
    | none =>
      have hsetup : (c.touch now).ensureTransport { p with path := normalizePath p.path }
          = (c.touch now).setupClient { p with path := normalizePath p.path } := by
        unfold ensureTransport
        rw [if_pos ((htouch p.isHttps).trans htransport)]
      by_cases hport : ValidPort p.port
      · -- a new transport is bound to this request's host and port
        obtain ⟨c', hc'⟩ : ∃ c', (c.touch now).setupClient
            { p with path := normalizePath p.path } = .ok c' := by
          unfold setupClient
          rw [if_neg (not_not.mpr hport)]
          split
          · exact ⟨_, rfl⟩
          · exact ⟨_, rfl⟩
        have hbound := setupClient_transport hc'
        have hown : c'.transport p.isHttps = some ⟨p.host, p.port⟩ := by
          rw [hbound p.isHttps, if_pos rfl]
        have hsend := executeRequest_of_transport c'
          { parsedUrl := { p with path := normalizePath p.path },
            headers := requestHeaders body traceparent hs }
          hown body (ascii "application/json") answer
        right; right
        rw [hr, send, hprep, hsetup, hc']
        obtain ⟨hsame, s, hsent, hhttps, hendpoint⟩ := hsend
        refine ⟨p, s, rfl, hsent, hhttps, hport, htransport, hendpoint, fun b => ?_⟩
        exact (hsame b).trans (hbound b)
      · have herror : (c.touch now).setupClient { p with path := normalizePath p.path }
            = .error (ascii "Invalid URL: port out of range") := by
          unfold setupClient
          rw [if_pos hport]
        left
        rw [hr, send, hprep, hsetup, herror]
        refine ⟨fun _ => rfl, rfl, fun q hq => ?_⟩
        obtain rfl : p = q := Except.ok.inj hq
        exact ⟨htransport, hport⟩

/-! ## What goes out -/

section Sent

variable {c : HttpClient} {now : ℕ} {url body traceparent : Bytes} {hs : Headers}
  {answer : Except Bytes HttpResponse}

/-- What an outcome says about the request: nothing went out, and there is an
exception; or the body has decided on the method, on either transport, and the
status of a response is the last status code of the client. -/
def SendResult.Follows (body : Bytes) (r : SendResult) : Prop :=
  (r.sent = none ∧ ∃ e, r.result = .error e) ∨
  ∃ s, r.sent = some s ∧ s.method = (if body = [] then .get else .post) ∧ s.body = body ∧
    ∀ response, r.result = .ok response → r.client.lastStatusCode = response.status

theorem executeRequest_follows (c : HttpClient) (req : PreparedRequest) (body contentType : Bytes)
    (answer : Except Bytes HttpResponse) :
    (c.executeRequest req body contentType answer).Follows body := by
  unfold executeRequest
  split
  · exact Or.inl ⟨rfl, _, rfl⟩
  · cases answer with
    | error e => exact Or.inr ⟨_, rfl, rfl, rfl, fun _ h => (by cases h)⟩
    | ok response =>
      refine Or.inr ⟨_, rfl, rfl, rfl, fun r h => ?_⟩
      rw [← Except.ok.inj h]

theorem send_follows (c : HttpClient) (now : ℕ) (url body traceparent : Bytes) (hs : Headers)
    (answer : Except Bytes HttpResponse) :
    (c.send now url body traceparent hs answer).Follows body := by
  unfold send
  split
  · exact Or.inl ⟨rfl, _, rfl⟩
  · exact executeRequest_follows _ _ _ _ _

theorem send_sent {s : SentRequest}
    (h : (c.send now url body traceparent hs answer).sent = some s) :
    s.method = (if body = [] then .get else .post) ∧ s.body = body := by
  rcases c.send_follows now url body traceparent hs answer with
    ⟨hnone, -⟩ | ⟨t, ht, hmethod, hbody, -⟩
  · exact absurd (hnone.symm.trans h) (by simp)
  · rw [← Option.some.inj (ht.symm.trans h)]
    exact ⟨hmethod, hbody⟩

/-- Where nothing goes out, the caller gets an exception. -/
theorem send_of_sent_eq_none (h : (c.send now url body traceparent hs answer).sent = none) :
    ∃ e, (c.send now url body traceparent hs answer).result = .error e := by
  rcases c.send_follows now url body traceparent hs answer with ⟨-, herror⟩ | ⟨t, ht, -⟩
  · exact herror
  · exact absurd (ht.symm.trans h) (by simp)

theorem send_lastStatusCode {r : HttpResponse}
    (h : (c.send now url body traceparent hs answer).result = .ok r) :
    (c.send now url body traceparent hs answer).client.lastStatusCode = r.status := by
  rcases c.send_follows now url body traceparent hs answer with ⟨-, e, he⟩ | ⟨-, -, -, -, hstatus⟩
  · exact absurd (he.symm.trans h) (by simp)
  · exact hstatus r h

/-- A request goes out exactly when its URL parses and the scheme has a transport
or the port is valid. -/
theorem exists_send_sent_iff :
    (∃ s, (c.send now url body traceparent hs answer).sent = some s) ↔
      ∃ p, parseUrl url = .ok p ∧ (c.transport p.isHttps ≠ none ∨ ValidPort p.port) := by
  rcases send_cases c now url body traceparent hs answer with
    ⟨-, hnone, hport⟩ | ⟨p, s, hp, hsent, -, htransport, -⟩ |
      ⟨p, s, hp, hsent, -, hport, -, -, -⟩
  · refine iff_of_false ?_ ?_
    · rintro ⟨s, hs⟩
      exact absurd (hnone.symm.trans hs) (by simp)
    · rintro ⟨p, hp, htransport | hvalid⟩
      · exact htransport (hport p hp).1
      · exact (hport p hp).2 hvalid
  · exact iff_of_true ⟨s, hsent⟩ ⟨p, hp, Or.inl (by rw [htransport]; simp)⟩
  · exact iff_of_true ⟨s, hsent⟩ ⟨p, hp, Or.inr hport⟩

end Sent

/-- The same client to the pool: its identity and its two flags. -/
structure SameToPool (c d : HttpClient) : Prop where
  serial : d.serial = c.serial
  isValid : d.isValid = c.isValid
  poolLeased : d.poolLeased = c.poolLeased

/-- A request leaves alone what the pool looks at. -/
theorem send_sameToPool (c : HttpClient) (now : ℕ) (url body traceparent : Bytes) (hs : Headers)
    (answer : Except Bytes HttpResponse) :
    SameToPool c (c.send now url body traceparent hs answer).client := by
  have hsetup : ∀ {d d' : HttpClient} {p : ParsedUrl},
      d.ensureTransport p = .ok d' → SameToPool d d' := by
    intro d d' p h
    unfold ensureTransport setupClient at h
    split at h
    · split at h
      · exact absurd h (by simp)
      · split at h
        · rw [← Except.ok.inj h]
          exact ⟨rfl, rfl, rfl⟩
        · rw [← Except.ok.inj h]
          exact ⟨rfl, rfl, rfl⟩
    · rw [← Except.ok.inj h]
      exact ⟨rfl, rfl, rfl⟩
  have hexecute : ∀ (d : HttpClient) (req : PreparedRequest),
      SameToPool d (d.executeRequest req body (ascii "application/json") answer).client := by
    intro d req
    unfold executeRequest
    cases d.transport req.parsedUrl.isHttps with
    | none => exact ⟨rfl, rfl, rfl⟩
    | some endpoint =>
      cases answer with
      | error e => exact ⟨rfl, rfl, rfl⟩
      | ok response => exact ⟨rfl, rfl, rfl⟩
  unfold send
  split
  · exact ⟨rfl, rfl, rfl⟩
  · next c' req hprep =>
    unfold prepareRequest at hprep
    cases hparse : parseUrl url with
    | error e =>
      rw [hparse] at hprep
      exact absurd hprep (by simp [Bind.bind, Except.bind])
    | ok p =>
      rw [hparse] at hprep
      cases hready : (c.touch now).ensureTransport { p with path := normalizePath p.path } with
      | error e => exact absurd hprep (by simp [Bind.bind, Except.bind, hready])
      | ok d =>
        have hd : d = c' := by
          simp only [Bind.bind, Except.bind, hready, pure, Except.pure, Except.ok.injEq,
            Prod.mk.injEq] at hprep
          exact hprep.1
        have hbefore : SameToPool (c.touch now) c' := hd ▸ hsetup hready
        have hafter := hexecute c' req
        exact ⟨hafter.serial.trans hbefore.serial, hafter.isValid.trans hbefore.isValid,
          hafter.poolLeased.trans hbefore.poolLeased⟩

end HttpClient
end Http
end HttpDataDiod
