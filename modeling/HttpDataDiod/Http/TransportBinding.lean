import HttpDataDiod.Http.ClientPool
import HttpDataDiod.Http.RequestHost
import HttpDataDiod.Lib.Transition

/-!
# Which backend a pooled client talks to

The calls of the worker share one pool of clients, and a client's transport is
bound to the first host of its scheme that it was used for.  This file runs the
pool through any sequence of acquires, calls, releases, invalidations and drops
and compares what each request was sent on with what its URL asks for.

* `OnOwnTransport`: a request was sent on the transport its URL names.
* `OneTargetPerScheme`: all requests of one scheme that a list of servers can
  give rise to have one host and port.
* `onOwnTransport_iff`: every run sends every request on its own transport
  exactly when the configuration has one target per scheme.
-/

namespace HttpDataDiod
namespace Http

open ByteText Routing Transition

/-- A call of `call_l2_server`, as far as the client sees it. -/
structure L2Call where
  path : Bytes
  query : Bytes
  method : Bytes
  body : Bytes
  traceparent : Bytes
  headers : Headers

/-- The request URL of a call, when some configured server allows its path. -/
def callUrl (urls : List Bytes) (call : L2Call) : Option Bytes :=
  (findAllowedL2Server urls call.path).map fun u =>
    requestUrl (buildL2Url u call.path) call.query

/-- The body that goes to the client: only a POST carries one. -/
def callBody (call : L2Call) : Bytes := if call.method = ascii "POST" then call.body else []

/-- The pool, the clients that are checked out, and what has been sent so far,
newest first, each request with its URL. -/
structure PoolState where
  pool : HttpClientPool
  leased : List HttpClient
  log : List (Bytes × SentRequest)

/-- What the threads of the worker do to the pool; `i` numbers the clients that
are checked out. -/
inductive PoolEvent where
  | acquire (clock : ℕ → ℕ) (waited : Bool)
  | call (i : ℕ) (call : L2Call) (now : ℕ) (answer : Except Bytes HttpResponse)
  | invalidate (i : ℕ)
  | release (i : ℕ) (now : ℕ)
  | drop (i : ℕ)

/-- The result of a call on a client. -/
def sendCall (c : HttpClient) (url : Bytes) (call : L2Call) (now : ℕ)
    (answer : Except Bytes HttpResponse) : HttpClient.SendResult :=
  c.send now url (callBody call) call.traceparent call.headers answer

/-- One event. -/
def poolStep (cfg : PoolConfig) (urls : List Bytes) (s : PoolState) :
    PoolEvent → Option PoolState
  | .acquire clock waited =>
    let r := s.pool.acquireConnection cfg clock waited
    match r.1 with
    | none => some { s with pool := r.2 }
    | some c => some { s with pool := r.2, leased := c :: s.leased }
  | .call i call now answer => do
    let c ← s.leased[i]?
    let url ← callUrl urls call
    let r := sendCall c url call now answer
    return { s with leased := s.leased.set i r.client,
                    log := (r.sent.toList.map fun sent => (url, sent)) ++ s.log }
  | .invalidate i => do
    let c ← s.leased[i]?
    return { s with leased := s.leased.set i c.invalidate }
  | .release i now => do
    let c ← s.leased[i]?
    return { s with pool := s.pool.releaseConnection cfg now c, leased := s.leased.eraseIdx i }
  | .drop i => do
    let c ← s.leased[i]?
    return { s with pool := HttpClientPool.destroyClient c s.pool, leased := s.leased.eraseIdx i }

/-- Nothing acquired, nothing sent. -/
def initialPoolState : PoolState := { pool := .empty, leased := [], log := [] }

/-- A request was sent on a transport of the scheme, host and port of its URL. -/
def OnOwnTransport (entry : Bytes × SentRequest) : Prop :=
  ∃ p, parseUrl entry.1 = .ok p ∧ entry.2.isHttps = p.isHttps ∧
    entry.2.endpoint = ⟨p.host, p.port⟩

/-- Any two requests of one scheme that the servers can give rise to have the
same host and port. -/
def OneTargetPerScheme (urls : List Bytes) : Prop :=
  ∀ a b ua ub pa pb, callUrl urls a = some ua → callUrl urls b = some ub →
    parseUrl ua = .ok pa → parseUrl ub = .ok pb → ValidPort pa.port →
    pa.isHttps = pb.isHttps → pa.host = pb.host ∧ pa.port = pb.port

/-! ## Transports are bound to calls -/

/-- Every transport of a client is bound to the target of some call. -/
def BoundToCalls (urls : List Bytes) (c : HttpClient) : Prop :=
  ∀ b endpoint, c.transport b = some endpoint →
    ∃ a ua pa, callUrl urls a = some ua ∧ parseUrl ua = .ok pa ∧ ValidPort pa.port ∧
      pa.isHttps = b ∧ endpoint = ⟨pa.host, pa.port⟩

theorem BoundToCalls.of_same {urls : List Bytes} {c d : HttpClient} (h : BoundToCalls urls c)
    (hsame : HttpClient.SameTransports c d) : BoundToCalls urls d := by
  intro b endpoint hd
  exact h b endpoint ((hsame b).symm.trans hd)

/-- A call leaves the client bound to calls. -/
theorem boundToCalls_sendCall {urls : List Bytes} {c : HttpClient} (h : BoundToCalls urls c)
    {url : Bytes} {call : L2Call} (hurl : callUrl urls call = some url) (now : ℕ)
    (answer : Except Bytes HttpResponse) :
    BoundToCalls urls (sendCall c url call now answer).client := by
  rcases HttpClient.send_cases c now url (callBody call) call.traceparent call.headers answer with
    ⟨hsame, -, -⟩ | ⟨p, s, -, -, -, -, hsame⟩ | ⟨p, s, hp, -, -, hport, -, -, hbound⟩
  · exact h.of_same hsame
  · exact h.of_same hsame
  · intro b endpoint hb
    have hb' := (hbound b).symm.trans hb
    split at hb'
    · next hscheme =>
      exact ⟨call, url, p, hurl, hp, hport, hscheme.symm, (Option.some.inj hb').symm⟩
    · exact h b endpoint hb'

/-- With one target per scheme a call goes out on its own transport. -/
theorem onOwnTransport_sendCall {urls : List Bytes} (hone : OneTargetPerScheme urls)
    {c : HttpClient} (h : BoundToCalls urls c) {url : Bytes} {call : L2Call}
    (hurl : callUrl urls call = some url) {now : ℕ} {answer : Except Bytes HttpResponse}
    {s : SentRequest} (hsent : (sendCall c url call now answer).sent = some s) :
    OnOwnTransport (url, s) := by
  rcases HttpClient.send_cases c now url (callBody call) call.traceparent call.headers answer with
    ⟨-, hnone, -⟩ | ⟨p, s', hp, hs', hscheme, htransport, -⟩ |
      ⟨p, s', hp, hs', hscheme, -, -, hend, -⟩
  · exact absurd (hnone.symm.trans hsent) (by simp)
  · obtain rfl : s' = s := Option.some.inj (hs'.symm.trans hsent)
    obtain ⟨a, ua, pa, hua, hpa, hvalid, hsame, hbound⟩ := h _ _ htransport
    obtain ⟨hhost, hport⟩ := hone a call ua url pa p hua hurl hpa hp hvalid hsame
    exact ⟨p, hp, hscheme, by rw [hbound, hhost, hport]⟩
  · obtain rfl : s' = s := Option.some.inj (hs'.symm.trans hsent)
    exact ⟨p, hp, hscheme, hend⟩

/-! ## Runs of the pool -/

/-- All clients of a state are bound to calls, and the log is in order. -/
structure PoolInv (urls : List Bytes) (s : PoolState) : Prop where
  available : ∀ c ∈ s.pool.available, BoundToCalls urls c
  leased : ∀ c ∈ s.leased, BoundToCalls urls c
  log : ∀ entry ∈ s.log, OnOwnTransport entry

/-- **One event keeps the invariant.** -/
theorem poolInv_step {cfg : PoolConfig} {urls : List Bytes} (hone : OneTargetPerScheme urls)
    {s s' : PoolState} {e : PoolEvent} (h : PoolInv urls s)
    (hstep : poolStep cfg urls s e = some s') : PoolInv urls s' := by
  cases e with
  | acquire clock waited =>
    obtain ⟨hgiven, hleft⟩ := HttpClientPool.acquireConnection_mem cfg clock waited s.pool
    simp only [poolStep] at hstep
    split at hstep
    · obtain rfl := Option.some.inj hstep
      exact ⟨fun c hc => h.available c (hleft c hc), h.leased, h.log⟩
    · next c hc =>
      obtain rfl := Option.some.inj hstep
      refine ⟨fun d hd => h.available d (hleft d hd), fun d hd => ?_, h.log⟩
      rcases List.mem_cons.mp hd with rfl | hd
      · rcases hgiven d hc with ⟨c', hmem, hsame⟩ | hnone
        · exact (h.available c' hmem).of_same hsame
        · intro b endpoint hb
          exact absurd ((hnone b).symm.trans hb) (by simp)
      · exact h.leased d hd
  | call i call now answer =>
    obtain ⟨c, hc, hrest⟩ := Option.bind_eq_some_iff.mp hstep
    obtain ⟨url, hurl, hrest⟩ := Option.bind_eq_some_iff.mp hrest
    obtain rfl := Option.some.inj hrest
    have hbound : BoundToCalls urls c := h.leased c (List.mem_of_getElem? hc)
    refine ⟨h.available, fun d hd => ?_, fun entry hentry => ?_⟩
    · rcases List.mem_or_eq_of_mem_set hd with hd | rfl
      · exact h.leased d hd
      · exact boundToCalls_sendCall hbound hurl now answer
    · rcases List.mem_append.mp hentry with hentry | hentry
      · obtain ⟨sent, hsent, rfl⟩ := List.mem_map.mp hentry
        exact onOwnTransport_sendCall hone hbound hurl (Option.mem_toList.mp hsent)
      · exact h.log entry hentry
  | invalidate i =>
    obtain ⟨c, hc, hrest⟩ := Option.bind_eq_some_iff.mp hstep
    obtain rfl := Option.some.inj hrest
    refine ⟨h.available, fun d hd => ?_, h.log⟩
    rcases List.mem_or_eq_of_mem_set hd with hd | rfl
    · exact h.leased d hd
    · exact (h.leased c (List.mem_of_getElem? hc)).of_same fun _ => rfl
  | release i now =>
    obtain ⟨c, hc, hrest⟩ := Option.bind_eq_some_iff.mp hstep
    obtain rfl := Option.some.inj hrest
    refine ⟨fun d hd => ?_, fun d hd => h.leased d (List.mem_of_mem_eraseIdx hd), h.log⟩
    rcases HttpClientPool.releaseConnection_mem cfg now c s.pool d hd with hd | hsame
    · exact h.available d hd
    · exact (h.leased c (List.mem_of_getElem? hc)).of_same hsame
  | drop i =>
    obtain ⟨c, hc, hrest⟩ := Option.bind_eq_some_iff.mp hstep
    obtain rfl := Option.some.inj hrest
    refine ⟨fun d hd => h.available d ?_,
      fun d hd => h.leased d (List.mem_of_mem_eraseIdx hd), h.log⟩
    simpa using hd

/-- **A whole run keeps it.** -/
theorem poolInv_run {cfg : PoolConfig} {urls : List Bytes} (hone : OneTargetPerScheme urls)
    {es : List PoolEvent} {s : PoolState}
    (hrun : run (poolStep cfg urls) initialPoolState es = some s) : PoolInv urls s := by
  refine run_invariant (fun s e s' h hstep => poolInv_step hone h hstep) ?_ hrun
  exact ⟨by simp [initialPoolState, HttpClientPool.empty], by simp [initialPoolState],
    by simp [initialPoolState]⟩

/-! ## Two targets of one scheme meet on one client -/

/-- An answer of the backend that lets the client go back to the pool. -/
def okAnswer : Except Bytes HttpResponse := .ok { body := [], headers := [], status := 200 }

/-- Two calls one after the other: the second is handed the client of the first. -/
def twoCalls (a b : L2Call) : List PoolEvent :=
  [.acquire (fun _ => 0) false, .call 0 a 0 okAnswer, .release 0 0,
    .acquire (fun _ => 0) false, .call 0 b 0 okAnswer]

/-- What the pool hands out when nothing is idle. -/
def newClient : HttpClient := { HttpClient.create 0 with serial := 1, poolLeased := true }

/-- What it hands out once `c` has been released at time 0. -/
def recycled (c : HttpClient) : HttpClient :=
  { ({ c with poolLeased := false } : HttpClient).touch 0 with poolLeased := true }

theorem poolStep_acquire_new (cfg : PoolConfig) (urls : List Bytes) :
    ∃ s, poolStep cfg urls initialPoolState (.acquire (fun _ => 0) false) = some s ∧
      s.leased = [newClient] ∧ s.pool.available = [] := by
  have hfull : ¬ (cfg.maxPoolSize ≤ 0 ∧ false = false) :=
    fun h => UInt64.not_lt.mpr h.1 cfg.maxPoolSize_pos
  have hacquire : initialPoolState.pool.acquireConnection cfg (fun _ => 0) false
      = (some newClient, { HttpClientPool.empty with
          created := 1, totalClients := 1, activeClients := 1 }) := by
    unfold HttpClientPool.acquireConnection
    exact if_neg hfull
  refine ⟨{ initialPoolState with
    pool := { HttpClientPool.empty with created := 1, totalClients := 1, activeClients := 1 },
    leased := [newClient] }, ?_, rfl, rfl⟩
  simp only [poolStep, hacquire]
  rfl

theorem poolStep_acquire_idle (cfg : PoolConfig) (urls : List Bytes) {s : PoolState}
    {c : HttpClient} (hidle : s.pool.available = [c]) (hvalid : c.isValid = true)
    (hnone : s.leased = []) :
    ∃ s', poolStep cfg urls s (.acquire (fun _ => 0) false) = some s' ∧
      s'.leased = [{ c with poolLeased := true }] := by
  have hacquire : (s.pool.acquireConnection cfg (fun _ => 0) false).1
      = some { c with poolLeased := true } := by
    simp [HttpClientPool.acquireConnection, HttpClientPool.tryAcquireFromQueue, hidle, hvalid]
  refine ⟨{ s with
    pool := (s.pool.acquireConnection cfg (fun _ => 0) false).2,
    leased := { c with poolLeased := true } :: s.leased }, ?_, by rw [hnone]⟩
  unfold poolStep
  simp only [hacquire]

theorem poolStep_call (cfg : PoolConfig) {urls : List Bytes} {s : PoolState} {c : HttpClient}
    (hleased : s.leased = [c]) {call : L2Call} {url : Bytes} (hurl : callUrl urls call = some url) :
    ∃ s', poolStep cfg urls s (.call 0 call 0 okAnswer) = some s' ∧
      s'.leased = [(sendCall c url call 0 okAnswer).client] ∧ s'.pool = s.pool ∧
      ∀ sent, (sendCall c url call 0 okAnswer).sent = some sent → (url, sent) ∈ s'.log := by
  refine ⟨{ s with
    leased := s.leased.set 0 (sendCall c url call 0 okAnswer).client,
    log := ((sendCall c url call 0 okAnswer).sent.toList.map fun sent => (url, sent)) ++ s.log },
    ?_, by rw [hleased]; rfl, rfl, fun sent hsent => by simp [hsent]⟩
  simp [poolStep, hleased, hurl]

theorem poolStep_release (cfg : PoolConfig) (urls : List Bytes) {s : PoolState} {c : HttpClient}
    (hleased : s.leased = [c]) (hvalid : c.isValid = true) (hidle : s.pool.available = []) :
    ∃ s', poolStep cfg urls s (.release 0 0) = some s' ∧ s'.leased = [] ∧
      s'.pool.available = [({ c with poolLeased := false } : HttpClient).touch 0] := by
  have hpos : 0 < cfg.maxPoolSize.toNat := UInt64.lt_iff_toNat_lt.mp cfg.maxPoolSize_pos
  refine ⟨{ s with pool := s.pool.releaseConnection cfg 0 c, leased := s.leased.eraseIdx 0 },
    by simp [poolStep, hleased], by simp [hleased], ?_⟩
  simp [HttpClientPool.releaseConnection, hidle, hvalid, hpos]

/-- **The run of two calls.**  The second call is made on the client of the
first. -/
theorem run_twoCalls (cfg : PoolConfig) {urls : List Bytes} {a b : L2Call} {ua ub : Bytes}
    (hua : callUrl urls a = some ua) (hub : callUrl urls b = some ub) :
    ∃ s, run (poolStep cfg urls) initialPoolState (twoCalls a b) = some s ∧
      ∀ sent, (sendCall (recycled (sendCall newClient ua a 0 okAnswer).client) ub b 0
        okAnswer).sent = some sent → (ub, sent) ∈ s.log := by
  have hvalid : (sendCall newClient ua a 0 okAnswer).client.isValid = true :=
    (HttpClient.send_sameToPool newClient 0 ua (callBody a) a.traceparent a.headers
      okAnswer).isValid
  obtain ⟨s₁, h₁, hleased₁, hidle₁⟩ := poolStep_acquire_new cfg urls
  obtain ⟨s₂, h₂, hleased₂, hpool₂, -⟩ := poolStep_call cfg hleased₁ hua
  obtain ⟨s₃, h₃, hleased₃, hidle₃⟩ :=
    poolStep_release cfg urls hleased₂ hvalid (by rw [hpool₂, hidle₁])
  obtain ⟨s₄, h₄, hleased₄⟩ := poolStep_acquire_idle cfg urls hidle₃ hvalid hleased₃
  obtain ⟨s₅, h₅, -, -, hlog₅⟩ := poolStep_call cfg hleased₄ hub
  refine ⟨s₅, ?_, hlog₅⟩
  rw [twoCalls, run_cons_of_step h₁, run_cons_of_step h₂, run_cons_of_step h₃,
    run_cons_of_step h₄, run_cons_of_step h₅, run_nil]

/-- **The second call goes out on the transport of the first**, if the first has
a valid port and both have one scheme. -/
theorem exists_sent_of_twoCalls (cfg : PoolConfig) {urls : List Bytes} {a b : L2Call}
    {ua ub : Bytes} {pa pb : ParsedUrl} (hua : callUrl urls a = some ua)
    (hub : callUrl urls b = some ub) (hpa : parseUrl ua = .ok pa) (hpb : parseUrl ub = .ok pb)
    (hvalid : ValidPort pa.port) (hscheme : pa.isHttps = pb.isHttps) :
    ∃ s sent, run (poolStep cfg urls) initialPoolState (twoCalls a b) = some s ∧
      (ub, sent) ∈ s.log ∧ sent.endpoint = ⟨pa.host, pa.port⟩ := by
  have hnew : ∀ b, newClient.transport b = none := by
    intro b
    cases b <;> rfl
  -- the first call binds the transport of its scheme
  have hbound : (sendCall newClient ua a 0 okAnswer).client.transport pa.isHttps
      = some ⟨pa.host, pa.port⟩ := by
    rcases HttpClient.send_cases newClient 0 ua (callBody a) a.traceparent a.headers okAnswer with
      ⟨-, -, hport⟩ | ⟨p, s, -, -, -, htransport, -⟩ | ⟨p, s, hp, -, -, -, -, -, hclient⟩
    · exact absurd hvalid (hport pa hpa).2
    · exact absurd ((hnew _).symm.trans htransport) (by simp)
    · obtain rfl : pa = p := Except.ok.inj (hpa.symm.trans hp)
      rw [sendCall, hclient, if_pos rfl]
  -- and the second call finds it there
  have hreused : (recycled (sendCall newClient ua a 0 okAnswer).client).transport pb.isHttps
      = some ⟨pa.host, pa.port⟩ := by
    rw [← hscheme]
    exact hbound
  obtain ⟨s, hrun, hlog⟩ := run_twoCalls cfg hua hub
  rcases HttpClient.send_cases (recycled (sendCall newClient ua a 0 okAnswer).client) 0 ub
      (callBody b) b.traceparent b.headers okAnswer with
    ⟨-, -, hnone⟩ | ⟨p, sent, hp, hsent, -, htransport, -⟩ | ⟨p, sent, hp, -, -, -, hnone, -⟩
  · exact absurd ((hnone pb hpb).1.symm.trans hreused) (by simp)
  · obtain rfl : pb = p := Except.ok.inj (hpb.symm.trans hp)
    exact ⟨s, sent, hrun, hlog sent hsent, Option.some.inj (htransport.symm.trans hreused)⟩
  · obtain rfl : pb = p := Except.ok.inj (hpb.symm.trans hp)
    exact absurd (hnone.symm.trans hreused) (by simp)

/-- **Every request on its own transport, exactly with one target per scheme.**
All runs of the pool send every request on a transport of the scheme, host and
port of its URL if and only if any two requests of one scheme that the
configured servers can give rise to have the same host and port. -/
theorem onOwnTransport_iff (cfg : PoolConfig) (urls : List Bytes) :
    (∀ es s, run (poolStep cfg urls) initialPoolState es = some s →
      ∀ entry ∈ s.log, OnOwnTransport entry) ↔ OneTargetPerScheme urls := by
  constructor
  · intro h a b ua ub pa pb hua hub hpa hpb hvalid hscheme
    obtain ⟨s, sent, hrun, hmem, hend⟩ :=
      exists_sent_of_twoCalls cfg hua hub hpa hpb hvalid hscheme
    obtain ⟨p, hp, -, hown⟩ := h _ s hrun _ hmem
    obtain rfl : pb = p := Except.ok.inj (hpb.symm.trans hp)
    have heq : (⟨pa.host, pa.port⟩ : Endpoint) = ⟨pb.host, pb.port⟩ := hend.symm.trans hown
    exact ⟨congrArg Endpoint.host heq, congrArg Endpoint.port heq⟩
  · intro hone es s hrun
    exact (poolInv_run hone hrun).log

/-- Servers that all parse, those of one scheme to one host and port, have one
target per scheme: neither the path nor the query can change it. -/
theorem oneTargetPerScheme_of_parsed {urls : List Bytes}
    (hparse : ∀ u ∈ urls, ∃ parsed, parseUrl u = .ok parsed)
    (hsame : ∀ u ∈ urls, ∀ v ∈ urls, ∀ pu pv, parseUrl u = .ok pu → parseUrl v = .ok pv →
      pu.isHttps = pv.isHttps → pu.host = pv.host ∧ pu.port = pv.port) :
    OneTargetPerScheme urls := by
  have htarget : ∀ {call : L2Call} {url : Bytes} {p : ParsedUrl}, callUrl urls call = some url →
      parseUrl url = .ok p → ∃ u ∈ urls, ∃ pu, parseUrl u = .ok pu ∧ p.host = pu.host ∧
        p.port = pu.port ∧ p.isHttps = pu.isHttps := by
    intro call url p hurl hp
    obtain ⟨u, hfind, rfl⟩ := Option.map_eq_some_iff.mp hurl
    have hmem : u ∈ urls := mem_of_findAllowedL2Server hfind
    obtain ⟨pu, hpu⟩ := hparse u hmem
    obtain ⟨r, hr, hhost, hport, hscheme⟩ := parseUrl_requestUrl hpu call.path call.query
    obtain rfl : r = p := Except.ok.inj (hr.symm.trans hp)
    exact ⟨u, hmem, pu, hpu, hhost, hport, hscheme⟩
  intro a b ua ub pa pb hua hub hpa hpb _ hscheme
  obtain ⟨u, hu, pu, hpu, hhostu, hportu, hschemeu⟩ := htarget hua hpa
  obtain ⟨v, hv, pv, hpv, hhostv, hportv, hschemev⟩ := htarget hub hpb
  obtain ⟨hhost, hport⟩ := hsame u hu v hv pu pv hpu hpv (by rw [← hschemeu, hscheme, hschemev])
  exact ⟨by rw [hhostu, hhost, hhostv], by rw [hportu, hport, hportv]⟩

/-- A GET without a query. -/
def getCall (path : Bytes) : L2Call :=
  { path, query := [], method := ascii "GET", body := [], traceparent := [], headers := [] }

/-- Two plain servers: the request for the second goes to the first. -/
theorem not_onOwnTransport_two_servers :
    ∃ s, run (poolStep ⟨1, 300, by decide⟩ [ascii "http://a/x", ascii "http://b/y"])
        initialPoolState (twoCalls (getCall (ascii "/x")) (getCall (ascii "/y"))) = some s ∧
      ∃ sent, (ascii "http://b/y", sent) ∈ s.log ∧ sent.endpoint = ⟨ascii "a", 80⟩ ∧
        ¬ OnOwnTransport (ascii "http://b/y", sent) := by
  have hua : callUrl [ascii "http://a/x", ascii "http://b/y"] (getCall (ascii "/x"))
      = some (ascii "http://a/x") := by decide
  have hub : callUrl [ascii "http://a/x", ascii "http://b/y"] (getCall (ascii "/y"))
      = some (ascii "http://b/y") := by decide
  have ha : parseUrl (ascii "http://a/x")
      = .ok { host := ascii "a", path := ascii "/x", port := 80, isHttps := false } := rfl
  have hb : parseUrl (ascii "http://b/y")
      = .ok { host := ascii "b", path := ascii "/y", port := 80, isHttps := false } := rfl
  obtain ⟨s, sent, hrun, hmem, hend⟩ :=
    exists_sent_of_twoCalls ⟨1, 300, by decide⟩ hua hub ha hb (by decide) rfl
  refine ⟨s, hrun, sent, hmem, hend, ?_⟩
  rintro ⟨p, hp, -, hown⟩
  obtain rfl := Except.ok.inj (hb.symm.trans hp)
  exact absurd (hend.symm.trans hown) (by decide)

end Http
end HttpDataDiod
