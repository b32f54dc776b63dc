import HttpDataDiod.Transport.ResponseEnvelope
import HttpDataDiod.Worker.DedupCache

/-!
# The status of a reply

`process_request_from_nats` answers every message and records a status for the answer.  The
two are written in different places: an envelope has its status in it, the bare error
objects have none, and a cached answer has the status of the call it was made for.  The
proxy takes the status out of what it gets.

* `processRequestFromNats`: the recorded status and the reply, on every path.
* `derivedStatus`: the status that the proxy derives from a reply.
* `StatusKept`: the condition on the message and the cache under which the two agree,
  with `statusAgrees_processRequestFromNats_iff`.  A refused message is recorded as 400 and
  derived as 500; an answer from the cache is recorded as 200, whatever its status.
-/

namespace HttpDataDiod
namespace Transport

open ByteText JsonValue
open Proxy.NatsResponseContract
open Worker (WorkerRequestData ParseOutcome AccessError DedupConfig DedupCache parseRequestData
  decodeNatsRequest)

/-! ## The worker -/

/-- What the worker publishes: a value that it writes out, or a text of the cache. -/
inductive Reply where
  | fresh (j : JsonValue) (text : Bytes)
  | cached (text : Bytes)

/-- The text that goes over NATS. -/
def Reply.text : Reply → Bytes
  | .fresh _ text => text
  | .cached text => text

/-- What comes of a message. -/
inductive TaskOutcome where
  /-- A missing key of a const object: undefined behaviour. -/
  | undefined
  /-- The recorded status and the reply; there is none if writing it out throws. -/
  | done (status : ℤ) (reply : Option Reply)

/-- What the handling of one message takes from outside.  `what` is the text of an
exception of the libraries, and `executeL2Call` may throw, too. -/
structure TaskChoices where
  sentry : Bool
  dedup : DedupConfig
  now : ℕ
  timestampUs : UInt64
  traceparentHeader : WorkerRequestData → Bytes
  executeL2Call : WorkerRequestData → Except Bytes L2Response
  what : Bytes

variable (json : JsonLibrary) (env : TaskChoices) (cache : DedupCache)

/-- `make_error_json`. -/
def makeErrorJson (message : Bytes) : JsonObject :=
  JsonObject.of [(ascii "error", .string message)]

/-- The reply of an object. -/
def writtenReply (o : JsonObject) : Option Reply :=
  (json.dump (.object o.entries)).map (Reply.fresh (.object o.entries))

/-- The handler of the exceptions. -/
def failTask (what : Bytes) : TaskOutcome :=
  .done 500 (writtenReply json
    ((makeErrorJson (ascii "Internal server error")).assign [(ascii "message", .string what)]))

/-- `send_l2_response`, and what follows when it throws. -/
def sendL2Response (data : WorkerRequestData) : TaskOutcome :=
  match env.executeL2Call data with
  | .error what => failTask json what
  | .ok r =>
    let envelope :=
      l2ResponseEnvelope data.requestId (env.traceparentHeader data) env.timestampUs r
    match writtenReply json envelope with
    | none => failTask json env.what
    | some reply => .done r.statusCode (some reply)

/-- `process_request_from_nats`. -/
def processRequestFromNats (requestJson : Bytes) : TaskOutcome :=
  match parseRequestData json env.sentry requestJson with
  | .refused => .done 400 (writtenReply json (makeErrorJson (ascii "Invalid request format")))
  | .thrown => failTask json env.what
  | .accepted j =>
    match decodeNatsRequest j with
    | .error (.missingKey _) => .undefined
    | .error _ => failTask json env.what
    | .ok data =>
      match (DedupCache.find env.dedup env.now data.requestId cache).1 with
      | some response => .done 200 (some (.cached response))
      | none => sendL2Response json env data

/-! ## The proxy -/

/-- The status that `set_response_content` derives from a reply. -/
def derivedStatus (clientRequestId text : Bytes) : Option ℤ :=
  match json.parse text with
  | .value j => (setResponseContent json clientRequestId j).map ClientResponse.status
  | _ => none

/-- **The statuses agree**: the recorded one is derived from the reply that was published. -/
def StatusAgrees (clientRequestId : Bytes) : TaskOutcome → Prop
  | .undefined => False
  | .done status reply =>
    ∀ r, reply = some r → derivedStatus json clientRequestId r.text = some status

/-- **The condition on a message and the cache.**  The message is not refused, it does not
lack a key that is read without a check, and if its id is cached, the cached answer has the
status 200. -/
structure StatusKept (clientRequestId requestJson : Bytes) : Prop where
  notRefused : parseRequestData json env.sentry requestJson ≠ .refused
  keys : ∀ j, parseRequestData json env.sentry requestJson = .accepted j →
    ∀ key, decodeNatsRequest j ≠ .error (.missingKey key)
  cached : ∀ j data response, parseRequestData json env.sentry requestJson = .accepted j →
    decodeNatsRequest j = .ok data →
    (DedupCache.find env.dedup env.now data.requestId cache).1 = some response →
    derivedStatus json clientRequestId response = some 200

/-- The library gives the value of a fresh reply back. -/
def ReplyRoundTrips (outcome : TaskOutcome) : Prop :=
  ∀ status j text, outcome = .done status (some (.fresh j text)) → json.RoundTrips j

/-! ## The status of a fresh reply -/

variable {json env cache} {clientRequestId requestJson : Bytes}

/-- An object without a status and a body is taken for an error. -/
theorem setResponseContent_received_bare {o : JsonObject} (hstatus : o.find kStatus = none)
    (hbody : o.find kBody = none) :
    setResponseContent json clientRequestId (received o) =
      some (setContent 500 [] (ascii "application/json")) := by
  have hempty : Proxy.getResponseBody (received o) = .object [] := by
    unfold Proxy.getResponseBody
    rw [find_received_none hbody]
  unfold setResponseContent Proxy.getBodyBool
  rw [if_pos (isObject_received o), safeGetInt_received_none hstatus, hempty]
  rfl

/-- The status that is derived from an object that was written out. -/
theorem derivedStatus_written {o : JsonObject} {reply : Reply} {client : ClientResponse}
    (hwritten : writtenReply json o = some reply)
    (hround : json.RoundTrips (.object o.entries))
    (hclient : setResponseContent json clientRequestId (received o) = some client) :
    derivedStatus json clientRequestId reply.text = some client.status := by
  obtain ⟨text, hdump, rfl⟩ := Option.map_eq_some_iff.mp hwritten
  have hparse : json.parse text = .value (received o) := hround.parse hdump
  unfold derivedStatus
  rw [Reply.text, hparse]
  show (setResponseContent json clientRequestId (received o)).map _ = _
  rw [hclient]
  rfl

/-- The reply of an object is that object. -/
theorem ReplyRoundTrips.of_written {status : ℤ} {o : JsonObject} {reply : Reply}
    (hround : ReplyRoundTrips json (.done status (writtenReply json o)))
    (hwritten : writtenReply json o = some reply) : json.RoundTrips (.object o.entries) := by
  obtain ⟨text, hdump, rfl⟩ := Option.map_eq_some_iff.mp hwritten
  exact hround status (.object o.entries) text (by rw [hwritten])

/-- The object of the exception handler has neither a status nor a body. -/
theorem statusAgrees_failTask {what : Bytes} (hround : ReplyRoundTrips json (failTask json what)) :
    StatusAgrees json clientRequestId (failTask json what) := by
  have hstatus : ((makeErrorJson (ascii "Internal server error")).assign
      [(ascii "message", .string what)]).find kStatus = none := by
    rw [JsonObject.find_assign_of_not_mem (by show kStatus ∉ [ascii "message"]; decide)]
    rfl
  have hbody : ((makeErrorJson (ascii "Internal server error")).assign
      [(ascii "message", .string what)]).find kBody = none := by
    rw [JsonObject.find_assign_of_not_mem (by show kBody ∉ [ascii "message"]; decide)]
    rfl
  intro reply hreply
  exact derivedStatus_written hreply (hround.of_written hreply)
    (setResponseContent_received_bare hstatus hbody)

/-- **An executed request** is recorded with the status of the envelope. -/
theorem statusAgrees_sendL2Response {data : WorkerRequestData}
    (hround : ReplyRoundTrips json (sendL2Response json env data)) :
    StatusAgrees json clientRequestId (sendL2Response json env data) := by
  unfold sendL2Response at hround ⊢
  split at hround
  · exact statusAgrees_failTask hround
  · rename_i r hr
    dsimp only at hround ⊢
    split at hround
    · exact statusAgrees_failTask hround
    · rename_i reply hwritten
      intro reply' hreply
      obtain rfl : reply = reply' := Option.some.inj hreply
      rw [← hwritten] at hround
      exact derivedStatus_written hwritten (hround.of_written hwritten)
        (setResponseContent_received data.requestId (env.traceparentHeader data) env.timestampUs r
          json clientRequestId)

/-- **A refused message** is recorded as 400, and 500 is derived from its reply. -/
theorem derivedStatus_refused
    (hround : ReplyRoundTrips json
      (.done 400 (writtenReply json (makeErrorJson (ascii "Invalid request format"))))) :
    ∃ reply, writtenReply json (makeErrorJson (ascii "Invalid request format")) = some reply ∧
      derivedStatus json clientRequestId reply.text = some 500 := by
  have hutf8 : (JsonValue.object
      (makeErrorJson (ascii "Invalid request format")).entries).allUtf8 = true := by
    decide +kernel
  have hwritten : writtenReply json (makeErrorJson (ascii "Invalid request format")) =
      some (.fresh (.object (makeErrorJson (ascii "Invalid request format")).entries)
        (json.serialize (.object (makeErrorJson (ascii "Invalid request format")).entries))) := by
    unfold writtenReply
    rw [json.dump_of_allUtf8 hutf8]
    rfl
  exact ⟨_, hwritten, derivedStatus_written hwritten (hround.of_written hwritten)
    (setResponseContent_received_bare rfl rfl)⟩

/-! ## Every path -/

theorem statusKept_of_thrown
    (hparse : parseRequestData json env.sentry requestJson = .thrown) :
    StatusKept json env cache clientRequestId requestJson := by
  refine ⟨?_, ?_, ?_⟩
  · rw [hparse]
    exact fun h => ParseOutcome.noConfusion h
  · intro j hj
    rw [hparse] at hj
    exact ParseOutcome.noConfusion hj
  · intro j data response hj
    rw [hparse] at hj
    exact ParseOutcome.noConfusion hj

/-- The condition on a message that is accepted. -/
theorem statusKept_iff_of_accepted {j : JsonValue}
    (hparse : parseRequestData json env.sentry requestJson = .accepted j) :
    StatusKept json env cache clientRequestId requestJson ↔
      (∀ key, decodeNatsRequest j ≠ .error (.missingKey key)) ∧
      ∀ data response, decodeNatsRequest j = .ok data →
        (DedupCache.find env.dedup env.now data.requestId cache).1 = some response →
        derivedStatus json clientRequestId response = some 200 := by
  constructor
  · intro h
    exact ⟨h.keys j hparse, fun data response => h.cached j data response hparse⟩
  · rintro ⟨hkeys, hcached⟩
    refine ⟨?_, ?_, ?_⟩
    · rw [hparse]
      exact fun h => ParseOutcome.noConfusion h
    · intro j' hj'
      obtain rfl := ParseOutcome.accepted.inj (hparse.symm.trans hj')
      exact hkeys
    · intro j' data response hj'
      obtain rfl := ParseOutcome.accepted.inj (hparse.symm.trans hj')
      exact hcached data response

/-- The answer to a decoded message: from the cache, or from the backend. -/
theorem statusAgrees_decoded_iff {data : WorkerRequestData}
    (hround : ReplyRoundTrips json
      (match (DedupCache.find env.dedup env.now data.requestId cache).1 with
      | some response => .done 200 (some (.cached response))
      | none => sendL2Response json env data)) :
    StatusAgrees json clientRequestId
        (match (DedupCache.find env.dedup env.now data.requestId cache).1 with
        | some response => .done 200 (some (.cached response))
        | none => sendL2Response json env data) ↔
      ∀ response, (DedupCache.find env.dedup env.now data.requestId cache).1 = some response →
        derivedStatus json clientRequestId response = some 200 := by
  cases hfind : (DedupCache.find env.dedup env.now data.requestId cache).1 with
  | none =>
    rw [hfind] at hround
    exact ⟨fun _ response h => absurd h (by simp), fun _ => statusAgrees_sendL2Response hround⟩
  | some response =>
    constructor
    · intro h response' hresponse
      obtain rfl := Option.some.inj hresponse
      exact h (.cached response) rfl
    · intro h reply hreply
      obtain rfl := Option.some.inj hreply
      exact h response rfl

/-- **The recorded and the derived status.**  They agree exactly when the message is not
refused, lacks no key that is read without a check, and is not answered from the cache with
another status than 200. -/
theorem statusAgrees_processRequestFromNats_iff (json : JsonLibrary) (env : TaskChoices)
    (cache : DedupCache) (clientRequestId requestJson : Bytes)
    (hround : ReplyRoundTrips json (processRequestFromNats json env cache requestJson)) :
    StatusAgrees json clientRequestId (processRequestFromNats json env cache requestJson) ↔
      StatusKept json env cache clientRequestId requestJson := by
  unfold processRequestFromNats at hround ⊢
  cases hparse : parseRequestData json env.sentry requestJson with
  | refused =>
    rw [hparse] at hround
    obtain ⟨reply, hwritten, hderived⟩ := derivedStatus_refused hround
    refine ⟨fun h => ?_, fun h => absurd hparse h.notRefused⟩
    have hrecorded := h reply hwritten
    rw [hderived] at hrecorded
    exact absurd (Option.some.inj hrecorded) (by decide)
  | thrown =>
    rw [hparse] at hround
    exact ⟨fun _ => statusKept_of_thrown hparse, fun _ => statusAgrees_failTask hround⟩
  | accepted j =>
    rw [hparse] at hround
    rw [statusKept_iff_of_accepted hparse]
    dsimp only at hround ⊢
    cases hdecode : decodeNatsRequest j with
    | error e =>
      rw [hdecode] at hround
      cases e with
      | missingKey key => exact ⟨False.elim, fun h => h.1 key rfl⟩
      | typeError =>
        refine ⟨fun _ => ⟨by simp, by simp⟩, fun _ => statusAgrees_failTask hround⟩
      | invalidBase64 =>
        refine ⟨fun _ => ⟨by simp, by simp⟩, fun _ => statusAgrees_failTask hround⟩
    | ok data =>
      rw [hdecode] at hround
      dsimp only at hround ⊢
      rw [statusAgrees_decoded_iff hround]
      refine ⟨fun h => ⟨by simp, ?_⟩, fun h response => h.2 data response rfl⟩
      intro data' response hdata
      obtain rfl := Except.ok.inj hdata
      exact h response

/-- The sample request is answered by the backend with a page that is no text. -/
def rawPageTask : TaskChoices where
  sentry := true
  dedup := ⟨true, 10000, 60000⟩
  now := 0
  timestampUs := 1
  traceparentHeader _ := []
  executeL2Call _ := .ok rawPage
  what := []

/-- A library that knows the text of the request and that of the answer. -/
def exchangeJson : JsonLibrary := rawPageJson.reading sampleText.bytes (.value sampleEnvelope.wire)

theorem parseRequestData_exchangeJson :
    parseRequestData exchangeJson rawPageTask.sentry sampleText.bytes =
      .accepted sampleEnvelope.wire := by
  unfold parseRequestData exchangeJson
  rw [JsonLibrary.parse_reading_self]
  rfl

theorem decodeNatsRequest_sampleEnvelope :
    ∃ data, decodeNatsRequest sampleEnvelope.wire = .ok data ∧ data.requestId = ascii "7" :=
  ⟨_, rfl, rfl⟩

/-- The reply is the envelope of the page. -/
theorem processRequestFromNats_rawPageTask :
    processRequestFromNats exchangeJson rawPageTask DedupCache.empty sampleText.bytes =
      .done 404 (some (.fresh (.object (l2ResponseEnvelope (ascii "7") [] 1 rawPage).entries)
        rawPageText.bytes)) := by
  obtain ⟨data, hdecode, hid⟩ := decodeNatsRequest_sampleEnvelope
  have hutf8 : (JsonValue.object (l2ResponseEnvelope (ascii "7") [] 1 rawPage).entries).allUtf8 =
      true := by
    rw [JsonObject.allUtf8_iff, utf8_l2ResponseEnvelope_iff]
    decide +kernel
  have hwritten : writtenReply exchangeJson (l2ResponseEnvelope data.requestId [] 1 rawPage) =
      some (.fresh (.object (l2ResponseEnvelope (ascii "7") [] 1 rawPage).entries)
        rawPageText.bytes) := by
    unfold writtenReply
    rw [hid, exchangeJson.dump_of_allUtf8 hutf8]
    rfl
  have hsend : sendL2Response exchangeJson rawPageTask data =
      .done 404 (some (.fresh (.object (l2ResponseEnvelope (ascii "7") [] 1 rawPage).entries)
        rawPageText.bytes)) := by
    show (match writtenReply exchangeJson (l2ResponseEnvelope data.requestId [] 1 rawPage) with
      | none => failTask exchangeJson []
      | some reply => TaskOutcome.done rawPage.statusCode (some reply)) = _
    rw [hwritten]
    rfl
  unfold processRequestFromNats
  rw [parseRequestData_exchangeJson]
  dsimp only
  rw [hdecode]
  exact hsend

theorem statusAgrees_processRequestFromNats_rawPageTask :
    ∃ reply, processRequestFromNats exchangeJson rawPageTask DedupCache.empty sampleText.bytes =
        .done 404 (some reply) ∧
      derivedStatus exchangeJson (ascii "7") reply.text = some 404 := by
  have hround : ReplyRoundTrips exchangeJson
      (processRequestFromNats exchangeJson rawPageTask DedupCache.empty sampleText.bytes) := by
    intro status j text h
    rw [processRequestFromNats_rawPageTask, TaskOutcome.done.injEq, Option.some.injEq,
      Reply.fresh.injEq] at h
    have hne : ¬ rawPageText.bytes = sampleText.bytes := by decide +kernel
    rw [← h.2.1]
    exact JsonLibrary.RoundTrips.reading (JsonLibrary.roundTrips_single _ rawPageText) hne _
  have hkept : StatusKept exchangeJson rawPageTask DedupCache.empty (ascii "7")
      sampleText.bytes := by
    obtain ⟨data, hdecode, -⟩ := decodeNatsRequest_sampleEnvelope
    rw [statusKept_iff_of_accepted parseRequestData_exchangeJson, hdecode]
    refine ⟨by simp, fun data' response _ hcached => ?_⟩
    have hempty : ∀ id, (DedupCache.find rawPageTask.dedup rawPageTask.now id
        DedupCache.empty).1 = none := fun _ => rfl
    rw [hempty] at hcached
    exact absurd hcached (by simp)
  have hiff := statusAgrees_processRequestFromNats_iff exchangeJson rawPageTask
    DedupCache.empty (ascii "7") sampleText.bytes hround
  rw [processRequestFromNats_rawPageTask] at hiff
  exact ⟨_, processRequestFromNats_rawPageTask, hiff.mpr hkept _ rfl⟩

/-- The text of the reply to a refused message. -/
def refusedText : Text where
  bytes := ascii "\x7b\"error\":\"Invalid request format\"\x7d"
  valid := by decide +kernel

/-- A library that knows this text. -/
def refusedJson : JsonLibrary :=
  JsonLibrary.single (.object (makeErrorJson (ascii "Invalid request format")).entries)
    refusedText

/-- **A message that is no JSON text**: 400 is recorded, and the client gets 500. -/
theorem processRequestFromNats_malformed :
    ∃ reply, processRequestFromNats refusedJson rawPageTask DedupCache.empty (ascii "\x7b") =
        .done 400 (some reply) ∧
      derivedStatus refusedJson (ascii "7") reply.text = some 500 ∧
      ¬ StatusAgrees refusedJson (ascii "7")
        (processRequestFromNats refusedJson rawPageTask DedupCache.empty (ascii "\x7b")) := by
  have hround : ReplyRoundTrips refusedJson (.done 400 (writtenReply refusedJson
      (makeErrorJson (ascii "Invalid request format")))) := by
    intro status j text h
    rw [TaskOutcome.done.injEq, writtenReply, Option.map_eq_some_iff] at h
    obtain ⟨-, text', -, hfresh⟩ := h
    rw [← (Reply.fresh.inj hfresh).1]
    exact JsonLibrary.roundTrips_single _ refusedText
  obtain ⟨reply, hwritten, hderived⟩ :=
    @derivedStatus_refused refusedJson (ascii "7") hround
  have hprocess : processRequestFromNats refusedJson rawPageTask DedupCache.empty (ascii "\x7b") =
      .done 400 (some reply) := by
    have hne : ¬ ascii "\x7b" = refusedText.bytes := by decide +kernel
    have hparse : parseRequestData refusedJson rawPageTask.sentry (ascii "\x7b") = .refused := by
      unfold parseRequestData refusedJson
      rw [JsonLibrary.parse_single_of_ne _ _ hne]
    unfold processRequestFromNats
    rw [hparse, ← hwritten]
  refine ⟨reply, hprocess, hderived, fun hagrees => ?_⟩
  rw [hprocess] at hagrees
  have hrecorded := hagrees reply rfl
  rw [hderived] at hrecorded
  exact absurd (Option.some.inj hrecorded) (by decide)

end Transport
end HttpDataDiod
