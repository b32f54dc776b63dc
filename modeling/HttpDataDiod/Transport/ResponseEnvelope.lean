import HttpDataDiod.Json.Utf8Decoder
import HttpDataDiod.Transport.EnvelopeText

/-!
# The response envelope

The answer of a backend goes back as one JSON object: the worker builds it in
`prepare_response_data` and `build_nats_response_envelope`, and the proxy reads it in
`set_response_content`.  The worker decides by the content type and by its own check of the
encoding whether the body travels verbatim or as base64; the proxy goes by the flag.

* `l2ResponseEnvelope`: the envelope of a response.
* `setResponseContent`: what the proxy gives the client.
* `utf8_l2ResponseEnvelope_iff`: the body is no reason for `dump` to throw.
* `setResponseContent_received`: the client gets the status and the body of the backend.
* `setResponseContent_contentType_iff`: and its content type, if there is one; a missing
  content type arrives as an empty one, and the default of the proxy is never used.
-/

namespace HttpDataDiod
namespace Transport

open ByteText JsonValue
open Proxy (findHeader getResponseBody getBodyBool)
open Proxy.NatsResponseContract

/-! ## The worker -/

/-- `L2Response`.  The headers are in the order in which the container has them, and the
status is an `int`. -/
structure L2Response where
  body : Bytes
  headers : List (Bytes × Bytes)
  statusCode : ℤ
  isInt : -2 ^ 31 ≤ statusCode ∧ statusCode < 2 ^ 31

/-- `ResponseData`. -/
structure ResponseData where
  contentType : Bytes
  isBinary : Bool

/-- `is_binary_content_type`. -/
def isBinaryContentType (contentType : Bytes) : Bool :=
  [ascii "image/", ascii "application/octet-stream", ascii "audio/", ascii "video/"].any
    fun kind => (findSub kind contentType).isSome

/-- `prepare_response_data`. -/
def prepareResponseData (r : L2Response) : ResponseData :=
  let contentType :=
    match findHeader r.headers (ascii "Content-Type") with
    | some value => sanitizeInvalid value
    | none => []
  { contentType, isBinary := isBinaryContentType contentType || !isValidUtf8 r.body }

/-- `headers_to_json`. -/
def headersToJson (headers : List (Bytes × Bytes)) : JsonObject :=
  JsonObject.of (headers.map fun h => (h.1, .string (sanitizeInvalid h.2)))

/-- The fields under `body`, in the order they are written. -/
def responseFields (requestId response : Bytes) (timestampUs : UInt64) (isBinary : Bool)
    (contentType traceparentHeader : Bytes) : List (Bytes × JsonValue) :=
  [(kBodyRequestId, JsonValue.string requestId),
   (kBodyResponse, .string response),
   (kBodyTimestamp, .uint timestampUs.toNat),
   (kBodyIsBinary, .bool isBinary),
   (kBodyContentType, .string contentType)] ++
  (if traceparentHeader.isEmpty then []
   else [(kBodyTraceparent, JsonValue.string traceparentHeader)])

/-- The fields of the envelope around a body. -/
def envelopeFields (statusCode : ℤ) (headersJson body : JsonObject) : List (Bytes × JsonValue) :=
  [(kStatus, JsonValue.int statusCode)] ++
  (if headersJson.entries.isEmpty then []
   else [(kHeaders, JsonValue.object headersJson.entries)]) ++
  [(kBody, JsonValue.object body.entries)]

/-- `build_nats_response_envelope`. -/
def buildNatsResponseEnvelope (statusCode : ℤ) (requestId response : Bytes) (timestampUs : UInt64)
    (isBinary : Bool) (contentType : Bytes) (headersJson : JsonObject)
    (traceparentHeader : Bytes) : JsonObject :=
  JsonObject.of (envelopeFields statusCode headersJson (JsonObject.of
    (responseFields requestId response timestampUs isBinary contentType traceparentHeader)))

/-- The body as it goes into the envelope. -/
def storedResponse (r : L2Response) : Bytes :=
  if (prepareResponseData r).isBinary then toBase64 r.body else r.body

/-- The envelope that `send_l2_response` builds. -/
def l2ResponseEnvelope (requestId traceparentHeader : Bytes) (timestampUs : UInt64)
    (r : L2Response) : JsonObject :=
  buildNatsResponseEnvelope r.statusCode requestId (storedResponse r) timestampUs
    (prepareResponseData r).isBinary (prepareResponseData r).contentType
    (headersToJson r.headers) traceparentHeader

/-! ## The proxy -/

/-- `is_field_vchar` of `httplib`. -/
def isFieldVchar (c : UInt8) : Bool := (33 ≤ c && c ≤ 126) || 128 ≤ c

/-- The part of `is_field_content` after the first byte. -/
def isFieldTail : Bytes → Bool
  | [] => true
  | [c] => isFieldVchar c
  | c :: s => (c = 32 || c = 9 || isFieldVchar c) && isFieldTail s

/-- `is_field_value`. -/
def isFieldValue : Bytes → Bool
  | [] => true
  | c :: s => isFieldVchar c && isFieldTail s

/-- What the client gets: the status, the body and the header `Content-Type`. -/
structure ClientResponse where
  status : ℤ
  body : Bytes
  contentType : Option Bytes

/-- The status with `set_content`, which does not set a value that is no field value. -/
def setContent (status : ℤ) (body contentType : Bytes) : ClientResponse where
  status := status
  body := body
  contentType := if isFieldValue contentType then some contentType else none

/-- `set_json_error_response`; `none` if `dump` throws. -/
def setJsonErrorResponse (json : JsonLibrary) (status : ℤ) (message requestId : Bytes) :
    Option ClientResponse :=
  let body := JsonObject.of
    ([(ascii "error", JsonValue.string message)] ++
     (if requestId.isEmpty then [] else [(ascii "request_id", JsonValue.string requestId)]))
  (json.dump (.object body.entries)).map fun text =>
    setContent status text (ascii "application/json")

/-- `set_response_content`; `none` if it throws, which `from_base64` may do. -/
def setResponseContent (json : JsonLibrary) (requestId : Bytes) (j : JsonValue) :
    Option ClientResponse :=
  if j.isObject then
    let l2Response := (getResponseBody j).safeGetString kBodyResponse []
    let statusCode := j.safeGetInt kStatus 500
    let contentType :=
      (getResponseBody j).safeGetString kBodyContentType (ascii "application/json")
    if getBodyBool j kBodyIsBinary then
      (fromBase64 l2Response).map fun decoded => setContent statusCode decoded contentType
    else some (setContent statusCode l2Response contentType)
  else setJsonErrorResponse json 500 (ascii "Invalid response format") requestId

/-- **The span of an answer** has the status that the client gets. -/
theorem logged_setResponseContent {json : JsonLibrary} {requestId : Bytes} {j : JsonValue}
    {client : ClientResponse} (hobject : j.isObject = true)
    (h : setResponseContent json requestId j = some client) (cfg : Proxy.ProxyConfig)
    (env : Proxy.HandlerChoices) (method : Proxy.Method) (path : Bytes)
    (ctx : Tracing.TraceContext) :
    Proxy.setResponseContent (vendored json) cfg env method path ctx j =
      Proxy.logged cfg env 3
        (Proxy.proxyResponseCall cfg env method.text path client.status ctx) := by
  have hdecode : ∀ s, (vendored json).base64.decode s = fromBase64 s := fun _ => rfl
  unfold setResponseContent at h
  unfold Proxy.setResponseContent
  rw [if_pos hobject] at h
  dsimp only at h ⊢
  rw [hobject, hdecode, Bool.true_and]
  cases hbinary : getBodyBool j kBodyIsBinary with
  | true =>
    rw [hbinary, if_pos rfl, Option.map_eq_some_iff] at h
    obtain ⟨decoded, hdecoded, rfl⟩ := h
    rw [hdecoded]
    rfl
  | false =>
    rw [hbinary, if_neg (by decide), Option.some.injEq] at h
    rw [← h]
    rfl

/-! ## Reading the envelope -/

section Access

variable {o b : JsonObject} {key s : Bytes}

theorem safeGetString_received (h : o.find key = some (.string s)) (fallback : Bytes) :
    (received o).safeGetString key fallback = s := by
  unfold safeGetString
  rw [find_received_string h]

theorem safeGetInt_received {n : ℤ} (h : o.find key = some (.int n)) (fallback : ℤ) :
    (received o).safeGetInt key fallback = n.bmod (2 ^ 32) := by
  have hfind : (JsonValue.object o.entries).find key = some (.int n) := h
  rw [received, safeGetInt_wire]
  unfold safeGetInt
  rw [hfind]

theorem safeGetInt_received_none (h : o.find key = none) (fallback : ℤ) :
    (received o).safeGetInt key fallback = fallback := by
  unfold safeGetInt
  rw [find_received_none h]

theorem getResponseBody_received (h : o.find kBody = some (.object b.entries)) :
    getResponseBody (received o) = received b := by
  unfold getResponseBody
  rw [find_received, h, Option.map_some, received, wire_object]

theorem getBodyBool_received {flag : Bool} (hbody : o.find kBody = some (.object b.entries))
    (h : b.find key = some (.bool flag)) : getBodyBool (received o) key = flag := by
  unfold getBodyBool
  rw [getResponseBody_received hbody, find_received, h, Option.map_some, wire_bool]

end Access

/-! ## The fields of the envelope -/

section Fields

variable {statusCode : ℤ} {requestId response contentType traceparentHeader : Bytes}
  {timestampUs : UInt64} {isBinary : Bool} {headersJson : JsonObject}

theorem nodup_responseFields :
    ((responseFields requestId response timestampUs isBinary contentType traceparentHeader).map
      Prod.fst).Nodup := by
  have hkeys : [kBodyRequestId, kBodyResponse, kBodyTimestamp, kBodyIsBinary, kBodyContentType,
      kBodyTraceparent].Nodup := by decide
  unfold responseFields
  split
  · exact hkeys.sublist (List.sublist_append_left _ [kBodyTraceparent])
  · exact hkeys

theorem nodup_envelopeFields {body : JsonObject} :
    ((envelopeFields statusCode headersJson body).map Prod.fst).Nodup := by
  unfold envelopeFields
  split
  · show [kStatus, kBody].Nodup
    decide
  · show [kStatus, kHeaders, kBody].Nodup
    decide

theorem find_response_responseFields :
    (JsonObject.of (responseFields requestId response timestampUs isBinary contentType
      traceparentHeader)).find kBodyResponse = some (.string response) :=
  JsonObject.find_of_of_mem nodup_responseFields (List.mem_append_left _ (by simp))

theorem find_isBinary_responseFields :
    (JsonObject.of (responseFields requestId response timestampUs isBinary contentType
      traceparentHeader)).find kBodyIsBinary = some (.bool isBinary) :=
  JsonObject.find_of_of_mem nodup_responseFields (List.mem_append_left _ (by simp))

theorem find_contentType_responseFields :
    (JsonObject.of (responseFields requestId response timestampUs isBinary contentType
      traceparentHeader)).find kBodyContentType = some (.string contentType) :=
  JsonObject.find_of_of_mem nodup_responseFields (List.mem_append_left _ (by simp))

theorem find_status_buildNatsResponseEnvelope :
    (buildNatsResponseEnvelope statusCode requestId response timestampUs isBinary contentType
      headersJson traceparentHeader).find kStatus = some (.int statusCode) :=
  JsonObject.find_of_of_mem nodup_envelopeFields
    (List.mem_append_left _ (List.mem_append_left _ List.mem_cons_self))

theorem find_body_buildNatsResponseEnvelope :
    (buildNatsResponseEnvelope statusCode requestId response timestampUs isBinary contentType
      headersJson traceparentHeader).find kBody =
      some (.object (JsonObject.of (responseFields requestId response timestampUs isBinary
        contentType traceparentHeader)).entries) :=
  JsonObject.find_of_of_mem nodup_envelopeFields
    (List.mem_append_right _ List.mem_cons_self)

/-- **What the proxy makes of an envelope**: the content is decoded by the flag. -/
theorem setResponseContent_buildNatsResponseEnvelope (json : JsonLibrary)
    (clientRequestId : Bytes) :
    setResponseContent json clientRequestId (received (buildNatsResponseEnvelope statusCode
      requestId response timestampUs isBinary contentType headersJson traceparentHeader)) =
      if isBinary then
        (fromBase64 response).map fun decoded =>
          setContent (statusCode.bmod (2 ^ 32)) decoded contentType
      else some (setContent (statusCode.bmod (2 ^ 32)) response contentType) := by
  unfold setResponseContent
  rw [if_pos (isObject_received _),
    safeGetInt_received find_status_buildNatsResponseEnvelope,
    getResponseBody_received find_body_buildNatsResponseEnvelope,
    safeGetString_received find_response_responseFields,
    safeGetString_received find_contentType_responseFields,
    getBodyBool_received find_body_buildNatsResponseEnvelope find_isBinary_responseFields]

end Fields

/-! ## The round trip of a response -/

section RoundTrip

variable (requestId traceparentHeader : Bytes) (timestampUs : UInt64) (r : L2Response)

/-- A body that is not flagged as binary is well formed. -/
theorem isValidUtf8_body (h : (prepareResponseData r).isBinary = false) :
    isValidUtf8 r.body = true := by
  have hflag : (isBinaryContentType (prepareResponseData r).contentType ||
      !isValidUtf8 r.body) = false := h
  rw [Bool.or_eq_false_iff, Bool.not_eq_false'] at hflag
  exact hflag.2

theorem isValidUtf8_storedResponse : isValidUtf8 (storedResponse r) = true := by
  unfold storedResponse
  split
  · exact isValidUtf8_toBase64 r.body
  · rename_i hflag
    exact isValidUtf8_body r (Bool.eq_false_iff.mpr hflag)

theorem isValidUtf8_contentType : isValidUtf8 (prepareResponseData r).contentType = true := by
  unfold prepareResponseData
  dsimp only
  split
  · exact isValidUtf8_sanitizeInvalid _
  · rfl

/-- The fields under `body` are well formed if the id and the trace are. -/
theorem utf8_responseFields_iff :
    (JsonObject.of (responseFields requestId (storedResponse r) timestampUs
      (prepareResponseData r).isBinary (prepareResponseData r).contentType
      traceparentHeader)).Utf8 ↔
      isValidUtf8 requestId = true ∧ isValidUtf8 traceparentHeader = true := by
  have htrace : (∀ p ∈ (if traceparentHeader.isEmpty then []
      else [(kBodyTraceparent, JsonValue.string traceparentHeader)]), EntryUtf8 p) ↔
      isValidUtf8 traceparentHeader = true := by
    split
    · rename_i hempty
      rw [List.isEmpty_iff.mp hempty]
      exact ⟨fun _ => rfl, fun _ => List.forall_mem_nil _⟩
    · rw [List.forall_mem_singleton, entryUtf8_string_iff (by decide)]
  rw [utf8_of_iff nodup_responseFields, responseFields, List.forall_mem_append, htrace]
  simp only [List.forall_mem_cons,
    entryUtf8_string_iff (show isValidUtf8 kBodyRequestId = true by decide),
    entryUtf8_string_iff (show isValidUtf8 kBodyResponse = true by decide),
    entryUtf8_string_iff (show isValidUtf8 kBodyContentType = true by decide),
    isValidUtf8_storedResponse, isValidUtf8_contentType]
  constructor
  · rintro ⟨⟨hid, -⟩, htrace⟩
    exact ⟨hid, htrace⟩
  · rintro ⟨hid, htrace⟩
    exact ⟨⟨hid, trivial, entryUtf8_mk (by decide) (allUtf8_uint _),
      entryUtf8_mk (by decide) (allUtf8_bool _), trivial, List.forall_mem_nil _⟩, htrace⟩

/-- **The body is no reason to throw.**  The envelope can be written out exactly when the
id, the trace and the names of the headers are well formed. -/
theorem utf8_l2ResponseEnvelope_iff :
    (l2ResponseEnvelope requestId traceparentHeader timestampUs r).Utf8 ↔
      isValidUtf8 requestId = true ∧ isValidUtf8 traceparentHeader = true ∧
        ∀ h ∈ r.headers, isValidUtf8 h.1 = true := by
  unfold l2ResponseEnvelope buildNatsResponseEnvelope
  rw [utf8_of_iff nodup_envelopeFields, envelopeFields, List.forall_mem_append,
    List.forall_mem_append, List.forall_mem_singleton, List.forall_mem_singleton,
    entryUtf8_nonempty_iff (by decide), headersToJson, utf8_sanitizedHeaders_iff,
    List.all_eq_true]
  have hbody := utf8_responseFields_iff requestId traceparentHeader timestampUs r
  rw [← JsonObject.allUtf8_iff] at hbody
  constructor
  · rintro ⟨⟨-, hheaders⟩, hentry⟩
    obtain ⟨hid, htrace⟩ := hbody.mp hentry.2
    exact ⟨hid, htrace, hheaders⟩
  · rintro ⟨hid, htrace, hheaders⟩
    exact ⟨⟨entryUtf8_mk (by decide) (allUtf8_int _), hheaders⟩,
      entryUtf8_mk (by decide) (hbody.mpr ⟨hid, htrace⟩)⟩

/-- An `int` is read back as it was written. -/
theorem bmod_statusCode : r.statusCode.bmod (2 ^ 32) = r.statusCode := by
  obtain ⟨hlow, hhigh⟩ := r.isInt
  exact Int.bmod_eq_of_le_mul_two (by omega) (by omega)

/-- **The round trip.**  The client gets the status and the body of the backend, and the
content type of the envelope. -/
theorem setResponseContent_received (json : JsonLibrary) (clientRequestId : Bytes) :
    setResponseContent json clientRequestId
        (received (l2ResponseEnvelope requestId traceparentHeader timestampUs r)) =
      some (setContent r.statusCode r.body (prepareResponseData r).contentType) := by
  unfold l2ResponseEnvelope storedResponse
  rw [setResponseContent_buildNatsResponseEnvelope, bmod_statusCode]
  cases (prepareResponseData r).isBinary with
  | true =>
    rw [if_pos rfl, if_pos rfl, fromBase64_toBase64]
    rfl
  | false =>
    rw [if_neg (by decide), if_neg (by decide)]

end RoundTrip

/-- **From the backend to the client.**  Whether the envelope can be written out does not
depend on the body, and the client gets the status and the body of the backend: byte for
byte, whichever way it went. -/
theorem setResponseContent_parse_dump (json : JsonLibrary)
    (requestId traceparentHeader clientRequestId : Bytes) (timestampUs : UInt64)
    (r : L2Response) :
    ((json.dumpStrict (.object (l2ResponseEnvelope requestId traceparentHeader timestampUs
        r).entries)).isSome = true ↔
      isValidUtf8 requestId = true ∧ isValidUtf8 traceparentHeader = true ∧
        ∀ h ∈ r.headers, isValidUtf8 h.1 = true) ∧
    ∀ text, json.dumpStrict (.object (l2ResponseEnvelope requestId traceparentHeader timestampUs
        r).entries) = some text →
      json.RoundTrips (.object (l2ResponseEnvelope requestId traceparentHeader timestampUs
        r).entries) →
      ∃ j client, json.parse text = .value j ∧
        setResponseContent json clientRequestId j = some client ∧
        client.status = r.statusCode ∧ client.body = r.body := by
  rw [JsonLibrary.dumpStrict_eq_dump]
  constructor
  · rw [JsonLibrary.isSome_dump, JsonObject.allUtf8_iff]
    exact utf8_l2ResponseEnvelope_iff requestId traceparentHeader timestampUs r
  · intro text hdump hround
    exact ⟨_, _, hround.parse hdump,
      setResponseContent_received requestId traceparentHeader timestampUs r json clientRequestId,
      rfl, rfl⟩

/-- A page that is no text, as a legacy backend answers it. -/
def rawPage : L2Response where
  body := [0xFF]
  headers := [(ascii "Content-Type", ascii "text/html")]
  statusCode := 404
  isInt := by decide

/-- The text of its envelope. -/
def rawPageText : Text where
  bytes := ascii "\x7b\"body\":\x7b\"content_type\":\"text/html\"," ++
    ascii "\"is_binary\":true," ++ ascii "\"request_id\":\"7\"," ++
    ascii "\"response\":\"/w==\"," ++ ascii "\"timestamp\":1\x7d," ++
    ascii "\"headers\":\x7b\"Content-Type\":\"text/html\"\x7d," ++
    ascii "\"status_code\":404\x7d"
  valid := by decide +kernel

/-- A library that knows this text. -/
def rawPageJson : JsonLibrary :=
  JsonLibrary.single (.object (l2ResponseEnvelope (ascii "7") [] 1 rawPage).entries) rawPageText

theorem setResponseContent_parse_dump_rawPage :
    ∃ text j client,
      rawPageJson.dumpStrict (.object (l2ResponseEnvelope (ascii "7") [] 1 rawPage).entries) =
        some text ∧
      rawPageJson.parse text = .value j ∧
      setResponseContent rawPageJson (ascii "7") j = some client ∧
      client.status = 404 ∧ client.body = [0xFF] := by
  obtain ⟨hsome, hround⟩ :=
    setResponseContent_parse_dump rawPageJson (ascii "7") [] (ascii "7") 1 rawPage
  have hutf8 : isValidUtf8 (ascii "7") = true ∧ isValidUtf8 [] = true ∧
      ∀ h ∈ rawPage.headers, isValidUtf8 h.1 = true := by decide +kernel
  obtain ⟨text, hdump⟩ := Option.isSome_iff_exists.mp (hsome.mpr hutf8)
  obtain ⟨j, client, hparse, hclient, hstatus, hbody⟩ :=
    hround text hdump (JsonLibrary.roundTrips_single _ rawPageText)
  exact ⟨text, j, client, hdump, hparse, hclient, hstatus, hbody⟩

/-! ## The content type -/

/-- A response as the HTTP client gives it: the values of its headers are field values. -/
structure UpstreamResponse extends L2Response where
  fieldValues : ∀ h ∈ headers, isFieldValue h.2 = true

/-- **The content types agree**: the client gets the one of the backend if it is text, and
`application/json` if the backend sent none. -/
def ContentTypeAgrees (r : L2Response) (client : ClientResponse) : Prop :=
  (∀ value, findHeader r.headers (ascii "Content-Type") = some value →
    isValidUtf8 value = true → client.contentType = some value) ∧
  (findHeader r.headers (ascii "Content-Type") = none →
    client.contentType = some (ascii "application/json"))

theorem isFieldValue_of_findHeader (r : UpstreamResponse) {name value : Bytes}
    (h : findHeader r.headers name = some value) : isFieldValue value = true := by
  obtain ⟨hd, hfind, rfl⟩ := Option.map_eq_some_iff.mp h
  exact r.fieldValues hd (List.mem_of_find?_eq_some hfind)

/-- A content type that is text is kept. -/
theorem contentType_setContent_of_some (r : UpstreamResponse) {value : Bytes}
    (h : findHeader r.headers (ascii "Content-Type") = some value)
    (hutf8 : isValidUtf8 value = true) (status : ℤ) (body : Bytes) :
    (setContent status body (prepareResponseData r.toL2Response).contentType).contentType =
      some value := by
  have hcontentType : (prepareResponseData r.toL2Response).contentType = value := by
    unfold prepareResponseData
    rw [h]
    exact sanitizeInvalid_of_isValidUtf8 hutf8
  rw [hcontentType, setContent, if_pos (isFieldValue_of_findHeader r h)]

/-- A missing one becomes the empty one. -/
theorem contentType_setContent_of_none (r : L2Response)
    (h : findHeader r.headers (ascii "Content-Type") = none) (status : ℤ) (body : Bytes) :
    (setContent status body (prepareResponseData r).contentType).contentType = some [] := by
  have hcontentType : (prepareResponseData r).contentType = [] := by
    unfold prepareResponseData
    rw [h]
  rw [hcontentType]
  rfl

theorem contentTypeAgrees_setContent_iff (r : UpstreamResponse) (status : ℤ) (body : Bytes) :
    ContentTypeAgrees r.toL2Response
        (setContent status body (prepareResponseData r.toL2Response).contentType) ↔
      (findHeader r.headers (ascii "Content-Type")).isSome = true := by
  constructor
  · intro h
    by_contra hnone
    rw [Bool.not_eq_true, Option.isSome_eq_false_iff, Option.isNone_iff_eq_none] at hnone
    have hdefault := h.2 hnone
    rw [contentType_setContent_of_none _ hnone] at hdefault
    exact absurd (Option.some.inj hdefault) (by decide)
  · intro h
    obtain ⟨value, hvalue⟩ := Option.isSome_iff_exists.mp h
    refine ⟨fun value' hvalue' hutf8 => contentType_setContent_of_some r hvalue' hutf8 _ _,
      fun hnone => ?_⟩
    rw [hnone] at hvalue
    exact absurd hvalue (by simp)

/-- **The content type from the backend to the client** agrees exactly when the backend
sent one. -/
theorem setResponseContent_contentType_iff (json : JsonLibrary)
    (requestId traceparentHeader clientRequestId : Bytes) (timestampUs : UInt64)
    (r : UpstreamResponse) (text : Bytes)
    (hdump : json.dumpStrict (.object (l2ResponseEnvelope requestId traceparentHeader timestampUs
      r.toL2Response).entries) = some text)
    (hround : json.RoundTrips (.object (l2ResponseEnvelope requestId traceparentHeader timestampUs
      r.toL2Response).entries)) :
    ∃ j client, json.parse text = .value j ∧
      setResponseContent json clientRequestId j = some client ∧
      (ContentTypeAgrees r.toL2Response client ↔
        (findHeader r.headers (ascii "Content-Type")).isSome = true) := by
  rw [JsonLibrary.dumpStrict_eq_dump] at hdump
  exact ⟨_, _, hround.parse hdump,
    setResponseContent_received requestId traceparentHeader timestampUs r.toL2Response json
      clientRequestId,
    contentTypeAgrees_setContent_iff r _ _⟩

theorem setResponseContent_contentType_rawPage :
    ∃ j client, rawPageJson.parse rawPageText.bytes = .value j ∧
      setResponseContent rawPageJson (ascii "7") j = some client ∧
      ContentTypeAgrees rawPage client := by
  have hdump : rawPageJson.dumpStrict (.object (l2ResponseEnvelope (ascii "7") [] 1
      rawPage).entries) = some rawPageText.bytes := by
    rw [JsonLibrary.dumpStrict_eq_dump]
    refine rawPageJson.dump_of_allUtf8 ?_
    rw [JsonObject.allUtf8_iff, utf8_l2ResponseEnvelope_iff]
    decide +kernel
  have hfields : ∀ h ∈ rawPage.headers, isFieldValue h.2 = true := by decide +kernel
  obtain ⟨j, client, hparse, hclient, hagrees⟩ :=
    setResponseContent_contentType_iff rawPageJson (ascii "7") [] (ascii "7") 1
      ⟨rawPage, hfields⟩ rawPageText.bytes hdump (JsonLibrary.roundTrips_single _ rawPageText)
  have hpresent : (findHeader rawPage.headers (ascii "Content-Type")).isSome = true := by
    decide +kernel
  exact ⟨j, client, hparse, hclient, hagrees.mpr hpresent⟩

/-- The worker's own answer for the path `/x` when no backend serves it. -/
def forbiddenAnswer : UpstreamResponse where
  body := ascii "\x7b\"error\":\"Access to arbitrary L2 " ++
    ascii "server address is forbidden! path=/x\"\x7d"
  headers := []
  statusCode := 403
  isInt := by decide
  fieldValues := List.forall_mem_nil _

/-- The text of its envelope. -/
def forbiddenText : Text where
  bytes := ascii "\x7b\"body\":\x7b\"content_type\":\"\"," ++ ascii "\"is_binary\":false," ++
    ascii "\"request_id\":\"7\"," ++
    ascii "\"response\":\"\x7b\\\"error\\\":\\\"Access to arbitrary L2 " ++
    ascii "server address is forbidden! path=/x\\\"\x7d\"," ++
    ascii "\"timestamp\":1\x7d," ++ ascii "\"status_code\":403\x7d"
  valid := by decide +kernel

/-- A library that knows this text. -/
def forbiddenJson : JsonLibrary :=
  JsonLibrary.single (.object (l2ResponseEnvelope (ascii "7") [] 1
    forbiddenAnswer.toL2Response).entries) forbiddenText

/-- **A missing content type**: the client gets an empty one. -/
theorem setResponseContent_forbiddenAnswer :
    ∃ j client, forbiddenJson.parse forbiddenText.bytes = .value j ∧
      setResponseContent forbiddenJson (ascii "7") j = some client ∧
      client.contentType = some [] ∧ ¬ ContentTypeAgrees forbiddenAnswer.toL2Response client := by
  have hparse : forbiddenJson.parse forbiddenText.bytes = .value (received
      (l2ResponseEnvelope (ascii "7") [] 1 forbiddenAnswer.toL2Response)) :=
    JsonLibrary.roundTrips_single _ forbiddenText
  refine ⟨_, _, hparse, setResponseContent_received (ascii "7") [] 1
    forbiddenAnswer.toL2Response forbiddenJson (ascii "7"), rfl, ?_⟩
  rw [contentTypeAgrees_setContent_iff]
  decide

end Transport
end HttpDataDiod
