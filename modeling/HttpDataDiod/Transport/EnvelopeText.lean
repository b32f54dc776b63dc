import HttpDataDiod.Proxy.RequestSpans
import HttpDataDiod.Transport.RequestEnvelope

/-!
# Which requests can be written out

`push_request` writes the envelope of a request with `dump`, which throws at the first
string that is not well-formed UTF-8.  Of the strings of a request only the header values
are sanitised, and of the bodies only those that are no JSON text are encoded; the path,
the query, the client's address, the header names and a body that `json::accept` takes go
in as they are, and so does the trace id of an accepted `traceparent`.

* `pushRequest`: the text, or the exception, with and without a tracer.
* `envelopeOk`: the condition on a request.
* `isSome_pushRequest_iff`: it is the condition for a text.
* `decoded_of_pushRequest`: the worker decodes the method and the body from the text.
-/

namespace HttpDataDiod
namespace Transport

open ByteText JsonValue Proxy Worker NatsContract Tracing

/-! ## `push_request` -/

variable (json : JsonLibrary) (env : HandlerChoices) (method : Method) (body : Bytes)
  (req : Request)

/-- The envelope that is written out without a tracer: all ids are empty. -/
def untracedData : JsonObject :=
  (prepareRequestData (vendored json) env.requestId.bytes method.text req.path body req []).assign
    [(kTimestamp, .int (env.now 2).toNat), (kProxySpanId, .string []), (kProxyTraceId, .string [])]

/-- `push_request` of what `prepare_request_data` gives. -/
def pushRequest (tracer : Bool) : Option Bytes :=
  json.dump (.object
    (if tracer then pushedData (vendored json) env method body req (requestTraceContext env req)
     else untracedData json env method body req).entries)

/-! ## The condition -/

/-- The trace id taken over from the header is well formed. -/
def traceIdOk (traceparentRaw : Bytes) : Bool :=
  match parseTraceparent traceparentRaw with
  | some p => isValidUtf8 p.traceId
  | none => true

/-- The condition on the parts of a request that do not depend on the tracer. -/
def contentOk : Bool :=
  isValidUtf8 req.path && isValidUtf8 (extractQueryString req) &&
  isValidUtf8 (extractClientIp req) &&
  (filterHeaders req.headers).all (fun h => isValidUtf8 h.1) &&
  (body.isEmpty || !json.accept body || isValidUtf8 body)

/-- **The condition on a request.** -/
def envelopeOk (tracer : Bool) : Bool :=
  contentOk json body req && (!tracer || traceIdOk (getTraceparentHeader req))

/-! ## The envelope of `prepare_request_data` -/

variable {json env method body req}

theorem entryUtf8_string_iff {key s : Bytes} (hkey : isValidUtf8 key = true) :
    EntryUtf8 (key, .string s) ↔ isValidUtf8 s = true := by
  constructor
  · intro h
    have hs := h.2
    rwa [allUtf8_string] at hs
  · exact entryUtf8_string hkey

theorem utf8_of_iff {pairs : List (Bytes × JsonValue)} (hnodup : (pairs.map Prod.fst).Nodup) :
    (JsonObject.of pairs).Utf8 ↔ ∀ p ∈ pairs, EntryUtf8 p :=
  ⟨fun h _ hp => h.of_assign hnodup hp, JsonObject.utf8_of⟩

/-- The values of a header object are sanitised, so its names decide. -/
theorem utf8_sanitizedHeaders_iff (headers : List (Bytes × Bytes)) :
    (JsonObject.of (headers.map fun h => (h.1, .string (sanitizeInvalid h.2)))).Utf8 ↔
      headers.all (fun h => isValidUtf8 h.1) = true := by
  rw [List.all_eq_true]
  constructor
  · intro h hd hmem
    have hkey : hd.1 ∈ (JsonObject.of
        (headers.map fun h => (h.1, .string (sanitizeInvalid h.2)))).entries.map Prod.fst := by
      refine mem_keys_assign.mpr (Or.inr ?_)
      rw [List.map_map]
      exact List.mem_map_of_mem hmem
    obtain ⟨e, he, heq⟩ := List.mem_map.mp hkey
    rw [← heq]
    exact (h e he).1
  · intro h
    refine JsonObject.utf8_of fun p hp => ?_
    obtain ⟨hd, hmem, rfl⟩ := List.mem_map.mp hp
    exact entryUtf8_string (h hd hmem) (isValidUtf8_sanitizeInvalid hd.2)

/-- An object that is written only if it is not empty. -/
theorem entryUtf8_nonempty_iff {key : Bytes} (hkey : isValidUtf8 key = true) (o : JsonObject) :
    (∀ p ∈ (if o.entries.isEmpty then [] else [(key, JsonValue.object o.entries)]),
      EntryUtf8 p) ↔ o.Utf8 := by
  split
  · rename_i hempty
    refine ⟨fun _ e he => ?_, fun _ => List.forall_mem_nil _⟩
    rw [List.isEmpty_iff.mp hempty] at he
    exact absurd he List.not_mem_nil
  · rw [List.forall_mem_singleton, ← JsonObject.allUtf8_iff]
    exact ⟨fun h => h.2, fun h => entryUtf8_mk hkey h⟩

/-- The body is encoded, or decides for itself. -/
theorem entryUtf8_body_iff :
    (∀ p ∈ (if !body.isEmpty && !(vendored json).json.accept body then
        [(kBody, .string ((vendored json).base64.encode body)), (kBodyIsBinary, .bool true)]
        else [(kBody, JsonValue.string body)]), EntryUtf8 p) ↔
      (body.isEmpty || !json.accept body || isValidUtf8 body) = true := by
  split
  · rename_i hbinary
    rw [Bool.and_eq_true, Bool.not_eq_true', Bool.not_eq_true'] at hbinary
    have haccept : json.accept body = false := hbinary.2
    simp only [List.forall_mem_cons, haccept, Bool.not_false, Bool.or_true, Bool.true_or,
      iff_true]
    exact ⟨entryUtf8_string (by decide) (isValidUtf8_toBase64 body),
      entryUtf8_mk (by decide) (allUtf8_bool true), List.forall_mem_nil _⟩
  · rename_i hverbatim
    have hempty : (body.isEmpty || !json.accept body) = true → body = [] := by
      intro h
      rcases Bool.or_eq_true _ _ ▸ h with h | h
      · exact List.isEmpty_iff.mp h
      · by_contra hne
        refine hverbatim ?_
        rw [Bool.and_eq_true]
        exact ⟨by simpa using hne, h⟩
    rw [List.forall_mem_singleton, entryUtf8_string_iff (by decide), Bool.or_eq_true]
    refine ⟨Or.inr, fun h => h.elim (fun h => ?_) id⟩
    rw [hempty h]
    rfl

/-- The header object, if there is one. -/
theorem entryUtf8_headers_iff :
    (∀ p ∈ (if (filterHeadersToJson req.headers).entries.isEmpty then []
        else [(kHeaders, .object (filterHeadersToJson req.headers).entries)]), EntryUtf8 p) ↔
      (filterHeaders req.headers).all (fun h => isValidUtf8 h.1) = true :=
  (entryUtf8_nonempty_iff (by decide) _).trans (utf8_sanitizedHeaders_iff _)

/-- **The envelope of `prepare_request_data`** can be written out exactly when its parts
are well formed. -/
theorem utf8_prepareRequestData_iff {requestId traceparent : Bytes}
    (hrequestId : isValidUtf8 requestId = true) :
    (prepareRequestData (vendored json) requestId method.text req.path body req traceparent).Utf8 ↔
      contentOk json body req = true ∧ isValidUtf8 traceparent = true := by
  have hmethod : isValidUtf8 method.text = true := by cases method <;> decide
  rw [prepareRequestData_eq, utf8_of_iff (nodup_requestPairs _ _ _ _ _ _ _), requestPairs,
    List.forall_mem_append, List.forall_mem_append, entryUtf8_body_iff, entryUtf8_headers_iff]
  simp only [List.forall_mem_cons,
    entryUtf8_string_iff (show isValidUtf8 kRequestId = true by decide),
    entryUtf8_string_iff (show isValidUtf8 kMethod = true by decide),
    entryUtf8_string_iff (show isValidUtf8 kPath = true by decide),
    entryUtf8_string_iff (show isValidUtf8 kQuery = true by decide),
    entryUtf8_string_iff (show isValidUtf8 kTraceparent = true by decide),
    entryUtf8_string_iff (show isValidUtf8 kClientIp = true by decide),
    entryUtf8_string_iff (show isValidUtf8 kProxyIp = true by decide),
    hrequestId, hmethod, req.localAddr.valid, true_and, contentOk, Bool.and_eq_true]
  constructor
  · rintro ⟨⟨⟨hpath, hquery, htrace, hclient, -⟩, hbody⟩, hheaders⟩
    exact ⟨⟨⟨⟨⟨hpath, hquery⟩, hclient⟩, hheaders⟩, hbody⟩, htrace⟩
  · rintro ⟨⟨⟨⟨⟨hpath, hquery⟩, hclient⟩, hheaders⟩, hbody⟩, htrace⟩
    exact ⟨⟨⟨hpath, hquery, htrace, hclient, List.forall_mem_nil _⟩, hbody⟩, hheaders⟩

/-- The keys of the envelope are not those of the trace. -/
theorem key_not_mem_trace {requestId traceparent : Bytes} {e : Bytes × JsonValue}
    (he : e ∈ (prepareRequestData (vendored json) requestId method.text req.path body req
      traceparent).entries) :
    e.1 ∉ [kTimestamp, kProxySpanId, kProxyTraceId, kProxyInletSpanId, kProxyTraceparent] := by
  have hkey : e.1 ∈ (requestPairs (vendored json) requestId method.text req.path body req
      traceparent).map Prod.fst := by
    rw [prepareRequestData_eq] at he
    exact List.mem_map_of_mem (JsonObject.mem_of_mem_entries_of he)
  rw [keys_requestPairs] at hkey
  have hall : ∀ key ∈ [kRequestId, kMethod, kPath, kQuery, kTraceparent, kClientIp, kProxyIp,
      kBody, kBodyIsBinary, kHeaders], key ∉ [kTimestamp, kProxySpanId, kProxyTraceId,
      kProxyInletSpanId, kProxyTraceparent] := by decide
  refine hall e.1 ?_
  rcases List.mem_append.mp hkey with hkey | hkey
  · rcases List.mem_append.mp hkey with hkey | hkey
    · exact List.mem_append_left [kBodyIsBinary, kHeaders] hkey
    · split at hkey
      · exact List.mem_append_right [kRequestId, kMethod, kPath, kQuery, kTraceparent, kClientIp,
          kProxyIp, kBody] (List.mem_cons.mpr (Or.inl (List.mem_singleton.mp hkey)))
      · exact absurd hkey List.not_mem_nil
  · split at hkey
    · exact absurd hkey List.not_mem_nil
    · exact List.mem_append_right [kRequestId, kMethod, kPath, kQuery, kTraceparent, kClientIp,
        kProxyIp, kBody] (List.mem_cons_of_mem kBodyIsBinary hkey)

/-! ## The trace -/

theorem isValidUtf8_generateTraceparent {traceId spanId : Bytes} (sampled : Bool)
    (htraceId : isValidUtf8 traceId = true) (hspanId : isValidUtf8 spanId = true) :
    isValidUtf8 (generateTraceparent traceId spanId sampled) = true := by
  have hflags : isValidUtf8 (if sampled then ascii "01" else ascii "00") = true := by
    cases sampled <;> decide
  have hdash : isValidUtf8 (ascii "-") = true := by decide
  have hversion : isValidUtf8 (ascii "00-") = true := by decide
  exact isValidUtf8_append_of_valid (isValidUtf8_append_of_valid (isValidUtf8_append_of_valid
    (isValidUtf8_append_of_valid (isValidUtf8_append_of_valid hversion htraceId) hdash) hspanId)
    hdash) hflags

/-- The trace id of the context is that of the header, or a generated one. -/
theorem isValidUtf8_traceId_iff :
    isValidUtf8 (requestTraceContext env req).traceId = true ↔
      traceIdOk (getTraceparentHeader req) = true := by
  have hempty : (if (getTraceparentHeader req).isEmpty then none
      else parseTraceparent (getTraceparentHeader req)) =
      parseTraceparent (getTraceparentHeader req) := by
    cases getTraceparentHeader req with
    | nil => rfl
    | cons c s => rfl
  unfold requestTraceContext handleTraceContext traceIdOk
  rw [hempty]
  cases parseTraceparent (getTraceparentHeader req) with
  | none => exact ⟨fun _ => rfl, fun _ => env.fresh.traceId.valid⟩
  | some p => exact Iff.rfl

theorem isValidUtf8_resolveTraceId_iff {ctx : TraceContext} :
    isValidUtf8 (resolveTraceId env ctx) = true ↔ isValidUtf8 ctx.traceId = true := by
  unfold resolveTraceId
  split
  · rename_i hempty
    rw [List.isEmpty_iff.mp hempty]
    exact ⟨fun _ => rfl, fun _ => env.resolvedTraceId.valid⟩
  · exact Iff.rfl

theorem isValidUtf8_traceparentForBackend {ctx : TraceContext}
    (hheader : ctx.traceId = [] → isValidUtf8 ctx.traceparentHeader = true)
    (h : isValidUtf8 ctx.traceId = true) :
    isValidUtf8 (traceparentForBackend env ctx) = true := by
  unfold traceparentForBackend
  split
  · rename_i hempty
    exact hheader (List.isEmpty_iff.mp hempty)
  · exact isValidUtf8_generateTraceparent true h env.pushSpanId.valid

/-- The header of a context is built from its trace id. -/
theorem isValidUtf8_traceparentHeader
    (h : isValidUtf8 (requestTraceContext env req).traceId = true) :
    isValidUtf8 (requestTraceContext env req).traceparentHeader = true := by
  unfold requestTraceContext handleTraceContext at h ⊢
  dsimp only at h ⊢
  split at h
  · exact isValidUtf8_generateTraceparent _ h env.fresh.spanId.valid
  · exact isValidUtf8_generateTraceparent _ h env.fresh.spanId.valid

/-- The fields that `push_request` adds. -/
theorem pushedPairs_keys (traceId spanId : Bytes) (timestamp : ℤ) :
    ([(kTimestamp, JsonValue.int timestamp), (kProxySpanId, .string spanId),
        (kProxyTraceId, .string traceId)] ++
      (if traceId.isEmpty || spanId.isEmpty then []
       else [(kProxyTraceparent, JsonValue.string (generateTraceparent traceId spanId true))])).map
        Prod.fst =
      [kTimestamp, kProxySpanId, kProxyTraceId] ++
        (if traceId.isEmpty || spanId.isEmpty then [] else [kProxyTraceparent]) := by
  split <;> rfl

/-- **With a tracer** the trace id has to be well formed, too. -/
theorem utf8_pushedData_iff :
    (pushedData (vendored json) env method body req (requestTraceContext env req)).Utf8 ↔
      contentOk json body req = true ∧ traceIdOk (getTraceparentHeader req) = true := by
  have hrequestId := env.requestId.valid
  rw [← @isValidUtf8_traceId_iff env req]
  unfold pushedData
  constructor
  · intro h
    have hprepare : (prepareRequestData (vendored json) env.requestId.bytes method.text req.path
        body req (traceparentForBackend env (requestTraceContext env req))).Utf8 := by
      intro e he
      have hkey := key_not_mem_trace he
      simp only [List.mem_cons, List.not_mem_nil, or_false, not_or] at hkey
      obtain ⟨h₁, h₂, h₃, h₄, h₅⟩ := hkey
      refine h e (JsonObject.mem_entries_assign (JsonObject.mem_entries_assign he ?_) ?_)
      · show e.1 ∉ [kProxyTraceId, kProxySpanId, kProxyInletSpanId, kProxyTraceparent]
        simp only [List.mem_cons, List.not_mem_nil, or_false, not_or]
        exact ⟨h₃, h₂, h₄, h₅⟩
      · rw [pushedPairs_keys]
        split
        · simp only [List.append_nil, List.mem_cons, List.not_mem_nil, or_false, not_or]
          exact ⟨h₁, h₂, h₃⟩
        · simp only [List.cons_append, List.nil_append, List.mem_cons, List.not_mem_nil, or_false,
            not_or]
          exact ⟨h₁, h₂, h₃, h₅⟩
    refine ⟨((utf8_prepareRequestData_iff hrequestId).mp hprepare).1, ?_⟩
    have hentry : EntryUtf8 (kProxyTraceId,
        .string (resolveTraceId env (requestTraceContext env req))) := by
      refine h.of_assign ?_ ?_
      · rw [pushedPairs_keys]
        split <;> decide
      · simp
    exact isValidUtf8_resolveTraceId_iff.mp
      ((entryUtf8_string_iff (show isValidUtf8 kProxyTraceId = true by decide)).mp hentry)
  · rintro ⟨hcontent, htraceId⟩
    have hresolved := (@isValidUtf8_resolveTraceId_iff env _).mpr htraceId
    have hspan := env.natsSpanId.valid
    have htraceparent := isValidUtf8_generateTraceparent true hresolved hspan
    have hbackend : isValidUtf8 (traceparentForBackend env (requestTraceContext env req)) = true :=
      isValidUtf8_traceparentForBackend (fun _ => isValidUtf8_traceparentHeader htraceId) htraceId
    have hprepare := (@utf8_prepareRequestData_iff json method body req _ _ hrequestId).mpr
      ⟨hcontent, hbackend⟩
    refine (hprepare.assign ?_).assign ?_
    · simp only [proxyTraceFields, List.forall_mem_cons]
      exact ⟨entryUtf8_string (by decide) hresolved, entryUtf8_string (by decide) hspan,
        entryUtf8_string (by decide) env.inletSpanId.valid,
        entryUtf8_string (by decide) htraceparent, List.forall_mem_nil _⟩
    · rw [List.forall_mem_append]
      constructor
      · simp only [List.forall_mem_cons]
        exact ⟨entryUtf8_mk (by decide) (allUtf8_int _), entryUtf8_string (by decide) hspan,
          entryUtf8_string (by decide) hresolved, List.forall_mem_nil _⟩
      · split
        · exact List.forall_mem_nil _
        · rw [List.forall_mem_singleton]
          exact entryUtf8_string (by decide) htraceparent

/-- **Without a tracer** nothing else is asked for. -/
theorem utf8_untracedData_iff :
    (untracedData json env method body req).Utf8 ↔ contentOk json body req = true := by
  have hrequestId := env.requestId.valid
  have hdisjoint : ∀ e ∈ (prepareRequestData (vendored json) env.requestId.bytes method.text
      req.path body req []).entries, e.1 ∉ [kTimestamp, kProxySpanId, kProxyTraceId] := by
    intro e he hmem
    refine key_not_mem_trace he ?_
    exact List.mem_append_left [kProxyInletSpanId, kProxyTraceparent] hmem
  have hnodup : ([kTimestamp, kProxySpanId, kProxyTraceId] : List Bytes).Nodup := by decide
  unfold untracedData
  refine (JsonObject.utf8_assign_iff (by exact hnodup) (by exact hdisjoint)).trans ?_
  rw [utf8_prepareRequestData_iff hrequestId]
  simp only [List.forall_mem_cons]
  constructor
  · rintro ⟨⟨hcontent, -⟩, -⟩
    exact hcontent
  · intro hcontent
    exact ⟨⟨hcontent, rfl⟩, entryUtf8_mk (by decide) (allUtf8_int _),
      entryUtf8_string (by decide) rfl, entryUtf8_string (by decide) rfl, List.forall_mem_nil _⟩

/-- The text of a request, by the two kinds of envelopes. -/
theorem isSome_pushRequest (tracer : Bool) :
    (pushRequest json env method body req tracer).isSome = true ↔
      envelopeOk json body req tracer = true := by
  unfold pushRequest envelopeOk
  rw [JsonLibrary.isSome_dump, JsonObject.allUtf8_iff]
  cases tracer with
  | false =>
    rw [if_neg (by decide), utf8_untracedData_iff]
    simp
  | true =>
    rw [if_pos rfl, utf8_pushedData_iff]
    simp

/-- **Writing a request out.**  `push_request` returns a text exactly when the path, the query,
the client's address and the names of the kept headers are well formed, the body is when it
travels verbatim, and with a tracer the trace id of an accepted `traceparent` is. -/
theorem isSome_pushRequest_iff (json : JsonLibrary) (env : HandlerChoices) (method : Method)
    (body : Bytes) (req : Request) (tracer : Bool) :
    (pushRequest json env method body req tracer).isSome = true ↔
      envelopeOk json body req tracer = true :=
  isSome_pushRequest tracer

/-! ## What the worker makes of it -/

/-- The envelope that `push_request` writes out. -/
def requestEnvelope (json : JsonLibrary) (env : HandlerChoices) (method : Method) (body : Bytes)
    (req : Request) (tracer : Bool) : JsonObject :=
  if tracer then pushedData (vendored json) env method body req (requestTraceContext env req)
  else untracedData json env method body req

theorem carries_untracedData :
    Carries (untracedData json env method body req) env.requestId.bytes method.text req.path
      (extractQueryString req) body (extractClientIp req) req.localAddr.bytes := by
  refine (carries_prepareRequestData json _ _ _ _ _ req).assign ?_ ?_ ?_
  · show ∀ key ∈ _, key ∉ [kTimestamp, kProxySpanId, kProxyTraceId]
    decide
  · show List.Nodup [kTimestamp, kProxySpanId, kProxyTraceId]
    decide
  · intro key hkey v hv
    have hnot : key ≠ kTimestamp := by
      rintro rfl
      exact absurd hkey (by decide)
    simp only [List.mem_cons, Prod.mk.injEq, hnot, false_and, false_or, List.not_mem_nil,
      or_false] at hv
    rcases hv with ⟨-, rfl⟩ | ⟨-, rfl⟩ <;> exact ⟨_, rfl⟩

theorem carries_requestEnvelope (tracer : Bool) :
    Carries (requestEnvelope json env method body req tracer) env.requestId.bytes method.text
      req.path (extractQueryString req) body (extractClientIp req) req.localAddr.bytes := by
  unfold requestEnvelope
  split
  · exact carries_pushedData json body req env method _
  · exact carries_untracedData

/-- **The text and the decoder.**  What the worker decodes from the text of a request is
that request. -/
theorem decoded_of_pushRequest {tracer sentry : Bool} {text : Bytes} {j : JsonValue}
    {data : WorkerRequestData}
    (hround : json.RoundTrips (.object (requestEnvelope json env method body req tracer).entries))
    (hpush : pushRequest json env method body req tracer = some text)
    (haccepted : parseRequestData json sentry text = .accepted j)
    (hdecoded : decodeNatsRequest j = .ok data) :
    data.method = method.text ∧ data.body = body := by
  have hparse : json.parse text =
      .value (received (requestEnvelope json env method body req tracer)) := hround.parse hpush
  unfold parseRequestData at haccepted
  rw [hparse] at haccepted
  obtain ⟨rfl, -⟩ := validate_of_checkRequest haccepted
  obtain ⟨data', hdecode, -, hmethod, -, -, hbody, -⟩ :=
    (@carries_requestEnvelope json env method body req tracer).decode
  rw [← Except.ok.inj (hdecode.symm.trans hdecoded)]
  exact ⟨hmethod, hbody⟩

/-- A request for `/%FF`. -/
def rawPathRequest : Request := { sampleRequest with path := [47, 0xFF], body := [] }

/-- **A path that is no text** makes `push_request` throw. -/
theorem pushRequest_rawPathRequest :
    pushRequest sampleJson (sampledChoices true true) .get [] rawPathRequest true = none := by
  rw [← Option.not_isSome_iff_eq_none, isSome_pushRequest]
  decide +kernel

end Transport
end HttpDataDiod
