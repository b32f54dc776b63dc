import HttpDataDiod.Json.Dump
import HttpDataDiod.Tracing.Traceparent
import Mathlib.Data.Rat.Defs
import Mathlib.Algebra.Order.Ring.Rat

/-!
# Spans: how they are logged and how a batch is written out

Model of `JaegerLogger::log_request`, `build_span_json` and `send_batch`, with
`merge_stringified_tags`.  An exception that leaves a function is `none`.

* `logRequest`: the span of a call, if it is sampled.
* `buildSpanJson`, `sendBatch`: the Zipkin objects of a batch, and its delivery.
* `SpanData.Valid`: all texts of a span are well-formed UTF-8.
* `isSome_sendBatch_iff`: an exception leaves `sendBatch` exactly when some span of
  the batch is not valid.
-/

namespace HttpDataDiod
namespace Tracing

open ByteText JsonValue

/-! ## Data -/

/-- `SpanData`. -/
structure SpanData where
  traceId : Bytes
  spanId : Bytes
  parentId : Bytes
  name : Bytes
  serviceName : Bytes
  startUs : UInt64
  endUs : UInt64
  enqueueTimeUs : UInt64
  attributes : JsonObject

/-- All texts of the span can be written out. -/
structure SpanData.Valid (span : SpanData) : Prop where
  traceId : isValidUtf8 span.traceId = true
  spanId : isValidUtf8 span.spanId = true
  parentId : isValidUtf8 span.parentId = true
  name : isValidUtf8 span.name = true
  serviceName : isValidUtf8 span.serviceName = true
  attributes : span.attributes.Utf8

/-! ## Logging a span -/

/-- A draw of `uniform_real_distribution(0, 1)`. -/
structure Draw where
  value : ℚ
  nonneg : 0 ≤ value
  lt_one : value < 1

/-- `should_sample`: errors always, everything else by the sample rate. -/
def shouldSample (sampleRate : ℚ) (draw : Draw) (isError : Bool) : Bool :=
  if isError then true
  else if 1 ≤ sampleRate then true
  else if sampleRate ≤ 0 then false
  else draw.value < sampleRate

/-- The arguments of `log_request`. -/
structure SpanCall where
  method : Bytes
  url : Bytes
  statusCode : ℤ
  startUs : UInt64
  endUs : UInt64
  serviceName : Bytes
  requestId : Bytes := []
  traceId : Bytes
  spanId : Bytes
  parentId : Bytes
  attributes : JsonObject := JsonObject.empty
  nameOverride : Bytes := []

/-- What one call of `log_request` takes from outside: the sampling draw, the ids it
may generate and the clock. -/
structure LogChoices where
  draw : Draw
  traceId : TraceId
  spanId : SpanId
  enqueueTimeUs : UInt64

/-- The name of the span of a call. -/
def SpanCall.spanName (call : SpanCall) : Bytes :=
  if call.nameOverride.isEmpty then
    ascii "HTTP " ++ call.method ++ ascii " " ++ call.url
  else call.nameOverride

/-- The attributes of the span of a call; the additional ones come last. -/
def SpanCall.spanAttributes (call : SpanCall) : JsonObject :=
  ((JsonObject.of
      [(ascii "http.method", .string call.method),
       (ascii "http.url", .string call.url),
       (ascii "http.status_code", .int call.statusCode)]).assign
    (if call.requestId.isEmpty then []
     else [(ascii "request.id", .string call.requestId)])).assign call.attributes.entries

/-- The span of a call. -/
def SpanCall.span (call : SpanCall) (choices : LogChoices) : SpanData where
  traceId := if call.traceId.isEmpty then choices.traceId.bytes else call.traceId
  spanId := if call.spanId.isEmpty then choices.spanId.bytes else call.spanId
  parentId := call.parentId
  name := call.spanName
  serviceName := call.serviceName
  startUs := call.startUs
  endUs := call.endUs
  enqueueTimeUs := choices.enqueueTimeUs
  attributes := call.spanAttributes

/-- `log_request`: the span that is enqueued, if the call is sampled. -/
def logRequest (sampleRate : ℚ) (choices : LogChoices) (call : SpanCall) : List SpanData :=
  if shouldSample sampleRate choices.draw (400 ≤ call.statusCode) then [call.span choices] else []

/-- All texts of the call are well formed. -/
structure SpanCall.Valid (call : SpanCall) : Prop where
  method : isValidUtf8 call.method = true
  url : isValidUtf8 call.url = true
  serviceName : isValidUtf8 call.serviceName = true
  requestId : isValidUtf8 call.requestId = true
  traceId : isValidUtf8 call.traceId = true
  spanId : isValidUtf8 call.spanId = true
  parentId : isValidUtf8 call.parentId = true
  attributes : call.attributes.Utf8
  nameOverride : isValidUtf8 call.nameOverride = true

theorem SpanCall.Valid.spanName {call : SpanCall} (h : call.Valid) :
    isValidUtf8 call.spanName = true := by
  unfold SpanCall.spanName
  split
  · refine isValidUtf8_append_of_valid (isValidUtf8_append_of_valid
      (isValidUtf8_append_of_valid ?_ h.method) ?_) h.url
    · decide
    · decide
  · exact h.nameOverride

theorem SpanCall.Valid.spanAttributes {call : SpanCall} (h : call.Valid) :
    call.spanAttributes.Utf8 := by
  refine JsonObject.Utf8.assign (JsonObject.Utf8.assign (JsonObject.utf8_of ?_) ?_) h.attributes
  · simp only [List.forall_mem_cons]
    exact ⟨entryUtf8_string (by decide) h.method, entryUtf8_string (by decide) h.url,
      entryUtf8_mk (by decide) (allUtf8_int _), List.forall_mem_nil _⟩
  · split
    · exact List.forall_mem_nil _
    · exact List.forall_mem_singleton.mpr (entryUtf8_string (by decide) h.requestId)

theorem SpanCall.Valid.span {call : SpanCall} (h : call.Valid) (choices : LogChoices) :
    (call.span choices).Valid := by
  refine ⟨?_, ?_, h.parentId, h.spanName, h.serviceName, h.spanAttributes⟩
  · show isValidUtf8 (if _ then _ else _) = true
    split
    · exact choices.traceId.valid
    · exact h.traceId
  · show isValidUtf8 (if _ then _ else _) = true
    split
    · exact choices.spanId.valid
    · exact h.spanId

/-- **A valid call logs a valid span.** -/
theorem SpanCall.Valid.logRequest {call : SpanCall} (h : call.Valid) {sampleRate : ℚ}
    {choices : LogChoices} {span : SpanData}
    (hspan : span ∈ Tracing.logRequest sampleRate choices call) : span.Valid := by
  unfold Tracing.logRequest at hspan
  split at hspan
  · obtain rfl := List.mem_singleton.mp hspan
    exact h.span choices
  · exact absurd hspan List.not_mem_nil

/-! ### What a valid span says of its call -/

theorem isValidUtf8_traceId_of_span {call : SpanCall} {choices : LogChoices}
    (h : (call.span choices).Valid) : isValidUtf8 call.traceId = true := by
  have htraceId : isValidUtf8 (if call.traceId.isEmpty then choices.traceId.bytes
      else call.traceId) = true := h.traceId
  split at htraceId
  · rename_i hempty
    rw [List.isEmpty_iff.mp hempty]
    exact isValidUtf8_nil
  · exact htraceId

theorem isValidUtf8_url_of_span {call : SpanCall} {choices : LogChoices}
    (h : (call.span choices).Valid) (hname : call.nameOverride = [])
    (hmethod : isValidUtf8 call.method = true) : isValidUtf8 call.url = true := by
  have hspanName : isValidUtf8 (ascii "HTTP " ++ call.method ++ ascii " " ++ call.url) = true := by
    have := h.name
    rwa [show (call.span choices).name = call.spanName from rfl, SpanCall.spanName, hname] at this
  have hstart : isValidUtf8 (ascii "HTTP " ++ call.method ++ ascii " ") = true := by
    refine isValidUtf8_append_of_valid (isValidUtf8_append_of_valid ?_ hmethod) ?_
    · decide
    · decide
  rwa [isValidUtf8_append _ hstart] at hspanName

theorem utf8_attributes_of_span {call : SpanCall} {choices : LogChoices}
    (h : (call.span choices).Valid) : call.attributes.Utf8 := fun _ he =>
  JsonObject.Utf8.of_assign h.attributes call.attributes.nodup_keys he

/-- A draw of 0 samples every call, unless the sample rate is 0. -/
theorem logRequest_of_draw_eq_zero {sampleRate : ℚ} {choices : LogChoices} (call : SpanCall)
    (hrate : 0 < sampleRate) (hdraw : choices.draw.value = 0) :
    logRequest sampleRate choices call = [call.span choices] := by
  have hsample : shouldSample sampleRate choices.draw (400 ≤ call.statusCode) = true := by
    unfold shouldSample
    split
    · rfl
    · split
      · rfl
      · simp [hdraw, hrate]
  rw [logRequest, if_pos hsample]

/-! ## Writing a span out -/

variable (lib : JsonLibrary)

/-- A value as a tag: a string as it is, anything else as its `dump`. -/
def stringified : JsonValue → Option JsonValue
  | .string s => some (.string s)
  | v => (lib.dump v).map JsonValue.string

/-- `merge_stringified_tags`, over the items of the source. -/
def mergeStringifiedTags : List (Bytes × JsonValue) → List (Bytes × JsonValue) →
    Option (List (Bytes × JsonValue))
  | dest, [] => some dest
  | dest, (key, v) :: items =>
    (stringified lib v).bind fun tag => mergeStringifiedTags (setEntry key tag dest) items

/-- The assignments of `build_span_json`. -/
def spanFields (span : SpanData) (tags : List (Bytes × JsonValue)) :
    List (Bytes × JsonValue) :=
  [(ascii "id", JsonValue.string span.spanId),
   (ascii "traceId", .string span.traceId),
   (ascii "name", .string span.name),
   (ascii "timestamp", .uint span.startUs.toNat),
   (ascii "duration", .uint (span.endUs - span.startUs).toNat),
   (ascii "localEndpoint", objectOf [(ascii "serviceName", .string span.serviceName)]),
   (ascii "tags", .object tags)] ++
  (if span.parentId.isEmpty then [] else [(ascii "parentId", JsonValue.string span.parentId)])

/-- `build_span_json`. -/
def buildSpanJson (span : SpanData) : Option JsonValue :=
  (mergeStringifiedTags lib [] span.attributes.entries).map fun tags =>
    objectOf (spanFields span tags)

/-- The loop of `send_batch` over the spans. -/
def buildSpans : List SpanData → Option (List JsonValue)
  | [] => some []
  | span :: batch => do
    let j ← buildSpanJson lib span
    let js ← buildSpans batch
    return j :: js

/-- `send_batch`.  The objects are built and written out before the `try`; `posted`
says whether the code inside it, the POST, returns. -/
def sendBatch (posted : Bool) (batch : List SpanData) : Option Bool :=
  if batch.isEmpty then some true
  else do
    let spans ← buildSpans lib batch
    let _payload ← lib.dump (.array spans)
    return posted

variable {lib}

theorem stringified_eq_some {v : JsonValue} (hv : v.allUtf8 = true) :
    ∃ tag, stringified lib v = some tag ∧ tag.allUtf8 = true := by
  unfold stringified
  split
  · exact ⟨_, rfl, hv⟩
  · refine ⟨.string (lib.serialize v), by rw [lib.dump_of_allUtf8 hv]; rfl, ?_⟩
    rw [allUtf8_string]
    exact lib.isValidUtf8_serialize v hv

theorem allUtf8_of_stringified {v tag : JsonValue} (h : stringified lib v = some tag)
    (htag : tag.allUtf8 = true) : v.allUtf8 = true := by
  unfold stringified at h
  split at h
  · rename_i s
    obtain rfl : JsonValue.string s = tag := Option.some.inj h
    exact htag
  · obtain ⟨text, htext, -⟩ := Option.map_eq_some_iff.mp h
    exact lib.allUtf8_of_dump htext

/-- Well-formed items give well-formed tags. -/
theorem mergeStringifiedTags_eq_some {items dest : List (Bytes × JsonValue)}
    (hitems : ∀ e ∈ items, EntryUtf8 e) (hdest : ∀ e ∈ dest, EntryUtf8 e) :
    ∃ tags, mergeStringifiedTags lib dest items = some tags ∧ ∀ e ∈ tags, EntryUtf8 e := by
  induction items generalizing dest with
  | nil => exact ⟨dest, rfl, hdest⟩
  | cons item items ih =>
    obtain ⟨key, v⟩ := item
    obtain ⟨hkey, hv⟩ := hitems (key, v) List.mem_cons_self
    obtain ⟨tag, htag, htagUtf8⟩ : ∃ tag, stringified lib v = some tag ∧ tag.allUtf8 = true :=
      stringified_eq_some hv
    have hdest' : ∀ e ∈ setEntry key tag dest, EntryUtf8 e := by
      intro e he
      rcases eq_or_mem_of_mem_setEntry he with rfl | he
      · exact entryUtf8_mk hkey htagUtf8
      · exact hdest e he
    obtain ⟨tags, htags, hall⟩ := ih (fun e he => hitems e (List.mem_cons_of_mem _ he)) hdest'
    exact ⟨tags, by rw [mergeStringifiedTags, htag]; exact htags, hall⟩

/-- An entry of the tags stays unless a later item has its key. -/
theorem mem_mergeStringifiedTags {items dest tags : List (Bytes × JsonValue)}
    (h : mergeStringifiedTags lib dest items = some tags) {e : Bytes × JsonValue}
    (he : e ∈ dest) (hkey : e.1 ∉ items.map Prod.fst) : e ∈ tags := by
  induction items generalizing dest with
  | nil =>
    obtain rfl : dest = tags := Option.some.inj h
    exact he
  | cons item items ih =>
    rw [List.map_cons, List.mem_cons, not_or] at hkey
    obtain ⟨tag, -, hrest⟩ := Option.bind_eq_some_iff.mp h
    exact ih hrest (mem_setEntry_of_ne he hkey.1) hkey.2

/-- Well-formed tags come from well-formed items, if no two have one key. -/
theorem entryUtf8_of_mergeStringifiedTags {items dest tags : List (Bytes × JsonValue)}
    (h : mergeStringifiedTags lib dest items = some tags) (htags : ∀ e ∈ tags, EntryUtf8 e)
    (hnodup : (items.map Prod.fst).Nodup) : ∀ e ∈ items, EntryUtf8 e := by
  induction items generalizing dest with
  | nil => exact List.forall_mem_nil _
  | cons item items ih =>
    obtain ⟨hitem, hitems⟩ := List.nodup_cons.mp hnodup
    obtain ⟨tag, htag, hrest⟩ := Option.bind_eq_some_iff.mp h
    intro e he
    rcases List.mem_cons.mp he with rfl | he
    · obtain ⟨hkey, htagUtf8⟩ :=
        htags _ (mem_mergeStringifiedTags hrest (mem_setEntry_self e.1 tag dest) hitem)
      exact ⟨hkey, allUtf8_of_stringified htag htagUtf8⟩
    · exact ih hrest hitems e he

/-! ## When an exception leaves `send_batch` -/

theorem nodup_keys_spanFields (span : SpanData) (tags : List (Bytes × JsonValue)) :
    ((spanFields span tags).map Prod.fst).Nodup := by
  unfold spanFields
  split
  · show List.Nodup [ascii "id", ascii "traceId", ascii "name", ascii "timestamp",
      ascii "duration", ascii "localEndpoint", ascii "tags"]
    decide
  · show List.Nodup [ascii "id", ascii "traceId", ascii "name", ascii "timestamp",
      ascii "duration", ascii "localEndpoint", ascii "tags", ascii "parentId"]
    decide

theorem allUtf8_localEndpoint_iff {serviceName : Bytes} :
    (objectOf [(ascii "serviceName", .string serviceName)]).allUtf8 = true ↔
      isValidUtf8 serviceName = true := by
  have hnodup : ([(ascii "serviceName", JsonValue.string serviceName)].map Prod.fst).Nodup :=
    List.pairwise_singleton _ _
  rw [allUtf8_objectOf_iff hnodup, List.forall_mem_singleton]
  exact ⟨fun h => by simpa using h.2, entryUtf8_string (by decide)⟩

/-- The texts of a span object. -/
theorem allUtf8_spanFields_iff {span : SpanData} {tags : List (Bytes × JsonValue)} :
    (objectOf (spanFields span tags)).allUtf8 = true ↔
      isValidUtf8 span.spanId = true ∧ isValidUtf8 span.traceId = true ∧
      isValidUtf8 span.name = true ∧ isValidUtf8 span.serviceName = true ∧
      (∀ e ∈ tags, EntryUtf8 e) ∧ isValidUtf8 span.parentId = true := by
  have hkeys : ∀ key ∈ [ascii "id", ascii "traceId", ascii "name", ascii "timestamp",
      ascii "duration", ascii "localEndpoint", ascii "tags", ascii "parentId"],
      isValidUtf8 key = true := by decide
  simp only [List.forall_mem_cons] at hkeys
  obtain ⟨h₁, h₂, h₃, h₄, h₅, h₆, h₇, h₈, -⟩ := hkeys
  have htags : (JsonValue.object tags).allUtf8 = true ↔ ∀ e ∈ tags, EntryUtf8 e := by
    rw [allUtf8, allUtf8Entries_iff]
    rfl
  have hparent : (∀ p ∈ (if span.parentId.isEmpty then []
      else [(ascii "parentId", JsonValue.string span.parentId)]), EntryUtf8 p) ↔
      isValidUtf8 span.parentId = true := by
    split
    · rename_i hempty
      rw [List.isEmpty_iff.mp hempty]
      simp
    · simp [EntryUtf8, h₈]
  rw [allUtf8_objectOf_iff (nodup_keys_spanFields span tags), spanFields,
    List.forall_mem_append, hparent]
  simp only [List.forall_mem_cons, EntryUtf8, allUtf8_string, allUtf8_uint, htags,
    allUtf8_localEndpoint_iff, h₁, h₂, h₃, h₄, h₅, h₆, h₇, true_and, and_assoc]
  simp

/-- **A span can be written out exactly when it is valid.** -/
theorem buildSpanJson_utf8_iff {span : SpanData} :
    (∃ j, buildSpanJson lib span = some j ∧ j.allUtf8 = true) ↔ span.Valid := by
  constructor
  · rintro ⟨j, hj, hutf8⟩
    obtain ⟨tags, htags, rfl⟩ := Option.map_eq_some_iff.mp hj
    obtain ⟨hspanId, htraceId, hname, hserviceName, hall, hparentId⟩ :=
      allUtf8_spanFields_iff.mp hutf8
    exact ⟨htraceId, hspanId, hparentId, hname, hserviceName,
      entryUtf8_of_mergeStringifiedTags htags hall span.attributes.nodup_keys⟩
  · intro h
    obtain ⟨tags, htags, hall⟩ : ∃ tags,
        mergeStringifiedTags lib [] span.attributes.entries = some tags ∧
        ∀ e ∈ tags, EntryUtf8 e :=
      mergeStringifiedTags_eq_some h.attributes (List.forall_mem_nil _)
    refine ⟨objectOf (spanFields span tags), by rw [buildSpanJson, htags]; rfl, ?_⟩
    exact allUtf8_spanFields_iff.mpr
      ⟨h.spanId, h.traceId, h.name, h.serviceName, hall, h.parentId⟩

theorem buildSpans_utf8_iff {batch : List SpanData} :
    (∃ js, buildSpans lib batch = some js ∧ (JsonValue.array js).allUtf8 = true) ↔
      ∀ span ∈ batch, span.Valid := by
  simp only [allUtf8, allUtf8Elems_iff]
  induction batch with
  | nil => exact ⟨fun _ => List.forall_mem_nil _, fun _ => ⟨[], rfl, List.forall_mem_nil _⟩⟩
  | cons span batch ih =>
    rw [List.forall_mem_cons, ← ih]
    constructor
    · rintro ⟨js, hjs, hall⟩
      obtain ⟨j, hj, hrest⟩ := Option.bind_eq_some_iff.mp hjs
      obtain ⟨js', hjs', heq⟩ := Option.bind_eq_some_iff.mp hrest
      obtain rfl : j :: js' = js := Option.some.inj heq
      rw [List.forall_mem_cons] at hall
      exact ⟨buildSpanJson_utf8_iff.mp ⟨j, hj, hall.1⟩, js', hjs', hall.2⟩
    · rintro ⟨hspan, js, hjs, hall⟩
      obtain ⟨j, hj, hutf8⟩ :
          ∃ j, buildSpanJson lib span = some j ∧ j.allUtf8 = true :=
        buildSpanJson_utf8_iff.mpr hspan
      refine ⟨j :: js, ?_, List.forall_mem_cons.mpr ⟨hutf8, hall⟩⟩
      rw [buildSpans, hj, hjs]
      rfl

/-- **When an exception leaves `send_batch`.**  Exactly when the batch has a span that
is not valid; whether the POST returns makes no difference. -/
theorem isSome_sendBatch_iff {posted : Bool} {batch : List SpanData} :
    (sendBatch lib posted batch).isSome = true ↔ ∀ span ∈ batch, span.Valid := by
  have hiff : (∃ js, buildSpans lib batch = some js ∧ (JsonValue.array js).allUtf8 = true) ↔
      ∀ span ∈ batch, span.Valid := buildSpans_utf8_iff
  rw [← hiff, sendBatch]
  cases batch with
  | nil => exact ⟨fun _ => ⟨[], rfl, by simp [allUtf8, allUtf8Elems]⟩, fun _ => rfl⟩
  | cons span batch =>
    rw [List.isEmpty_cons, if_neg Bool.false_ne_true]
    cases buildSpans lib (span :: batch) with
    | none => simp
    | some js =>
      show ((lib.dump (.array js)).bind fun _ => some posted).isSome = true ↔ _
      constructor
      · intro hsome
        obtain ⟨sent, hsent⟩ := Option.isSome_iff_exists.mp hsome
        obtain ⟨payload, hpayload, -⟩ := Option.bind_eq_some_iff.mp hsent
        exact ⟨js, rfl, lib.allUtf8_of_dump hpayload⟩
      · rintro ⟨js', hjs', hutf8⟩
        obtain rfl : js = js' := Option.some.inj hjs'
        rw [lib.dump_of_allUtf8 hutf8]
        rfl

theorem sendBatch_of_valid {posted : Bool} {batch : List SpanData}
    (h : ∀ span ∈ batch, span.Valid) : ∃ sent, sendBatch lib posted batch = some sent :=
  Option.isSome_iff_exists.mp (isSome_sendBatch_iff.mpr h)

end Tracing
end HttpDataDiod
