import HttpDataDiod.Json.Nlohmann
import HttpDataDiod.Tracing.SpanDelivery
import Mathlib.Data.List.Forall2
import Mathlib.Data.List.Nodup

/-!
# The lines of an envelope

An envelope is sent as lines: a header, and for each item a header of its own and a payload.
The code puts texts and line breaks together and escapes nothing, so a payload with a line
break in it would be taken for two.  None has one: the serialiser writes every control
character of a string as an escape.

* `readEnvelope`: an envelope taken apart again, line by line.
* `readEnvelope_frame`: what was put together is what is taken apart.
* `sampledSpans`, `CarriesSpan`: which spans of a batch are sent, and what of a span is in its
  transaction.
* `transactions_read`: of every batch, exactly the sampled spans arrive, in order.
-/

namespace HttpDataDiod
namespace Tracing

open ByteText JsonValue Lexer Serializer

/-! ## Taking an envelope apart -/

section Reader

variable (lib : JsonLibrary)

/-- The length in the header of an item, if there is one, is that of the payload. -/
def lengthAgrees (header : JsonValue) (body : Bytes) : Bool :=
  match header.find (ascii "length") with
  | some (.uint n) => n = body.length
  | some _ => false
  | none => true

/-- The lines of the items: the header of an item and its payload. -/
def readItems : List Bytes → Option (List (JsonValue × JsonValue))
  | [] => some []
  | [_] => none
  | item :: body :: lines =>
    match lib.parse item, lib.parse body with
    | .value header, .value payload =>
      if lengthAgrees header body then
        (readItems lines).map fun items => (header, payload) :: items
      else none
    | _, _ => none

/-- An envelope, line by line: its header and its items. -/
def readEnvelope (envelope : Bytes) : Option (JsonValue × List (JsonValue × JsonValue)) :=
  match envelope.splitOn 10 with
  | [] => none
  | header :: lines =>
    match lib.parse header with
    | .value header => (readItems lib lines).map fun items => (header, items)
    | _ => none

end Reader

/-! ## Putting one together -/

/-- `envelope_item`. -/
def envelopeItemOf (lib : JsonLibrary) (payload : JsonValue) (type : Bytes)
    (includeLength : Bool) : Option Bytes := do
  let body ← lib.dump payload
  let item ← lib.dump (objectOf ([(ascii "type", .string type)] ++
    if includeLength then [(ascii "length", .uint body.length)] else []))
  return item ++ ascii "\n" ++ body

/-- The item of a transaction is an item with its length. -/
theorem envelopeItem_eq (lib : JsonLibrary) (payload : JsonValue) :
    envelopeItem lib payload = envelopeItemOf lib payload (ascii "transaction") true := rfl

section Frame

variable (fmt : FloatText) (what : Bytes → Text)

/-- The header of an item. -/
def itemHeader (payload : JsonValue) (type : Bytes) (includeLength : Bool) : JsonValue :=
  objectOf ([(ascii "type", .string type)] ++
    if includeLength then [(ascii "length", .uint (serialize fmt payload).length)] else [])

theorem nodup_keys_itemHeader (payload : JsonValue) (type : Bytes) (includeLength : Bool) :
    (([(ascii "type", JsonValue.string type)] ++
      if includeLength then [(ascii "length", JsonValue.uint (serialize fmt payload).length)]
      else []).map Prod.fst).Nodup := by
  cases includeLength with
  | false => exact List.pairwise_singleton _ _
  | true =>
    show List.Nodup [ascii "type", ascii "length"]
    decide

/-- The lines of an item. -/
def itemLines (item : JsonValue × JsonValue) : List Bytes :=
  [serialize fmt item.1, serialize fmt item.2]

/-- The text of a header and items. -/
def frame (header : JsonValue) (items : List (JsonValue × JsonValue)) : Bytes :=
  List.intercalate [10] (serialize fmt header :: items.flatMap (itemLines fmt))

/-- Lines put together are the first one and each other one behind a line break. -/
theorem intercalate_cons_eq {α : Type} (x : α) (l : List α) (ls : List (List α)) :
    List.intercalate [x] (l :: ls) = l ++ ls.flatMap fun m => x :: m := by
  induction ls generalizing l with
  | nil => simp
  | cons m ls ih => rw [List.intercalate_cons_cons, ih, List.flatMap_cons]; simp

variable {fmt}

/-- An item that can be read: both lines can be held, and the length is right. -/
structure ReadableItem (fmt : FloatText) (item : JsonValue × JsonValue) : Prop where
  header : item.1.Storable fmt.Exact
  payload : item.2.Storable fmt.Exact
  length : lengthAgrees item.1.wire (serialize fmt item.2) = true

theorem parse_serialize {j : JsonValue} (h : j.Storable fmt.Exact) :
    (nlohmann fmt what).parse (serialize fmt j) = .value j.wire :=
  (parse_nlohmann_eq_value_iff what).mpr (parseText_serialize h)

theorem readItems_itemLines {items : List (JsonValue × JsonValue)}
    (h : ∀ item ∈ items, ReadableItem fmt item) :
    readItems (nlohmann fmt what) (items.flatMap (itemLines fmt)) =
      some (items.map fun item => (item.1.wire, item.2.wire)) := by
  induction items with
  | nil => rfl
  | cons item items ih =>
    obtain ⟨hitem, hitems⟩ := List.forall_mem_cons.mp h
    rw [List.flatMap_cons, itemLines, List.cons_append, List.cons_append, List.nil_append,
      readItems, parse_serialize what hitem.header, parse_serialize what hitem.payload]
    simp only
    rw [if_pos hitem.length, ih hitems]
    rfl

/-- **What was put together is taken apart**: no line break of a text gets into the lines. -/
theorem readEnvelope_frame {header : JsonValue} {items : List (JsonValue × JsonValue)}
    (hheader : header.Storable fmt.Exact) (hitems : ∀ item ∈ items, ReadableItem fmt item) :
    readEnvelope (nlohmann fmt what) (frame fmt header items) =
      some (header.wire, items.map fun item => (item.1.wire, item.2.wire)) := by
  have hlines : ∀ l ∈ serialize fmt header :: items.flatMap (itemLines fmt), 10 ∉ l := by
    refine List.forall_mem_cons.mpr ⟨(printable_serialize hheader).not_mem_newline, ?_⟩
    intro l hl
    obtain ⟨item, hitem, hmem⟩ := List.mem_flatMap.mp hl
    rcases List.mem_cons.mp hmem with rfl | hmem
    · exact (printable_serialize (hitems item hitem).header).not_mem_newline
    · obtain rfl := List.mem_singleton.mp hmem
      exact (printable_serialize (hitems item hitem).payload).not_mem_newline
  rw [readEnvelope, frame, List.splitOn_intercalate 10 hlines (List.cons_ne_nil _ _)]
  simp only
  rw [parse_serialize what hheader, readItems_itemLines what hitems]
  rfl

end Frame

/-! ## The envelope of a batch -/

section Transactions

variable {fmt : FloatText} (what : Bytes → Text)

theorem envelopeItemOf_eq {payload : JsonValue} (h : payload.allUtf8 = true) {type : Bytes}
    (htype : isValidUtf8 type = true) (includeLength : Bool) :
    envelopeItemOf (nlohmann fmt what) payload type includeLength =
      some (serialize fmt (itemHeader fmt payload type includeLength) ++ 10 ::
        serialize fmt payload) := by
  have hheader : (itemHeader fmt payload type includeLength).allUtf8 = true := by
    refine allUtf8_objectOf (List.forall_mem_append.mpr ⟨?_, ?_⟩)
    · exact List.forall_mem_singleton.mpr (entryUtf8_string (by decide) htype)
    · split
      · exact List.forall_mem_singleton.mpr (entryUtf8_mk (by decide) (allUtf8_uint _))
      · exact List.forall_mem_nil _
  rw [envelopeItemOf, (nlohmann fmt what).dump_of_allUtf8 h, Option.bind_eq_bind,
    Option.bind_some]
  have hdump := (nlohmann fmt what).dump_of_allUtf8 hheader
  rw [itemHeader] at hdump ⊢
  rw [show (nlohmann fmt what).serialize payload = serialize fmt payload from rfl, hdump]
  show some (_ ++ ascii "\n" ++ _) = _
  rw [List.append_assoc]
  rfl

/-- An item can be read when its payload can be held, and has a length that can be counted if
it is counted. -/
theorem readableItem {payload : JsonValue} (h : payload.Storable fmt.Exact) {type : Bytes}
    (htype : isValidUtf8 type = true) (includeLength : Bool)
    (hlength : includeLength = true → (serialize fmt payload).length < 2 ^ 64) :
    ReadableItem fmt (itemHeader fmt payload type includeLength, payload) where
  header := by
    refine Plain.storable (plain_objectOf (List.forall_mem_append.mpr ⟨?_, ?_⟩))
      (allUtf8_objectOf (List.forall_mem_append.mpr ⟨?_, ?_⟩))
    · exact List.forall_mem_singleton.mpr (.string _)
    · split
      · next hinclude => exact List.forall_mem_singleton.mpr (.uint (hlength hinclude))
      · exact List.forall_mem_nil _
    · exact List.forall_mem_singleton.mpr (entryUtf8_string (by decide) htype)
    · split
      · exact List.forall_mem_singleton.mpr (entryUtf8_mk (by decide) (allUtf8_uint _))
      · exact List.forall_mem_nil _
  payload := h
  length := by
    show lengthAgrees (itemHeader fmt payload type includeLength).wire _ = true
    rw [lengthAgrees, find_wire, itemHeader, objectOf]
    cases includeLength with
    | false =>
      have hkeys : ascii "length" ∉
          ([(ascii "type", JsonValue.string type)] ++ []).map Prod.fst := by
        show ascii "length" ∉ [ascii "type"]
        decide
      rw [if_neg Bool.false_ne_true, find_assign_of_not_mem hkeys]
      rfl
    | true =>
      have hmem : (ascii "length", JsonValue.uint (serialize fmt payload).length) ∈
          [(ascii "type", JsonValue.string type)] ++
            [(ascii "length", .uint (serialize fmt payload).length)] :=
        List.mem_append_right _ (List.mem_singleton_self _)
      rw [find_assign_of_mem (nodup_keys_itemHeader fmt payload type true) hmem]
      simp [wire]

/-- The items of transactions. -/
def transactionItems (fmt : FloatText) (events : List JsonValue) :
    List (JsonValue × JsonValue) :=
  events.map fun event => (itemHeader fmt event (ascii "transaction") true, event)

/-- The text of `build_sentry_envelope`. -/
theorem buildSentryEnvelope_eq {sentAt : Text} {event : JsonValue} {events : List JsonValue}
    (h : ∀ e ∈ event :: events, e.allUtf8 = true) :
    buildSentryEnvelope (nlohmann fmt what) sentAt (event :: events) =
      some (frame fmt (envelopeHeader (event.safeGetString (ascii "event_id") []) sentAt)
        (transactionItems fmt (event :: events))) := by
  have hitems : ∀ (es : List JsonValue) (text : Bytes), (∀ e ∈ es, e.allUtf8 = true) →
      envelopeItems (nlohmann fmt what) es text =
        some (text ++ ((transactionItems fmt es).flatMap (itemLines fmt)).flatMap (10 :: ·)) := by
    intro es
    induction es with
    | nil => exact fun text _ => congrArg some (List.append_nil text).symm
    | cons e es ih =>
      intro text hes
      obtain ⟨he, hes⟩ := List.forall_mem_cons.mp hes
      rw [envelopeItems, envelopeItem_eq, envelopeItemOf_eq what he (by decide),
        Option.bind_eq_bind, Option.bind_some, ih _ hes]
      simp [transactionItems, itemLines, ascii]
  have hid : isValidUtf8 (event.safeGetString (ascii "event_id") []) = true :=
    isValidUtf8_safeGetString (h event List.mem_cons_self) isValidUtf8_nil
  rw [buildSentryEnvelope,
    (nlohmann fmt what).dump_of_allUtf8 (allUtf8_envelopeHeader hid sentAt),
    Option.bind_eq_bind, Option.bind_some, hitems _ _ h, frame, intercalate_cons_eq]
  rfl

end Transactions

/-! ## What is in a transaction -/

/-- The value at the end of a path of keys. -/
def lookup (j : JsonValue) : List Bytes → Option JsonValue
  | [] => some j
  | key :: path => (j.find key).bind fun v => lookup v path

theorem lookup_wire (j : JsonValue) (path : List Bytes) :
    lookup j.wire path = (lookup j path).map wire := by
  induction path generalizing j with
  | nil => rfl
  | cons key path ih =>
    rw [lookup, lookup, find_wire]
    cases j.find key with
    | none => rfl
    | some v => exact ih v

/-- The assignments that are made, of some that may be left out. -/
def present (parts : List (Bytes × Option JsonValue)) : List (Bytes × JsonValue) :=
  parts.filterMap fun p => p.2.map fun v => (p.1, v)

theorem mem_present {parts : List (Bytes × Option JsonValue)} {key : Bytes} {v : JsonValue} :
    (key, v) ∈ present parts ↔ (key, some v) ∈ parts := by
  rw [present, List.mem_filterMap]
  constructor
  · rintro ⟨⟨key', o⟩, hmem, heq⟩
    obtain ⟨v', rfl, hpair⟩ := Option.map_eq_some_iff.mp heq
    obtain ⟨rfl, rfl⟩ := Prod.mk.inj hpair
    exact hmem
  · exact fun hmem => ⟨(key, some v), hmem, rfl⟩

theorem keys_present (parts : List (Bytes × Option JsonValue)) :
    ((present parts).map Prod.fst).Sublist (parts.map Prod.fst) := by
  induction parts with
  | nil => exact List.Sublist.refl _
  | cons p parts ih =>
    obtain ⟨key, o⟩ := p
    cases o with
    | none => exact ih.cons key
    | some v => exact ih.cons_cons key

/-- **The value of each part**, where the keys are different. -/
theorem lookup_present {parts : List (Bytes × Option JsonValue)}
    (hnodup : (parts.map Prod.fst).Nodup) {key : Bytes} {o : Option JsonValue}
    (h : (key, o) ∈ parts) (path : List Bytes) :
    lookup (objectOf (present parts)) (key :: path) = o.bind fun v => lookup v path := by
  have hpresent := (keys_present parts).nodup hnodup
  rw [lookup, objectOf]
  cases o with
  | some v => rw [find_assign_of_mem hpresent (mem_present.mpr h)]
  | none =>
    have hkey : key ∉ (present parts).map Prod.fst := by
      intro hmem
      obtain ⟨⟨key', v⟩, hv, rfl⟩ := List.mem_map.mp hmem
      have heq := List.inj_on_of_nodup_map hnodup h (mem_present.mp hv) rfl
      cases heq
    rw [find_assign_of_not_mem hkey]
    rfl

/-- A value that is left out with its text or list. -/
def optionalValue {α : Type} (items : List α) (value : JsonValue) : Option JsonValue :=
  if items.isEmpty then none else some value

/-- A text that is left out when it is empty. -/
def optionalText (text : Bytes) : Option JsonValue := optionalValue text (.string text)

theorem present_nil : present [] = [] := rfl

theorem present_cons_some (key : Bytes) (v : JsonValue)
    (parts : List (Bytes × Option JsonValue)) :
    present ((key, some v) :: parts) = (key, v) :: present parts := rfl

theorem present_cons_optionalValue {α : Type} (key : Bytes) (items : List α) (v : JsonValue)
    (parts : List (Bytes × Option JsonValue)) :
    present ((key, optionalValue items v) :: parts) =
      (if items.isEmpty then [] else [(key, v)]) ++ present parts := by
  unfold optionalValue
  split
  · rfl
  · rfl

/-- What of a span is in its transaction. -/
structure CarriesSpan (lib : JsonLibrary) (choices : SentryChoices) (span : SpanData)
    (j : JsonValue) : Prop where
  traceId : lookup j [ascii "contexts", ascii "trace", ascii "trace_id"] =
    some (.string span.traceId)
  spanId : lookup j [ascii "contexts", ascii "trace", ascii "span_id"] =
    some (.string span.spanId)
  parentId : lookup j [ascii "contexts", ascii "trace", ascii "parent_span_id"] =
    optionalText span.parentId
  start : lookup j [ascii "start_timestamp"] =
    some (.string (choices.formatRfc3339Us span.startUs).bytes)
  stop : lookup j [ascii "timestamp"] = some (.string (choices.formatRfc3339Us span.endUs).bytes)
  tags : ∀ e ∈ span.attributes.entries, ∃ tag, stringified lib e.2 = some tag ∧
    lookup j [ascii "tags", e.1] = some tag
  extra : lookup j [ascii "extra"] = optionalValue span.attributes.entries
    (JsonValue.object span.attributes.entries).wire

section Fields

variable {lib : JsonLibrary} {cfg : SentryConfig} {choices : SentryChoices}

/-- The tag of an item stays when no later item has its key. -/
theorem find_mergeStringifiedTags_of_not_mem {items dest tags : List (Bytes × JsonValue)}
    (h : mergeStringifiedTags lib dest items = some tags) {key : Bytes}
    (hkey : key ∉ items.map Prod.fst) :
    find key (.object tags) = find key (.object dest) := by
  induction items generalizing dest with
  | nil => rw [Option.some.inj h]
  | cons item items ih =>
    rw [List.map_cons, List.mem_cons, not_or] at hkey
    obtain ⟨tag, -, hrest⟩ := Option.bind_eq_some_iff.mp h
    rw [ih hrest hkey.2, find_setEntry_of_ne hkey.1]

/-- **Every item is a tag**, as a text. -/
theorem find_mergeStringifiedTags {items dest tags : List (Bytes × JsonValue)}
    (h : mergeStringifiedTags lib dest items = some tags) (hnodup : (items.map Prod.fst).Nodup)
    {e : Bytes × JsonValue} (he : e ∈ items) :
    ∃ tag, stringified lib e.2 = some tag ∧ find e.1 (.object tags) = some tag := by
  induction items generalizing dest with
  | nil => exact absurd he List.not_mem_nil
  | cons item items ih =>
    obtain ⟨hitem, hitems⟩ := List.nodup_cons.mp hnodup
    obtain ⟨tag, htag, hrest⟩ := Option.bind_eq_some_iff.mp h
    rcases List.mem_cons.mp he with rfl | he
    · refine ⟨tag, htag, ?_⟩
      rw [find_mergeStringifiedTags_of_not_mem hrest hitem, find_setEntry_self]
    · exact ih hrest hitems he

/-- The trace context of a transaction. -/
def traceParts (span : SpanData) : List (Bytes × Option JsonValue) :=
  [(ascii "trace_id", some (.string span.traceId)),
   (ascii "span_id", some (.string span.spanId)),
   (ascii "op", some (.string (sentrySpanOp span.name))),
   (ascii "status", some (.string (sentryTransactionStatus
     ((JsonValue.object span.attributes.entries).safeGetInt (ascii "http.status_code") 200)))),
   (ascii "parent_span_id", optionalText span.parentId)]

/-- The contexts of a transaction. -/
def contextParts (span : SpanData) : List (Bytes × Option JsonValue) :=
  [(ascii "trace", some (objectOf (present (traceParts span)))),
   (ascii "service", optionalValue span.serviceName
     (objectOf [(ascii "name", .string span.serviceName)]))]

/-- The fields of a transaction, with its tags. -/
def transactionParts (cfg : SentryConfig) (choices : SentryChoices) (i : ℕ) (span : SpanData)
    (tags : List (Bytes × JsonValue)) : List (Bytes × Option JsonValue) :=
  [(ascii "event_id", some (.string (choices.eventId i).bytes)),
   (ascii "type", some (.string (ascii "transaction"))),
   (ascii "start_timestamp", some (.string (choices.formatRfc3339Us span.startUs).bytes)),
   (ascii "timestamp", some (.string (choices.formatRfc3339Us span.endUs).bytes)),
   (ascii "platform", some (.string (ascii "native"))),
   (ascii "transaction", some (.string
     (if cfg.service.bytes.isEmpty then span.name
      else cfg.service.bytes ++ ascii ": " ++ span.name))),
   (ascii "release", optionalText cfg.release.bytes),
   (ascii "contexts", some (objectOf (present (contextParts span)))),
   (ascii "environment", optionalText cfg.environment.bytes),
   (ascii "tags", some (.object tags)),
   (ascii "extra", optionalValue span.attributes.entries (.object span.attributes.entries))]

/-- The tags that a transaction has beside the attributes. -/
def serviceTags (cfg : SentryConfig) (span : SpanData) : List (Bytes × JsonValue) :=
  assign []
    (assignIfNonempty (ascii "service") span.serviceName (.string span.serviceName) ++
     assignIfNonempty (ascii "mode") cfg.service.bytes (.string cfg.service.bytes))

theorem buildSentryTransactionJson_eq (i : ℕ) (span : SpanData) :
    buildSentryTransactionJson lib cfg choices i span =
      (mergeStringifiedTags lib (serviceTags cfg span) span.attributes.entries).map fun tags =>
        objectOf (present (transactionParts cfg choices i span tags)) := by
  rw [buildSentryTransactionJson]
  refine congrArg (fun f => Option.map f _) (funext fun tags => congrArg objectOf ?_)
  simp only [transactionParts, contextParts, traceParts, optionalText, present_cons_some,
    present_cons_optionalValue, present_nil, assignIfNonempty, List.cons_append,
    List.nil_append, List.append_assoc, List.append_nil]

theorem nodup_keys_traceParts (span : SpanData) : ((traceParts span).map Prod.fst).Nodup := by
  show List.Nodup [ascii "trace_id", ascii "span_id", ascii "op", ascii "status",
    ascii "parent_span_id"]
  decide

theorem nodup_keys_transactionParts (i : ℕ) (span : SpanData) (tags : List (Bytes × JsonValue)) :
    ((transactionParts cfg choices i span tags).map Prod.fst).Nodup := by
  show List.Nodup [ascii "event_id", ascii "type", ascii "start_timestamp", ascii "timestamp",
    ascii "platform", ascii "transaction", ascii "release", ascii "contexts",
    ascii "environment", ascii "tags", ascii "extra"]
  decide

theorem lookup_wire_string {j : JsonValue} {path : List Bytes} {s : Bytes}
    (h : lookup j path = some (.string s)) : lookup j.wire path = some (.string s) := by
  rw [lookup_wire, h]
  simp [wire]

/-- A tag is a text. -/
theorem exists_of_stringified {v tag : JsonValue} (h : stringified lib v = some tag) :
    ∃ s, tag = .string s := by
  unfold stringified at h
  split at h
  · exact ⟨_, (Option.some.inj h).symm⟩
  · obtain ⟨s, -, rfl⟩ := Option.map_eq_some_iff.mp h
    exact ⟨s, rfl⟩

theorem wire_optionalValue {α : Type} (items : List α) (value : JsonValue) :
    (optionalValue items value).map wire = optionalValue items value.wire := by
  unfold optionalValue
  split
  · rfl
  · rfl

/-- **A transaction has its span in it**, in what the other side reads. -/
theorem carriesSpan {i : ℕ} {span : SpanData} {event : JsonValue}
    (h : buildSentryTransactionJson lib cfg choices i span = some event) :
    CarriesSpan lib choices span event.wire := by
  rw [buildSentryTransactionJson_eq] at h
  obtain ⟨tags, htags, rfl⟩ := Option.map_eq_some_iff.mp h
  have hfield : ∀ {key o}, (key, o) ∈ transactionParts cfg choices i span tags → ∀ path,
      lookup (objectOf (present (transactionParts cfg choices i span tags))).wire (key :: path) =
        (o.bind fun v => lookup v path).map wire := fun hmem path => by
    rw [lookup_wire, lookup_present (nodup_keys_transactionParts i span tags) hmem]
  have htrace : ∀ {key o}, (key, o) ∈ traceParts span →
      lookup (objectOf (present (transactionParts cfg choices i span tags))).wire
        [ascii "contexts", ascii "trace", key] = o.map wire := fun {key o} hmem => by
    have hcontexts : lookup (objectOf (present (contextParts span))) [ascii "trace", key] =
        lookup (objectOf (present (traceParts span))) [key] :=
      lookup_present (by show List.Nodup [ascii "trace", ascii "service"]; decide)
        List.mem_cons_self [key]
    rw [hfield (o := some (objectOf (present (contextParts span)))) (by simp [transactionParts]),
      Option.bind_some, hcontexts, lookup_present (nodup_keys_traceParts span) hmem]
    cases o <;> rfl
  refine
    { traceId := (htrace (o := some (.string span.traceId)) (by simp [traceParts])).trans ?_
      spanId := (htrace (o := some (.string span.spanId)) (by simp [traceParts])).trans ?_
      parentId := (htrace (o := optionalText span.parentId) (by simp [traceParts])).trans ?_
      start := (hfield (o := some (.string (choices.formatRfc3339Us span.startUs).bytes))
        (by simp [transactionParts]) []).trans ?_
      stop := (hfield (o := some (.string (choices.formatRfc3339Us span.endUs).bytes))
        (by simp [transactionParts]) []).trans ?_
      tags := fun e he => ?_
      extra := (hfield (o := optionalValue span.attributes.entries
        (.object span.attributes.entries)) (by simp [transactionParts]) []).trans ?_ }
  · simp [wire]
  · simp [wire]
  · rw [optionalText, wire_optionalValue]
    simp [wire]
  · simp [lookup, wire]
  · simp [lookup, wire]
  · obtain ⟨tag, htag, hfind⟩ := find_mergeStringifiedTags htags span.attributes.nodup_keys he
    obtain ⟨s, rfl⟩ := exists_of_stringified htag
    refine ⟨_, htag, ?_⟩
    rw [hfield (o := some (.object tags)) (by simp [transactionParts])]
    simp [lookup, hfind, wire]
  · rw [← wire_optionalValue]
    cases optionalValue span.attributes.entries (.object span.attributes.entries) <;> rfl

/-- Every transaction has an id. -/
theorem exists_eventId {i : ℕ} {span : SpanData} {event : JsonValue}
    (h : buildSentryTransactionJson lib cfg choices i span = some event) :
    ∃ id, event.find (ascii "event_id") = some (.string id) := by
  rw [buildSentryTransactionJson_eq] at h
  obtain ⟨tags, -, rfl⟩ := Option.map_eq_some_iff.mp h
  exact ⟨_, find_assign_of_mem
    ((keys_present _).nodup (nodup_keys_transactionParts i span tags)) List.mem_cons_self⟩

/-! ## The spans that are sent -/

variable {F : UInt64 → Prop}

/-- Tags are texts, in the order of their keys. -/
theorem plain_mergeStringifiedTags {items dest tags : List (Bytes × JsonValue)}
    (h : mergeStringifiedTags lib dest items = some tags) (hsorted : KeysSorted dest)
    (hplain : ∀ e ∈ dest, e.2.Plain F) : (JsonValue.object tags).Plain F := by
  induction items generalizing dest with
  | nil =>
    obtain rfl := Option.some.inj h
    exact .object ⟨dest, hsorted⟩ hplain
  | cons item items ih =>
    obtain ⟨tag, htag, hrest⟩ := Option.bind_eq_some_iff.mp h
    refine ih hrest (keysSorted_setEntry _ _ hsorted) fun e he => ?_
    rcases eq_or_mem_of_mem_setEntry he with rfl | he
    · obtain ⟨s, rfl⟩ := exists_of_stringified htag
      exact .string s
    · exact hplain e he

theorem plain_of_mem_assignIfNonempty {key text : Bytes} {value : JsonValue}
    (hvalue : value.Plain F) : ∀ p ∈ assignIfNonempty key text value, p.2.Plain F := by
  unfold assignIfNonempty
  split
  · exact List.forall_mem_nil _
  · exact List.forall_mem_singleton.mpr hvalue

theorem plain_present {parts : List (Bytes × Option JsonValue)}
    (h : ∀ p ∈ parts, ∀ v ∈ p.2, v.Plain F) : (objectOf (present parts)).Plain F :=
  plain_objectOf fun p hp => h (p.1, some p.2) (mem_present.mp hp) p.2 rfl

theorem plain_some {v : JsonValue} (h : v.Plain F) : ∀ w ∈ some v, w.Plain F := fun _ hw =>
  Option.some.inj hw ▸ h

theorem plain_optionalValue {α : Type} (items : List α) {v : JsonValue} (h : v.Plain F) :
    ∀ w ∈ optionalValue items v, w.Plain F := by
  unfold optionalValue
  split
  · exact fun w hw => absurd hw (Option.not_mem_none w)
  · exact plain_some h

theorem plain_traceParts (span : SpanData) : (objectOf (present (traceParts span))).Plain F := by
  refine plain_present ?_
  simp only [traceParts, List.forall_mem_cons]
  exact ⟨plain_some (.string _), plain_some (.string _), plain_some (.string _),
    plain_some (.string _), plain_optionalValue _ (.string _), List.forall_mem_nil _⟩

theorem plain_contextParts (span : SpanData) :
    (objectOf (present (contextParts span))).Plain F := by
  refine plain_present ?_
  simp only [contextParts, List.forall_mem_cons]
  exact ⟨plain_some (plain_traceParts span), plain_optionalValue _
    (plain_objectOf (List.forall_mem_singleton.mpr (.string _))), List.forall_mem_nil _⟩

/-- The transaction of a span with plain attributes is plain. -/
theorem plain_transaction {i : ℕ} {span : SpanData} {event : JsonValue}
    (h : buildSentryTransactionJson lib cfg choices i span = some event)
    (hattributes : PlainObject F span.attributes) : event.Plain F := by
  rw [buildSentryTransactionJson_eq] at h
  obtain ⟨tags, htags, rfl⟩ := Option.map_eq_some_iff.mp h
  have hserviceTags : ∀ e ∈ serviceTags cfg span, e.2.Plain F := fun e he =>
    List.forall_mem_append.mpr ⟨plain_of_mem_assignIfNonempty (.string _),
      plain_of_mem_assignIfNonempty (.string _)⟩ e
      ((mem_or_mem_of_mem_assign he).resolve_left List.not_mem_nil)
  have htagsPlain := plain_mergeStringifiedTags htags
    (keysSorted_assign List.Pairwise.nil _) hserviceTags
  refine plain_present ?_
  simp only [transactionParts, List.forall_mem_cons]
  exact ⟨plain_some (.string _), plain_some (.string _), plain_some (.string _),
    plain_some (.string _), plain_some (.string _), plain_some (.string _),
    plain_optionalValue _ (.string _), plain_some (plain_contextParts span),
    plain_optionalValue _ (.string _), plain_some htagsPlain,
    plain_optionalValue _ hattributes.plain, List.forall_mem_nil _⟩

/-- A span that can be sent: all its texts are well formed, and its attributes plain. -/
structure SpanData.Sendable (F : UInt64 → Prop) (span : SpanData) : Prop where
  valid : span.Valid
  attributes : PlainObject F span.attributes

/-- The spans of a batch that are sampled, from the `i`-th draw on. -/
def sampledSpans (cfg : SentryConfig) (choices : SentryChoices) :
    ℕ → List SpanData → List SpanData
  | _, [] => []
  | i, span :: batch =>
    if cfg.sampleRate < 1 ∧ cfg.sampleRate ≤ (choices.draw i).value then
      sampledSpans cfg choices (i + 1) batch
    else span :: sampledSpans cfg choices (i + 1) batch

/-- **The transactions of a batch** are those of the sampled spans, in order. -/
theorem exists_sampledTransactions {i : ℕ} {batch : List SpanData}
    (h : ∀ span ∈ batch, span.Sendable F) :
    ∃ events, sampledTransactions lib cfg choices i batch = some events ∧
      (∀ event ∈ events, event.Storable F ∧
        ∃ id, event.find (ascii "event_id") = some (.string id)) ∧
      List.Forall₂ (fun span event => CarriesSpan lib choices span event.wire)
        (sampledSpans cfg choices i batch) events := by
  induction batch generalizing i with
  | nil => exact ⟨[], rfl, List.forall_mem_nil _, List.Forall₂.nil⟩
  | cons span batch ih =>
    obtain ⟨hspan, hbatch⟩ := List.forall_mem_cons.mp h
    obtain ⟨events, hevents, hstorable, hcarry⟩ := @ih (i + 1) hbatch
    rw [sampledTransactions, sampledSpans]
    split
    · exact ⟨events, hevents, hstorable, hcarry⟩
    · obtain ⟨event, hevent, hutf8⟩ :
          ∃ j, buildSentryTransactionJson lib cfg choices i span = some j ∧ j.allUtf8 = true :=
        buildSentryTransactionJson_utf8 hspan.valid
      have hplain := plain_transaction hevent hspan.attributes
      refine ⟨event :: events, ?_, List.forall_mem_cons.mpr
        ⟨⟨hplain.storable hutf8, exists_eventId hevent⟩, hstorable⟩,
        .cons (carriesSpan hevent) hcarry⟩
      rw [hevent, hevents]
      rfl

end Fields

/-- The payload of an item is not longer than the envelope. -/
theorem length_payload_le (fmt : FloatText) (header : JsonValue)
    {items : List (JsonValue × JsonValue)} {item : JsonValue × JsonValue} (h : item ∈ items) :
    (serialize fmt item.2).length ≤ (frame fmt header items).length := by
  have hline : serialize fmt item.2 ∈ items.flatMap (itemLines fmt) :=
    List.mem_flatMap.mpr ⟨item, h, List.mem_cons_of_mem _ (List.mem_singleton_self _)⟩
  have hsub : (10 :: serialize fmt item.2).Sublist
      ((items.flatMap (itemLines fmt)).flatMap (10 :: ·)) := by
    rw [List.flatMap_def]
    exact List.sublist_flatten_of_mem (List.mem_map_of_mem hline)
  have hlength := hsub.length_le
  rw [frame, intercalate_cons_eq, List.length_append]
  rw [List.length_cons] at hlength
  omega

theorem storable_envelopeHeader {F : UInt64 → Prop} {eventId : Bytes}
    (h : isValidUtf8 eventId = true) (sentAt : Text) :
    (envelopeHeader eventId sentAt).Storable F := by
  refine Plain.storable (plain_objectOf ?_) (allUtf8_envelopeHeader h sentAt)
  simp only [List.forall_mem_cons]
  refine ⟨.string _, .string _, plain_objectOf ?_, List.forall_mem_nil _⟩
  simp only [List.forall_mem_cons]
  exact ⟨.string _, .string _, List.forall_mem_nil _⟩

/-- The id in the header of an envelope. -/
theorem lookup_eventId_envelopeHeader (eventId : Bytes) (sentAt : Text) :
    lookup (envelopeHeader eventId sentAt) [ascii "event_id"] = some (.string eventId) :=
  @lookup_present [(ascii "event_id", some (.string eventId)), (ascii "sent_at", some _),
    (ascii "sdk", some _)]
    (by show List.Nodup [ascii "event_id", ascii "sent_at", ascii "sdk"]; decide) _ _
    List.mem_cons_self []

/-- The type in the header of an item. -/
theorem lookup_type_itemHeader (fmt : FloatText) (payload : JsonValue) (type : Bytes)
    (includeLength : Bool) :
    lookup (itemHeader fmt payload type includeLength).wire [ascii "type"] =
      some (.string type) := by
  refine lookup_wire_string ?_
  have hmem : (ascii "type", JsonValue.string type) ∈ [(ascii "type", JsonValue.string type)] ++
      if includeLength then [(ascii "length", JsonValue.uint (serialize fmt payload).length)]
      else [] := List.mem_append_left _ List.mem_cons_self
  rw [itemHeader, lookup, objectOf,
    find_assign_of_mem (nodup_keys_itemHeader fmt payload type includeLength) hmem]
  rfl

/-- A span of a request whose address has a line break in it. -/
def brokenLineSpan : SpanData where
  traceId := ascii "0af7651916cd43dd8448eb211c80319c"
  spanId := ascii "b7ad6b7169203331"
  parentId := []
  name := ascii "HTTP GET /v1/a\nb"
  serviceName := ascii "proxy"
  startUs := 1000000
  endUs := 2000000
  enqueueTimeUs := 2000000
  attributes := JsonObject.of [(ascii "http.url", .string (ascii "/v1/a\n{}\nb"))]

/-- Every span is sent. -/
def everySpan : SentryConfig where
  enabled := true
  service := ⟨ascii "edge", by decide⟩
  environment := ⟨[], isValidUtf8_nil⟩
  release := ⟨[], isValidUtf8_nil⟩
  sampleRate := 1

/-- Choices of a delivery that gets through. -/
def deliveredChoices : SentryChoices where
  nowSteadyMs := 0
  draw := fun _ => { value := 0, nonneg := by decide, lt_one := by decide }
  eventId := fun _ => HexId.zero 32
  formatRfc3339Us := fun _ => ⟨ascii "1970-01-01T00:00:01.000Z", by decide⟩
  sentAt := ⟨ascii "1970-01-01T00:00:02.000Z", by decide⟩
  posted := true

theorem sendable_brokenLineSpan : brokenLineSpan.Sendable oneAndAHalf.Exact where
  valid :=
    { traceId := by decide
      spanId := by decide
      parentId := by decide
      name := by decide
      serviceName := by decide
      attributes := JsonObject.utf8_of
        (List.forall_mem_singleton.mpr (entryUtf8_string (by decide) (by decide))) }
  attributes := plainObject_of (List.forall_mem_singleton.mpr (.string _))

end Tracing
end HttpDataDiod
