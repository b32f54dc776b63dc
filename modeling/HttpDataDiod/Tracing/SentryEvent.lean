import HttpDataDiod.Tracing.EnvelopeFraming

/-!
# The envelope of an event

Model of `build_event_json` and `build_envelope` of `sentry_client.cpp`: what one captured event
is sent as.  An exception that leaves a function is `none`.

* `buildEventJson`, `buildEnvelope`.
* `CarriesEvent`, `carriesEvent`: what of an event is in its payload.
* `event_read`: reading the envelope gives the event.
-/

namespace HttpDataDiod
namespace Tracing

open ByteText JsonValue Lexer Serializer

/-! ## Data -/

/-- `EventLevel`. -/
inductive EventLevel where
  | debug
  | info
  | warning
  | error
  | fatal
  deriving DecidableEq

/-- `level_to_string`. -/
def levelToString : EventLevel → Bytes
  | .debug => ascii "debug"
  | .info => ascii "info"
  | .warning => ascii "warning"
  | .error => ascii "error"
  | .fatal => ascii "fatal"

/-- `SentryEvent`. -/
structure SentryEvent where
  message : Bytes
  level : EventLevel := .error
  transaction : Bytes := []
  requestId : Bytes := []
  tags : JsonObject := JsonObject.empty
  fingerprint : List Bytes := []
  extra : JsonObject := JsonObject.empty

/-- The names that a client was made with. -/
structure SentryService where
  serviceName : Text
  environment : Text
  release : Text

/-- What building one envelope takes from outside: the random id, and the clock twice. -/
structure EventChoices where
  eventId : HexId 32
  timestamp : Text
  sentAt : Text

/-! ## The payload -/

/-- `service_tags`. -/
def serviceNameTags (serviceName : Bytes) : List (Bytes × JsonValue) :=
  assignIfNonempty (ascii "service") serviceName (.string serviceName)

/-- The exception of an event. -/
def exceptionValue (message : Bytes) : JsonValue :=
  objectOf [(ascii "values", .array
    [objectOf [(ascii "type", .string (ascii "Error")), (ascii "value", .string message)]])]

/-- An event at these levels has an exception. -/
def EventLevel.isError : EventLevel → Bool
  | .error | .fatal => true
  | _ => false

/-- The assignments of `build_event_json`, with the tags. -/
def eventParts (service : SentryService) (choices : EventChoices) (event : SentryEvent)
    (tags : List (Bytes × JsonValue)) : List (Bytes × Option JsonValue) :=
  [(ascii "event_id", some (.string choices.eventId.bytes)),
   (ascii "timestamp", some (.string choices.timestamp.bytes)),
   (ascii "platform", some (.string (ascii "native"))),
   (ascii "level", some (.string (levelToString event.level))),
   (ascii "message", some (.string event.message)),
   (ascii "release", optionalText service.release.bytes),
   (ascii "environment", optionalText service.environment.bytes),
   (ascii "transaction", optionalText event.transaction),
   (ascii "tags", optionalValue tags (.object tags)),
   (ascii "fingerprint", optionalValue event.fingerprint
     (.array (event.fingerprint.map JsonValue.string))),
   (ascii "extra", optionalValue event.extra.entries (.object event.extra.entries)),
   (ascii "exception", if event.level.isError then some (exceptionValue event.message)
     else none)]

/-- The tags of an event before its own are merged into them. -/
def ownTags (service : SentryService) (event : SentryEvent) : List (Bytes × JsonValue) :=
  assign (assign [] (serviceNameTags service.serviceName.bytes))
    (assignIfNonempty (ascii "request_id") event.requestId (.string event.requestId))

variable (lib : JsonLibrary)

/-- `build_event_json`. -/
def buildEventJson (service : SentryService) (choices : EventChoices) (event : SentryEvent) :
    Option JsonValue :=
  (mergeStringifiedTags lib (ownTags service event) event.tags.entries).map fun tags =>
    objectOf (present (eventParts service choices event tags))

/-- `build_envelope`. -/
def buildEnvelope (service : SentryService) (choices : EventChoices) (event : SentryEvent) :
    Option Bytes := do
  let eventJson ← buildEventJson lib service choices event
  let header ← lib.dump
    (envelopeHeader (eventJson.safeGetString (ascii "event_id") []) choices.sentAt)
  let item ← envelopeItemOf lib eventJson (ascii "event") false
  return header ++ ascii "\n" ++ item

/-! ## What is in a payload -/

/-- What of an event is in its payload. -/
structure CarriesEvent (event : SentryEvent) (j : JsonValue) : Prop where
  message : lookup j [ascii "message"] = some (.string event.message)
  level : lookup j [ascii "level"] = some (.string (levelToString event.level))
  transaction : lookup j [ascii "transaction"] = optionalText event.transaction
  requestId : ascii "request_id" ∉ event.tags.entries.map Prod.fst →
    lookup j [ascii "tags", ascii "request_id"] = optionalText event.requestId
  tags : ∀ e ∈ event.tags.entries, ∃ tag, stringified lib e.2 = some tag ∧
    lookup j [ascii "tags", e.1] = some tag
  fingerprint : lookup j [ascii "fingerprint"] = optionalValue event.fingerprint
    (.array (event.fingerprint.map JsonValue.string))
  extra : lookup j [ascii "extra"] = optionalValue event.extra.entries
    (JsonValue.object event.extra.entries).wire
  exception : lookup j [ascii "exception"] =
    if event.level.isError then some (exceptionValue event.message) else none

section Fields

variable {lib} {service : SentryService} {choices : EventChoices} {event : SentryEvent}

theorem nodup_keys_eventParts (tags : List (Bytes × JsonValue)) :
    ((eventParts service choices event tags).map Prod.fst).Nodup := by
  show List.Nodup [ascii "event_id", ascii "timestamp", ascii "platform", ascii "level",
    ascii "message", ascii "release", ascii "environment", ascii "transaction", ascii "tags",
    ascii "fingerprint", ascii "extra", ascii "exception"]
  decide

theorem wire_array_strings (items : List Bytes) :
    (JsonValue.array (items.map JsonValue.string)).wire =
      .array (items.map JsonValue.string) := by
  have helems : wireElems (items.map JsonValue.string) = items.map JsonValue.string := by
    induction items with
    | nil => rfl
    | cons s items ih => rw [List.map_cons, wireElems, ih, wire]
  rw [wire, helems]

theorem wire_exceptionValue (message : Bytes) :
    (exceptionValue message).wire = exceptionValue message := by
  simp [exceptionValue, objectOf, assign, setEntry, wire, wireEntries, wireElems, ascii, keyLt]

/-- A client without a name has no tag for it, and one with a name has that tag alone. -/
theorem keys_serviceNameTags (serviceName : Bytes) :
    ∀ key ∈ (serviceNameTags serviceName).map Prod.fst, key = ascii "service" := by
  unfold serviceNameTags assignIfNonempty
  split
  · exact List.forall_mem_nil _
  · exact List.forall_mem_singleton.mpr rfl

/-- A tag is looked up in the tags, whether they are left out or not. -/
theorem lookup_tags (tags : List (Bytes × JsonValue)) (key : Bytes) :
    ((optionalValue tags (.object tags)).bind fun v => lookup v [key]) =
      find key (.object tags) := by
  cases tags with
  | nil => rfl
  | cons e tags =>
    show (find key (.object (e :: tags))).bind some = _
    rw [Option.bind_fun_some]

theorem find_requestId_ownTags (service : SentryService) (event : SentryEvent) :
    find (ascii "request_id") (.object (ownTags service event)) =
      optionalText event.requestId := by
  unfold ownTags optionalText optionalValue
  cases hempty : event.requestId.isEmpty with
  | true =>
    have hkey : ascii "request_id" ∉
        (serviceNameTags service.serviceName.bytes).map Prod.fst := fun hmem =>
      absurd (keys_serviceNameTags _ _ hmem) (by decide)
    rw [assignIfNonempty, if_pos hempty, if_pos rfl]
    exact find_assign_of_not_mem hkey
  | false =>
    rw [assignIfNonempty, if_neg (by rw [hempty]; decide), if_neg (by decide)]
    have hnodup : ([(ascii "request_id", JsonValue.string event.requestId)].map
        Prod.fst).Nodup := List.pairwise_singleton _ _
    exact find_assign_of_mem hnodup (List.mem_singleton_self _)

/-- **A payload has its event in it**, in what the other side reads. -/
theorem carriesEvent {j : JsonValue} (h : buildEventJson lib service choices event = some j) :
    CarriesEvent lib event j.wire := by
  obtain ⟨tags, htags, rfl⟩ := Option.map_eq_some_iff.mp h
  have hfield : ∀ {key o}, (key, o) ∈ eventParts service choices event tags → ∀ path,
      lookup (objectOf (present (eventParts service choices event tags))).wire (key :: path) =
        (o.bind fun v => lookup v path).map wire := fun hmem path => by
    rw [lookup_wire, lookup_present (nodup_keys_eventParts tags) hmem]
  have hvalue : ∀ {key o}, (key, o) ∈ eventParts service choices event tags →
      lookup (objectOf (present (eventParts service choices event tags))).wire [key] =
        o.map wire := fun {key o} hmem => by
    rw [hfield hmem]
    cases o <;> rfl
  have htag : ∀ key, lookup
      (objectOf (present (eventParts service choices event tags))).wire [ascii "tags", key] =
        (find key (.object tags)).map wire := fun key => by
    rw [hfield (o := optionalValue tags (.object tags)) (by simp [eventParts]), lookup_tags]
  refine
    { message := (hvalue (o := some (.string event.message)) (by simp [eventParts])).trans ?_
      level := (hvalue (o := some (.string (levelToString event.level)))
        (by simp [eventParts])).trans ?_
      transaction := (hvalue (o := optionalText event.transaction) (by simp [eventParts])).trans ?_
      requestId := fun hkey => ?_
      tags := fun e he => ?_
      fingerprint := (hvalue (o := optionalValue event.fingerprint
        (.array (event.fingerprint.map JsonValue.string))) (by simp [eventParts])).trans ?_
      extra := (hvalue (o := optionalValue event.extra.entries (.object event.extra.entries))
        (by simp [eventParts])).trans (wire_optionalValue _ _)
      exception := (hvalue (o := if event.level.isError then some (exceptionValue event.message)
        else none) (by simp [eventParts])).trans ?_ }
  · simp [wire]
  · simp [wire]
  · rw [optionalText, wire_optionalValue, wire]
  · rw [htag, find_mergeStringifiedTags_of_not_mem htags hkey, find_requestId_ownTags,
      optionalText, wire_optionalValue, wire]
  · obtain ⟨tag, hstringified, hfind⟩ :=
      find_mergeStringifiedTags htags event.tags.nodup_keys he
    obtain ⟨s, rfl⟩ := exists_of_stringified hstringified
    refine ⟨_, hstringified, ?_⟩
    rw [htag, hfind, Option.map_some, wire]
  · rw [wire_optionalValue, wire_array_strings]
  · split
    · rw [Option.map_some, wire_exceptionValue]
    · rfl

/-! ## The payload can be held -/

variable {F : UInt64 → Prop}

/-- An event that can be sent: all its texts are well formed, and what is attached is plain. -/
structure SentryEvent.Sendable (F : UInt64 → Prop) (event : SentryEvent) : Prop where
  message : isValidUtf8 event.message = true
  transaction : isValidUtf8 event.transaction = true
  requestId : isValidUtf8 event.requestId = true
  tags : event.tags.Utf8
  fingerprint : ∀ s ∈ event.fingerprint, isValidUtf8 s = true
  extra : event.extra.Utf8
  extraPlain : PlainObject F event.extra

theorem utf8_present {parts : List (Bytes × Option JsonValue)}
    (h : ∀ p ∈ parts, isValidUtf8 p.1 = true ∧ ∀ v ∈ p.2, v.allUtf8 = true) :
    (objectOf (present parts)).allUtf8 = true := by
  refine allUtf8_objectOf fun p hp => ?_
  obtain ⟨hkey, hvalue⟩ := h (p.1, some p.2) (mem_present.mp hp)
  exact ⟨hkey, hvalue p.2 rfl⟩

theorem utf8_some {v : JsonValue} (h : v.allUtf8 = true) : ∀ w ∈ some v, w.allUtf8 = true :=
  fun _ hw => Option.some.inj hw ▸ h

theorem utf8_optionalValue {α : Type} (items : List α) {v : JsonValue} (h : v.allUtf8 = true) :
    ∀ w ∈ optionalValue items v, w.allUtf8 = true := by
  unfold optionalValue
  split
  · exact fun w hw => absurd hw (Option.not_mem_none w)
  · exact utf8_some h

theorem utf8_string {s : Bytes} (h : isValidUtf8 s = true) :
    (JsonValue.string s).allUtf8 = true := by rw [allUtf8_string, h]

theorem isValidUtf8_levelToString (level : EventLevel) :
    isValidUtf8 (levelToString level) = true := by
  cases level <;> decide

theorem utf8_exceptionValue {message : Bytes} (h : isValidUtf8 message = true) :
    (exceptionValue message).allUtf8 = true := by
  have hvalue : (objectOf [(ascii "type", .string (ascii "Error")),
      (ascii "value", .string message)]).allUtf8 = true := by
    refine allUtf8_objectOf ?_
    simp only [List.forall_mem_cons]
    exact ⟨entryUtf8_string (by decide) (by decide), entryUtf8_string (by decide) h,
      List.forall_mem_nil _⟩
  refine allUtf8_objectOf (List.forall_mem_singleton.mpr (entryUtf8_mk (by decide) ?_))
  rw [allUtf8, allUtf8Elems_iff]
  exact List.forall_mem_singleton.mpr hvalue

theorem plain_exceptionValue (message : Bytes) : (exceptionValue message).Plain F := by
  refine plain_objectOf (List.forall_mem_singleton.mpr (.array (List.forall_mem_singleton.mpr
    (plain_objectOf ?_))))
  simp only [List.forall_mem_cons]
  exact ⟨.string _, .string _, List.forall_mem_nil _⟩

/-- The tags before the event's own are texts. -/
theorem plain_ownTags : ∀ e ∈ ownTags service event, e.2.Plain F := by
  intro e he
  rcases mem_or_mem_of_mem_assign he with he | he
  · exact plain_of_mem_assignIfNonempty (.string _) e
      ((mem_or_mem_of_mem_assign he).resolve_left List.not_mem_nil)
  · exact plain_of_mem_assignIfNonempty (.string _) e he

theorem utf8_ownTags (h : event.Sendable F) : ∀ e ∈ ownTags service event, EntryUtf8 e := by
  intro e he
  rcases mem_or_mem_of_mem_assign he with he | he
  · exact entryUtf8_of_mem_assignIfNonempty (by decide) (utf8_string service.serviceName.valid) e
      ((mem_or_mem_of_mem_assign he).resolve_left List.not_mem_nil)
  · exact entryUtf8_of_mem_assignIfNonempty (by decide) (utf8_string h.requestId) e he

/-- **The payload of an event that can be sent** is made, and can be held. -/
theorem exists_buildEventJson (lib : JsonLibrary) (service : SentryService)
    (choices : EventChoices) (h : event.Sendable F) :
    ∃ j, buildEventJson lib service choices event = some j ∧ j.Storable F ∧
      j.find (ascii "event_id") = some (.string choices.eventId.bytes) := by
  obtain ⟨tags, htags, hutf8⟩ : ∃ tags,
      mergeStringifiedTags lib (ownTags service event) event.tags.entries = some tags ∧
        ∀ e ∈ tags, EntryUtf8 e := mergeStringifiedTags_eq_some h.tags (utf8_ownTags h)
  have hsorted : KeysSorted (ownTags service event) :=
    keysSorted_assign (keysSorted_assign List.Pairwise.nil _) _
  have htagsPlain := plain_mergeStringifiedTags htags hsorted (plain_ownTags (F := F))
  have htagsUtf8 : (JsonValue.object tags).allUtf8 = true := by
    rw [allUtf8, allUtf8Entries_iff]
    exact hutf8
  have hfingerprint : (JsonValue.array (event.fingerprint.map JsonValue.string)).allUtf8 =
      true := by
    rw [allUtf8, allUtf8Elems_iff]
    intro v hv
    obtain ⟨s, hs, rfl⟩ := List.mem_map.mp hv
    exact utf8_string (h.fingerprint s hs)
  refine ⟨objectOf (present (eventParts service choices event tags)),
    by rw [buildEventJson, htags]; rfl, Plain.storable (plain_present ?_) (utf8_present ?_),
    find_assign_of_mem ((keys_present _).nodup (nodup_keys_eventParts tags))
      List.mem_cons_self⟩
  · simp only [eventParts, List.forall_mem_cons]
    refine ⟨plain_some (.string _), plain_some (.string _), plain_some (.string _),
      plain_some (.string _), plain_some (.string _), plain_optionalValue _ (.string _),
      plain_optionalValue _ (.string _), plain_optionalValue _ (.string _),
      plain_optionalValue _ htagsPlain, plain_optionalValue _ (.array ?_),
      plain_optionalValue _ h.extraPlain.plain, ?_, List.forall_mem_nil _⟩
    · intro v hv
      obtain ⟨s, -, rfl⟩ := List.mem_map.mp hv
      exact .string s
    · split
      · exact plain_some (plain_exceptionValue _)
      · exact fun w hw => absurd hw (Option.not_mem_none w)
  · simp only [eventParts, List.forall_mem_cons]
    refine ⟨⟨by decide, utf8_some (utf8_string choices.eventId.valid)⟩,
      ⟨by decide, utf8_some (utf8_string choices.timestamp.valid)⟩,
      ⟨by decide, utf8_some (utf8_string (by decide))⟩,
      ⟨by decide, utf8_some (utf8_string (isValidUtf8_levelToString _))⟩,
      ⟨by decide, utf8_some (utf8_string h.message)⟩,
      ⟨by decide, utf8_optionalValue _ (utf8_string service.release.valid)⟩,
      ⟨by decide, utf8_optionalValue _ (utf8_string service.environment.valid)⟩,
      ⟨by decide, utf8_optionalValue _ (utf8_string h.transaction)⟩,
      ⟨by decide, utf8_optionalValue _ htagsUtf8⟩,
      ⟨by decide, utf8_optionalValue _ hfingerprint⟩,
      ⟨by decide, utf8_optionalValue _ (allUtf8_object_of_utf8 h.extra)⟩,
      ⟨by decide, ?_⟩, List.forall_mem_nil _⟩
    split
    · exact utf8_some (utf8_exceptionValue h.message)
    · exact fun w hw => absurd hw (Option.not_mem_none w)

end Fields

/-! ## Reading the envelope -/

/-- **What arrives of an event.**  No exception is thrown for an event that can be sent, and
reading its envelope line by line gives one item, with the id of the header and with the
event in it. -/
theorem event_read (fmt : FloatText) (what : Bytes → Text) (service : SentryService)
    (choices : EventChoices) {event : SentryEvent} (h : event.Sendable fmt.Exact) :
    ∃ envelope header item payload,
      buildEnvelope (nlohmann fmt what) service choices event = some envelope ∧
      readEnvelope (nlohmann fmt what) envelope = some (header, [(item, payload)]) ∧
      lookup header [ascii "event_id"] = some (.string choices.eventId.bytes) ∧
      lookup item [ascii "type"] = some (.string (ascii "event")) ∧
      CarriesEvent (nlohmann fmt what) event payload := by
  obtain ⟨j, hj, hstorable, hid⟩ :=
    exists_buildEventJson (nlohmann fmt what) service choices h
  have hget : j.safeGetString (ascii "event_id") [] = choices.eventId.bytes := by
    rw [safeGetString, hid]
  have hvalid : isValidUtf8 choices.eventId.bytes = true := choices.eventId.valid
  have hutf8 : j.allUtf8 = true := allUtf8_of_storable hstorable
  have henvelope : buildEnvelope (nlohmann fmt what) service choices event =
      some (frame fmt (envelopeHeader choices.eventId.bytes choices.sentAt)
        [(itemHeader fmt j (ascii "event") false, j)]) := by
    rw [buildEnvelope, hj, Option.bind_eq_bind, Option.bind_some, hget,
      (nlohmann fmt what).dump_of_allUtf8 (allUtf8_envelopeHeader hvalid choices.sentAt),
      Option.bind_eq_bind, Option.bind_some, envelopeItemOf_eq what hutf8 (by decide) false,
      frame, intercalate_cons_eq]
    show some (_ ++ ascii "\n" ++ _) = _
    simp [itemLines, ascii]
    rfl
  have htype : isValidUtf8 (ascii "event") = true := by decide
  have hitem := readableItem hstorable htype false fun hfalse => Bool.noConfusion hfalse
  have hread := readEnvelope_frame what (storable_envelopeHeader hvalid choices.sentAt)
    (List.forall_mem_singleton.mpr hitem)
  exact ⟨_, _, _, _, henvelope, hread,
    lookup_wire_string (lookup_eventId_envelopeHeader _ _),
    lookup_type_itemHeader fmt j (ascii "event") false, carriesEvent hj⟩

/-- An event whose message has line breaks and the text of an item in it. -/
def multilineEvent : SentryEvent where
  message := ascii "failed:\n\x7b\"type\":\"event\"\x7d\n"
  requestId := ascii "req-1"
  tags := JsonObject.of [(ascii "db", .string (ascii "main"))]
  fingerprint := [ascii "db_query_error", ascii "UNKNOWN"]

theorem sendable_multilineEvent : multilineEvent.Sendable oneAndAHalf.Exact where
  message := by decide
  transaction := by decide
  requestId := by decide
  tags := JsonObject.utf8_of
    (List.forall_mem_singleton.mpr (entryUtf8_string (by decide) (by decide)))
  fingerprint := by decide
  extra := JsonObject.utf8_empty
  extraPlain := fun _ he => absurd he List.not_mem_nil

theorem event_read_multiline :
    ∃ envelope header item payload,
      buildEnvelope (nlohmann oneAndAHalf fun _ => ⟨[], rfl⟩)
        { serviceName := ⟨ascii "worker", by decide⟩
          environment := ⟨[], isValidUtf8_nil⟩
          release := ⟨[], isValidUtf8_nil⟩ }
        { eventId := HexId.zero 32
          timestamp := ⟨ascii "1970-01-01T00:00:01Z", by decide⟩
          sentAt := ⟨ascii "1970-01-01T00:00:02Z", by decide⟩ } multilineEvent = some envelope ∧
      readEnvelope (nlohmann oneAndAHalf fun _ => ⟨[], rfl⟩) envelope =
        some (header, [(item, payload)]) ∧
      lookup header [ascii "event_id"] = some (.string (HexId.zero 32).bytes) ∧
      lookup item [ascii "type"] = some (.string (ascii "event")) ∧
      CarriesEvent (nlohmann oneAndAHalf fun _ => ⟨[], rfl⟩) multilineEvent payload :=
  event_read oneAndAHalf _ _ _ sendable_multilineEvent

end Tracing
end HttpDataDiod
