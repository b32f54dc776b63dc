import Mathlib.Data.List.Nodup
import HttpDataDiod.Transport.RequestEnvelope

/-!
# The way of the headers

The headers of a request are a multimap on both sides; between them they are a JSON
object, which has one entry for a key.  The proxy writes them with
`filter_headers_to_json`, the worker reads them with `filter_headers_from_json`; within
one process `filter_headers` would do.

* `mem_filterHeadersFromJson_iff`: the pairs that the worker reads.
* `perm_filterHeadersFromJson_iff`: the worker gets the pairs of `filter_headers` exactly
  when no two of them have the same name.
-/

namespace HttpDataDiod
namespace Transport

open ByteText JsonValue Proxy Worker

/-! ## The entries of an object of strings -/

theorem mem_stringEntries_iff {name value : Bytes} {entries : List (Bytes × JsonValue)} :
    (name, value) ∈ stringEntries entries ↔ (name, JsonValue.string value) ∈ entries := by
  induction entries with
  | nil => simp [stringEntries]
  | cons e es ih =>
    obtain ⟨key, v⟩ := e
    cases v <;> simp [stringEntries, ih]

theorem keys_stringEntries_sublist (entries : List (Bytes × JsonValue)) :
    ((stringEntries entries).map Prod.fst).Sublist (entries.map Prod.fst) := by
  induction entries with
  | nil => exact List.Sublist.refl _
  | cons e es ih =>
    obtain ⟨key, v⟩ := e
    cases v with
    | string s => exact ih.cons_cons key
    | _ => exact ih.cons key

theorem wire_eq_string_iff {j : JsonValue} {s : Bytes} : j.wire = .string s ↔ j = .string s := by
  cases j with
  | int n =>
    rw [wire]
    split <;> simp
  | _ => simp [wire]

/-- The strings of an object are the same at the other end. -/
theorem mem_stringEntries_wire_iff {name value : Bytes} {entries : List (Bytes × JsonValue)} :
    (name, value) ∈ stringEntries (wireEntries entries) ↔
      (name, JsonValue.string value) ∈ entries := by
  rw [mem_stringEntries_iff, wireEntries_eq_map, List.mem_map]
  constructor
  · rintro ⟨⟨key, v⟩, he, heq⟩
    obtain ⟨rfl, hv⟩ := Prod.mk.inj heq
    obtain rfl : v = .string value := wire_eq_string_iff.mp hv
    exact he
  · intro he
    exact ⟨_, he, by rw [wire_string]⟩

/-! ## The two filters -/

variable {headers : List (Bytes × Bytes)}

/-- The headers as the worker parses them. -/
def receivedHeaders (headers : List (Bytes × Bytes)) : JsonValue :=
  (JsonValue.object (filterHeadersToJson headers).entries).wire

theorem filterHeadersFromJson_receivedHeaders (headers : List (Bytes × Bytes)) :
    filterHeadersFromJson (receivedHeaders headers) =
      filterHeaders (stringEntries (wireEntries (filterHeadersToJson headers).entries)) := by
  rw [receivedHeaders, wire]
  rfl

/-- The worker gets each name once. -/
theorem nodup_names_filterHeadersFromJson (headers : List (Bytes × Bytes)) :
    ((filterHeadersFromJson (receivedHeaders headers)).map Prod.fst).Nodup := by
  rw [filterHeadersFromJson_receivedHeaders]
  have hkeys : ((wireEntries (filterHeadersToJson headers).entries).map Prod.fst).Nodup := by
    rw [wireEntries_eq_map, List.map_map]
    exact (filterHeadersToJson headers).nodup_keys
  have hstrings := hkeys.sublist (keys_stringEntries_sublist _)
  exact hstrings.sublist (List.filter_sublist.map Prod.fst)

/-- The pairs that `filter_headers_to_json` assigns, when the values are well formed. -/
theorem filterHeadersToJson_eq (hvalues : ∀ h ∈ headers, isValidUtf8 h.2 = true) :
    filterHeadersToJson headers =
      JsonObject.of ((filterHeaders headers).map fun h => (h.1, .string h.2)) := by
  have hmap : ((headers.filter fun h => toLower h.1 ∉ defaultSkipHeaders).map fun h =>
      (h.1, JsonValue.string (sanitizeInvalid h.2))) =
      (filterHeaders headers).map fun h => (h.1, JsonValue.string h.2) := by
    refine List.map_congr_left fun h hh => ?_
    rw [sanitizeInvalid_of_isValidUtf8 (hvalues h (List.mem_of_mem_filter hh))]
  rw [filterHeadersToJson, hmap]

/-- **What the worker reads** are pairs of `filter_headers`, and all of them if their names
are different. -/
theorem mem_filterHeadersFromJson_iff (hvalues : ∀ h ∈ headers, isValidUtf8 h.2 = true)
    (hnodup : ((filterHeaders headers).map Prod.fst).Nodup) (pair : Bytes × Bytes) :
    pair ∈ filterHeadersFromJson (receivedHeaders headers) ↔ pair ∈ filterHeaders headers := by
  obtain ⟨name, value⟩ := pair
  rw [filterHeadersFromJson_receivedHeaders, filterHeaders, List.mem_filter,
    mem_stringEntries_wire_iff, filterHeadersToJson_eq hvalues]
  constructor
  · rintro ⟨hmem, -⟩
    have hpair := JsonObject.mem_of_mem_entries_of hmem
    obtain ⟨⟨name', value'⟩, hh, heq⟩ := List.mem_map.mp hpair
    obtain ⟨rfl, hvalue⟩ := Prod.mk.inj heq
    obtain rfl : value' = value := JsonValue.string.inj hvalue
    exact hh
  · intro hmem
    refine ⟨JsonObject.mem_entries_of ?_ (List.mem_map_of_mem hmem), (List.mem_filter.mp hmem).2⟩
    rw [List.map_map]
    exact hnodup

/-- The two filters agree exactly when no name is kept twice. -/
theorem perm_receivedHeaders_iff (hvalues : ∀ h ∈ headers, isValidUtf8 h.2 = true) :
    (filterHeadersFromJson (receivedHeaders headers)).Perm (filterHeaders headers) ↔
      ((filterHeaders headers).map Prod.fst).Nodup := by
  constructor
  · intro hperm
    exact (hperm.map Prod.fst).nodup_iff.mp (nodup_names_filterHeadersFromJson headers)
  · intro hnodup
    have hleft := List.Nodup.of_map Prod.fst (nodup_names_filterHeadersFromJson headers)
    have hright := List.Nodup.of_map Prod.fst hnodup
    exact (List.perm_ext_iff_of_nodup hleft hright).mpr
      (mem_filterHeadersFromJson_iff hvalues hnodup)

/-- **The transport of the headers.**  Headers with well-formed names and values are written
out and read back, and the worker gets the pairs that `filter_headers` gives exactly when no
two of these have the same name. -/
theorem perm_filterHeadersFromJson_iff (json : JsonLibrary) (headers : List (Bytes × Bytes))
    (hnames : ∀ h ∈ headers, isValidUtf8 h.1 = true)
    (hvalues : ∀ h ∈ headers, isValidUtf8 h.2 = true)
    (hround : json.RoundTrips (.object (filterHeadersToJson headers).entries)) :
    ∃ text j, json.dump (.object (filterHeadersToJson headers).entries) = some text ∧
      json.parse text = .value j ∧
      ((filterHeadersFromJson j).Perm (filterHeaders headers) ↔
        ((filterHeaders headers).map Prod.fst).Nodup) := by
  have hutf8 : (filterHeadersToJson headers).Utf8 := by
    rw [filterHeadersToJson_eq hvalues]
    refine JsonObject.utf8_of fun p hp => ?_
    obtain ⟨h, hh, rfl⟩ := List.mem_map.mp hp
    have hmem := List.mem_of_mem_filter hh
    exact entryUtf8_string (hnames h hmem) (hvalues h hmem)
  have hdump := json.dump_of_allUtf8 ((filterHeadersToJson headers).allUtf8_iff.mpr hutf8)
  exact ⟨_, receivedHeaders headers, hdump, hround, perm_receivedHeaders_iff hvalues⟩

/-- The headers of a request with one cookie. -/
def oneCookie : List (Bytes × Bytes) :=
  [(ascii "Host", ascii "a"), (ascii "Cookie", ascii "x=1")]

/-- The text of their object. -/
def oneCookieText : Text where
  bytes := ascii "\x7b\"Cookie\":\"x=1\"\x7d"
  valid := by decide

theorem perm_filterHeadersFromJson_oneCookie :
    ∃ text j, (JsonLibrary.single (.object (filterHeadersToJson oneCookie).entries)
        oneCookieText).dump (.object (filterHeadersToJson oneCookie).entries) = some text ∧
      (JsonLibrary.single (.object (filterHeadersToJson oneCookie).entries)
        oneCookieText).parse text = .value j ∧
      (filterHeadersFromJson j).Perm [(ascii "Cookie", ascii "x=1")] := by
  have hnames : ∀ h ∈ oneCookie, isValidUtf8 h.1 = true := by decide
  have hvalues : ∀ h ∈ oneCookie, isValidUtf8 h.2 = true := by decide
  have hfiltered : filterHeaders oneCookie = [(ascii "Cookie", ascii "x=1")] := by decide
  have hnodup : ((filterHeaders oneCookie).map Prod.fst).Nodup := by decide
  obtain ⟨text, j, hdump, hparse, hiff⟩ := perm_filterHeadersFromJson_iff
    (JsonLibrary.single (.object (filterHeadersToJson oneCookie).entries) oneCookieText)
    oneCookie hnames hvalues (JsonLibrary.roundTrips_single _ _)
  refine ⟨text, j, hdump, hparse, ?_⟩
  have hperm := hiff.mpr hnodup
  rwa [hfiltered] at hperm

/-- Two cookies in two header lines. -/
def twoCookies : List (Bytes × Bytes) :=
  [(ascii "Cookie", ascii "x=1"), (ascii "Cookie", ascii "y=2")]

/-- The text of their object. -/
def twoCookiesText : Text where
  bytes := ascii "\x7b\"Cookie\":\"y=2\"\x7d"
  valid := by decide

/-- A library that knows this text. -/
def twoCookiesJson : JsonLibrary :=
  JsonLibrary.single (.object (filterHeadersToJson twoCookies).entries) twoCookiesText

/-- **Of two headers with one name one arrives.** -/
theorem filterHeadersFromJson_twoCookies :
    twoCookiesJson.dump (.object (filterHeadersToJson twoCookies).entries) =
        some twoCookiesText.bytes ∧
      twoCookiesJson.parse twoCookiesText.bytes = .value (receivedHeaders twoCookies) ∧
      filterHeadersFromJson (receivedHeaders twoCookies) = [(ascii "Cookie", ascii "y=2")] ∧
      ¬ (filterHeadersFromJson (receivedHeaders twoCookies)).Perm (filterHeaders twoCookies) := by
  have hutf8 : (JsonValue.object (filterHeadersToJson twoCookies).entries).allUtf8 = true := by
    decide +kernel
  have hread : filterHeadersFromJson (receivedHeaders twoCookies) =
      [(ascii "Cookie", ascii "y=2")] := by
    rw [filterHeadersFromJson_receivedHeaders]
    decide +kernel
  have hfiltered : filterHeaders twoCookies =
      [(ascii "Cookie", ascii "x=1"), (ascii "Cookie", ascii "y=2")] := by decide
  refine ⟨twoCookiesJson.dump_of_allUtf8 hutf8, JsonLibrary.roundTrips_single _ _, hread,
    fun hperm => ?_⟩
  rw [hread, hfiltered] at hperm
  exact absurd hperm.length_eq (by decide)

end Transport
end HttpDataDiod
