import HttpDataDiod.Json.Dump

/-!
# Reading back what was written

`json::parse` applied to what `dump` wrote gives the value back, up to one detail: the
parser reads an integer that is not negative as an unsigned one.  The program relies on
this wherever a value goes over NATS.

* `wire`: a value as it comes out at the other end, with `find_wire`.
* `JsonLibrary.RoundTrips`: the library gives a value back.
* `JsonLibrary.single`, `JsonLibrary.reading`: a library that knows the text of one value,
  and one that reads a further text.
-/

namespace HttpDataDiod

open ByteText

namespace JsonValue

mutual

/-- The value as the parser gives it back. -/
def wire : JsonValue → JsonValue
  | .int n => if 0 ≤ n then .uint n.toNat else .int n
  | .array elems => .array (wireElems elems)
  | .object entries => .object (wireEntries entries)
  | .null => .null
  | .bool b => .bool b
  | .uint n => .uint n
  | .float bits => .float bits
  | .string s => .string s

def wireElems : List JsonValue → List JsonValue
  | [] => []
  | v :: vs => v.wire :: wireElems vs

def wireEntries : List (Bytes × JsonValue) → List (Bytes × JsonValue)
  | [] => []
  | (key, v) :: entries => (key, v.wire) :: wireEntries entries

end

@[simp] theorem wire_string (s : Bytes) : (string s).wire = string s := by simp [wire]

@[simp] theorem wire_bool (b : Bool) : (bool b).wire = bool b := by simp [wire]

theorem wireEntries_eq_map (entries : List (Bytes × JsonValue)) :
    wireEntries entries = entries.map fun e => (e.1, e.2.wire) := by
  induction entries with
  | nil => simp [wireEntries]
  | cons e es ih => simp [wireEntries, ih]

theorem wire_object (entries : List (Bytes × JsonValue)) :
    (object entries).wire = object (entries.map fun e => (e.1, e.2.wire)) := by
  rw [wire, wireEntries_eq_map]

/-- The entries of the value at the other end. -/
theorem find_wire (key : Bytes) (j : JsonValue) : j.wire.find key = (j.find key).map wire := by
  cases j with
  | object entries =>
    rw [wire_object]
    induction entries with
    | nil => rfl
    | cons e es ih =>
      rw [List.map_cons, find_cons, find_cons, ih]
      split <;> rfl
  | int n =>
    rw [wire]
    split <;> rfl
  | array elems => rw [wire]; rfl
  | null => rw [wire]; rfl
  | bool b => rw [wire]; rfl
  | uint n => rw [wire]; rfl
  | float bits => rw [wire]; rfl
  | string s => rw [wire]; rfl

theorem isObject_wire (j : JsonValue) : j.wire.isObject = j.isObject := by
  cases j with
  | int n =>
    rw [wire]
    split <;> rfl
  | object entries => rw [wire_object]; rfl
  | array elems => rw [wire]; rfl
  | null => rw [wire]
  | bool b => rw [wire]
  | uint n => rw [wire]
  | float bits => rw [wire]
  | string s => rw [wire]

/-- Nor is an integer, signed or not. -/
theorem safeGetInt_wire (j : JsonValue) (key : Bytes) (fallback : ℤ) :
    j.wire.safeGetInt key fallback = j.safeGetInt key fallback := by
  unfold safeGetInt
  rw [find_wire]
  cases j.find key with
  | none => rfl
  | some v =>
    cases v with
    | int n =>
      rw [Option.map_some, wire]
      by_cases hn : 0 ≤ n
      · rw [if_pos hn]
        simp only [Int.toNat_of_nonneg hn]
      · rw [if_neg hn]
    | object entries => rw [Option.map_some, wire_object]
    | array elems => rw [Option.map_some, wire]
    | null => rw [Option.map_some, wire]
    | bool b => rw [Option.map_some, wire]
    | uint n => rw [Option.map_some, wire]
    | float bits => rw [Option.map_some, wire]
    | string s => rw [Option.map_some, wire]

end JsonValue

namespace JsonLibrary

/-- The library gives the value back. -/
def RoundTrips (lib : JsonLibrary) (j : JsonValue) : Prop :=
  lib.parse (lib.serialize j) = .value j.wire

theorem RoundTrips.parse {lib : JsonLibrary} {j : JsonValue} (h : lib.RoundTrips j) {text : Bytes}
    (hdump : lib.dump j = some text) : lib.parse text = .value j.wire := by
  have hutf8 := lib.allUtf8_of_dump hdump
  rw [lib.dump_of_allUtf8 hutf8] at hdump
  rw [← Option.some.inj hdump]
  exact h

/-- A library that knows the text of one value, and takes every other text to be
malformed. -/
def single (j : JsonValue) (text : Text) : JsonLibrary where
  serialize _ := text.bytes
  parse t := if t = text.bytes then .value j.wire else .parseError ⟨[], rfl⟩
  isValidUtf8_serialize _ _ := text.valid

theorem roundTrips_single (j : JsonValue) (text : Text) : (single j text).RoundTrips j :=
  if_pos rfl

theorem parse_single_of_ne (j : JsonValue) (text : Text) {t : Bytes} (h : t ≠ text.bytes) :
    (single j text).parse t = .parseError ⟨[], rfl⟩ :=
  if_neg h

/-- The library that reads one more text. -/
def reading (lib : JsonLibrary) (text : Bytes) (result : ParseResult) : JsonLibrary :=
  { lib with parse := fun t => if t = text then result else lib.parse t }

theorem parse_reading_self (lib : JsonLibrary) (text : Bytes) (result : ParseResult) :
    (lib.reading text result).parse text = result :=
  if_pos rfl

theorem RoundTrips.reading {lib : JsonLibrary} {j : JsonValue} (h : lib.RoundTrips j)
    {text : Bytes} (hne : lib.serialize j ≠ text) (result : ParseResult) :
    (lib.reading text result).RoundTrips j :=
  (if_neg hne).trans h

/-- The parser refuses a text with a string that is not well formed. -/
def ReadsUtf8 (lib : JsonLibrary) : Prop :=
  ∀ text j, lib.parse text = .value j → j.allUtf8 = true

theorem readsUtf8_single {j : JsonValue} (text : Text) (h : j.wire.allUtf8 = true) :
    (single j text).ReadsUtf8 := by
  intro t j' hparse
  simp only [single] at hparse
  split at hparse
  · rw [← ParseResult.value.inj hparse]
    exact h
  · cases hparse

theorem ReadsUtf8.reading {lib : JsonLibrary} (h : lib.ReadsUtf8) (text : Bytes) {j : JsonValue}
    (hj : j.allUtf8 = true) : (lib.reading text (.value j)).ReadsUtf8 := by
  intro t j' hparse
  simp only [JsonLibrary.reading] at hparse
  split at hparse
  · rw [← ParseResult.value.inj hparse]
    exact hj
  · exact h t j' hparse

end JsonLibrary
end HttpDataDiod
