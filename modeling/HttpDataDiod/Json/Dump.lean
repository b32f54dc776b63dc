import HttpDataDiod.Json.Utf8
import HttpDataDiod.Json.Value

/-!
# Writing a JSON value out

What `nlohmann::json::dump` asks of a value: every string and every key in it is
well-formed UTF-8, or the call throws `type_error.316`.  The text it produces
and the parser are taken from outside, as a `JsonLibrary`.

* `allUtf8`: all strings and keys of a value are well formed.
* `objectOf`: an object built by assignments to its keys, as the program builds
  all of its objects, with `allUtf8_objectOf_iff`.
* `dump`: the text, or the exception.
-/

namespace HttpDataDiod

open ByteText

namespace JsonValue

mutual

/-- Every string and every key in the value is well-formed UTF-8. -/
def allUtf8 : JsonValue → Bool
  | .string s => isValidUtf8 s
  | .array elems => allUtf8Elems elems
  | .object entries => allUtf8Entries entries
  | _ => true

def allUtf8Elems : List JsonValue → Bool
  | [] => true
  | v :: vs => v.allUtf8 && allUtf8Elems vs

def allUtf8Entries : List (Bytes × JsonValue) → Bool
  | [] => true
  | (key, v) :: entries => isValidUtf8 key && v.allUtf8 && allUtf8Entries entries

end

theorem allUtf8Elems_iff {elems : List JsonValue} :
    allUtf8Elems elems = true ↔ ∀ v ∈ elems, v.allUtf8 = true := by
  induction elems with
  | nil => simp [allUtf8Elems]
  | cons v vs ih => simp [allUtf8Elems, ih]

theorem allUtf8Entries_iff {entries : List (Bytes × JsonValue)} :
    allUtf8Entries entries = true ↔
      ∀ e ∈ entries, isValidUtf8 e.1 = true ∧ e.2.allUtf8 = true := by
  induction entries with
  | nil => simp [allUtf8Entries]
  | cons e es ih => simp [allUtf8Entries, ih, and_assoc]

@[simp] theorem allUtf8_string (s : Bytes) : (string s).allUtf8 = isValidUtf8 s := by
  simp [allUtf8]

@[simp] theorem allUtf8_bool (b : Bool) : (bool b).allUtf8 = true := by
  simp [allUtf8]

@[simp] theorem allUtf8_int (n : ℤ) : (int n).allUtf8 = true := by
  simp [allUtf8]

@[simp] theorem allUtf8_uint (n : ℕ) : (uint n).allUtf8 = true := by
  simp [allUtf8]

/-- A string taken out of a well-formed value is well formed. -/
theorem isValidUtf8_safeGetString {j : JsonValue} (h : j.allUtf8 = true) {key fallback : Bytes}
    (hfallback : isValidUtf8 fallback = true) :
    isValidUtf8 (j.safeGetString key fallback) = true := by
  unfold safeGetString
  split
  · rename_i s hfind
    cases j with
    | object entries =>
      obtain ⟨e, he, heq⟩ := Option.map_eq_some_iff.mp hfind
      rw [allUtf8, allUtf8Entries_iff] at h
      have hvalue := (h e (List.mem_of_find?_eq_some he)).2
      rwa [heq, allUtf8_string] at hvalue
    | _ => exact absurd hfind (by simp [find])
  · exact hfallback

/-! ## The entries of an object -/

theorem keyLt_iff {a b : Bytes} : keyLt a b = true ↔ a < b := by
  induction a generalizing b with
  | nil => cases b <;> simp [keyLt]
  | cons x a ih =>
    cases b with
    | nil => simp [keyLt]
    | cons y b => simp [keyLt, ih, List.cons_lt_cons_iff]

/-- The keys of an object are in order, each once. -/
def KeysSorted (entries : List (Bytes × JsonValue)) : Prop :=
  entries.Pairwise fun a b => a.1 < b.1

theorem mem_setEntry_self (key : Bytes) (v : JsonValue) (es : List (Bytes × JsonValue)) :
    (key, v) ∈ setEntry key v es := by
  induction es with
  | nil => simp [setEntry]
  | cons e es ih =>
    rw [setEntry]
    split
    · exact List.mem_cons_self
    · split
      · exact List.mem_cons_self
      · exact List.mem_cons_of_mem e ih

theorem mem_setEntry_of_ne {key : Bytes} {v : JsonValue} {e : Bytes × JsonValue}
    {es : List (Bytes × JsonValue)} (he : e ∈ es) (hkey : e.1 ≠ key) :
    e ∈ setEntry key v es := by
  induction es with
  | nil => exact absurd he List.not_mem_nil
  | cons e' es ih =>
    rw [setEntry]
    rcases List.mem_cons.mp he with rfl | he
    · rw [if_neg hkey]
      split <;> simp
    · split
      · exact List.mem_cons_of_mem _ he
      · split
        · exact List.mem_cons_of_mem _ (List.mem_cons_of_mem _ he)
        · exact List.mem_cons_of_mem _ (ih he)

theorem eq_or_mem_of_mem_setEntry {key : Bytes} {v : JsonValue} {e : Bytes × JsonValue}
    {es : List (Bytes × JsonValue)} (he : e ∈ setEntry key v es) : e = (key, v) ∨ e ∈ es := by
  induction es with
  | nil => exact Or.inl (by simpa [setEntry] using he)
  | cons e' es ih =>
    rw [setEntry] at he
    split at he
    · rcases List.mem_cons.mp he with he | he
      · exact Or.inl he
      · exact Or.inr (List.mem_cons_of_mem _ he)
    · split at he
      · rcases List.mem_cons.mp he with he | he
        · exact Or.inl he
        · exact Or.inr he
      · rcases List.mem_cons.mp he with rfl | he
        · exact Or.inr List.mem_cons_self
        · exact (ih he).imp_right (List.mem_cons_of_mem _)

theorem keysSorted_setEntry (key : Bytes) (v : JsonValue) {es : List (Bytes × JsonValue)}
    (h : KeysSorted es) : KeysSorted (setEntry key v es) := by
  induction es with
  | nil => exact List.pairwise_singleton _ _
  | cons e es ih =>
    obtain ⟨he, hes⟩ := List.pairwise_cons.mp h
    rw [setEntry]
    split
    · rename_i heq
      exact List.pairwise_cons.mpr ⟨fun e' he' => heq ▸ he e' he', hes⟩
    · rename_i hne
      split
      · rename_i hlt
        rw [keyLt_iff] at hlt
        refine List.pairwise_cons.mpr ⟨fun e' he' => ?_, h⟩
        rcases List.mem_cons.mp he' with rfl | he'
        · exact hlt
        · exact Std.lt_trans hlt (he e' he')
      · rename_i hlt
        rw [keyLt_iff] at hlt
        refine List.pairwise_cons.mpr ⟨fun e' he' => ?_, ih hes⟩
        rcases eq_or_mem_of_mem_setEntry he' with rfl | he'
        · exact Std.lt_of_le_of_ne (List.not_lt.mp hlt) hne
        · exact he e' he'

/-- A key past all others comes last. -/
theorem setEntry_of_forall_lt {key : Bytes} {v : JsonValue} {es : List (Bytes × JsonValue)}
    (h : ∀ e ∈ es, e.1 < key) : setEntry key v es = es ++ [(key, v)] := by
  induction es with
  | nil => rfl
  | cons e es ih =>
    obtain ⟨he, hes⟩ := List.forall_mem_cons.mp h
    have hkey : ¬ keyLt key e.1 = true := fun hlt =>
      Std.lt_irrefl (Std.lt_trans he (keyLt_iff.mp hlt))
    rw [setEntry, if_neg (Std.ne_of_lt he), if_neg hkey, ih hes, List.cons_append]

/-- The entries after a list of assignments `operator[](key) = value`. -/
def assign (entries pairs : List (Bytes × JsonValue)) : List (Bytes × JsonValue) :=
  pairs.foldl (fun es p => setEntry p.1 p.2 es) entries

/-- The value that a list of assignments to an empty object builds. -/
def objectOf (pairs : List (Bytes × JsonValue)) : JsonValue := .object (assign [] pairs)

theorem keysSorted_assign {entries : List (Bytes × JsonValue)} (h : KeysSorted entries)
    (pairs : List (Bytes × JsonValue)) : KeysSorted (assign entries pairs) := by
  induction pairs generalizing entries with
  | nil => exact h
  | cons p ps ih => exact ih (keysSorted_setEntry p.1 p.2 h)

theorem mem_or_mem_of_mem_assign {entries pairs : List (Bytes × JsonValue)}
    {e : Bytes × JsonValue} (he : e ∈ assign entries pairs) : e ∈ entries ∨ e ∈ pairs := by
  induction pairs generalizing entries with
  | nil => exact Or.inl he
  | cons p ps ih =>
    rcases @ih (setEntry p.1 p.2 entries) he with he | he
    · rcases eq_or_mem_of_mem_setEntry he with rfl | he
      · exact Or.inr List.mem_cons_self
      · exact Or.inl he
    · exact Or.inr (List.mem_cons_of_mem p he)

/-- An entry stays when no later assignment is to its key. -/
theorem mem_assign_of_not_mem_keys {entries pairs : List (Bytes × JsonValue)}
    {e : Bytes × JsonValue} (he : e ∈ entries) (hkey : e.1 ∉ pairs.map Prod.fst) :
    e ∈ assign entries pairs := by
  induction pairs generalizing entries with
  | nil => exact he
  | cons p ps ih =>
    rw [List.map_cons, List.mem_cons, not_or] at hkey
    exact ih (mem_setEntry_of_ne he hkey.1) hkey.2

/-- Of assignments to different keys all stay. -/
theorem mem_assign_of_mem {entries pairs : List (Bytes × JsonValue)}
    (hnodup : (pairs.map Prod.fst).Nodup) {p : Bytes × JsonValue} (hp : p ∈ pairs) :
    p ∈ assign entries pairs := by
  induction pairs generalizing entries with
  | nil => exact absurd hp List.not_mem_nil
  | cons q ps ih =>
    obtain ⟨hq, hps⟩ := List.nodup_cons.mp hnodup
    rcases List.mem_cons.mp hp with rfl | hp
    · show p ∈ assign (setEntry p.1 p.2 entries) ps
      exact mem_assign_of_not_mem_keys (mem_setEntry_self _ _ _) hq
    · exact ih hps hp

/-! ## Looking an entry up -/

theorem find_cons (key : Bytes) (e : Bytes × JsonValue) (es : List (Bytes × JsonValue)) :
    find key (.object (e :: es)) = if e.1 = key then some e.2 else find key (.object es) := by
  show ((e :: es).find? fun e => e.1 = key).map Prod.snd = _
  rw [List.find?_cons]
  by_cases h : e.1 = key
  · simp [h]
  · simp [h, find]

theorem find_setEntry_self (key : Bytes) (v : JsonValue) (es : List (Bytes × JsonValue)) :
    find key (.object (setEntry key v es)) = some v := by
  induction es with
  | nil => simp [setEntry, find]
  | cons e es ih =>
    rw [setEntry]
    split
    · rw [find_cons, if_pos rfl]
    · rename_i hne
      split
      · rw [find_cons, if_pos rfl]
      · rw [find_cons, if_neg hne, ih]

theorem find_setEntry_of_ne {key key' : Bytes} (hne : key ≠ key') (v : JsonValue)
    (es : List (Bytes × JsonValue)) :
    find key (.object (setEntry key' v es)) = find key (.object es) := by
  induction es with
  | nil =>
    rw [setEntry, find_cons, if_neg fun h => hne h.symm]
  | cons e es ih =>
    rw [setEntry]
    split
    · rename_i heq
      rw [find_cons, find_cons, if_neg fun h => hne h.symm, if_neg fun h => hne (h.symm.trans heq)]
    · split
      · rw [find_cons, if_neg fun h => hne h.symm]
      · rw [find_cons, find_cons, ih]

/-- An entry that no later assignment is to. -/
theorem find_assign_of_not_mem {key : Bytes} {entries pairs : List (Bytes × JsonValue)}
    (hkey : key ∉ pairs.map Prod.fst) :
    find key (.object (assign entries pairs)) = find key (.object entries) := by
  induction pairs generalizing entries with
  | nil => rfl
  | cons p ps ih =>
    rw [List.map_cons, List.mem_cons, not_or] at hkey
    show find key (.object (assign (setEntry p.1 p.2 entries) ps)) = _
    rw [ih hkey.2, find_setEntry_of_ne hkey.1]

/-- Of assignments to different keys each one is found. -/
theorem find_assign_of_mem {entries pairs : List (Bytes × JsonValue)}
    (hnodup : (pairs.map Prod.fst).Nodup) {key : Bytes} {v : JsonValue} (hp : (key, v) ∈ pairs) :
    find key (.object (assign entries pairs)) = some v := by
  induction pairs generalizing entries with
  | nil => exact absurd hp List.not_mem_nil
  | cons q ps ih =>
    obtain ⟨hq, hps⟩ := List.nodup_cons.mp hnodup
    show find key (.object (assign (setEntry q.1 q.2 entries) ps)) = _
    rcases List.mem_cons.mp hp with rfl | hp
    · rw [find_assign_of_not_mem hq, find_setEntry_self]
    · exact ih hps hp

/-- The keys after assignments. -/
theorem mem_keys_assign {key : Bytes} {entries pairs : List (Bytes × JsonValue)} :
    key ∈ (assign entries pairs).map Prod.fst ↔
      key ∈ entries.map Prod.fst ∨ key ∈ pairs.map Prod.fst := by
  constructor
  · intro h
    obtain ⟨e, he, rfl⟩ := List.mem_map.mp h
    rcases mem_or_mem_of_mem_assign he with he | he
    · exact Or.inl (List.mem_map_of_mem he)
    · exact Or.inr (List.mem_map_of_mem he)
  · intro h
    by_cases hkey : key ∈ pairs.map Prod.fst
    · clear h
      induction pairs generalizing entries with
      | nil => exact absurd hkey List.not_mem_nil
      | cons p ps ih =>
        by_cases hps : key ∈ ps.map Prod.fst
        · exact ih hps
        · rw [List.map_cons, List.mem_cons] at hkey
          obtain rfl := hkey.resolve_right hps
          have hmem : p ∈ assign (setEntry p.1 p.2 entries) ps :=
            mem_assign_of_not_mem_keys (mem_setEntry_self p.1 p.2 entries) hps
          exact List.mem_map_of_mem hmem
    · obtain ⟨e, he, rfl⟩ := List.mem_map.mp (h.resolve_right hkey)
      exact List.mem_map_of_mem (mem_assign_of_not_mem_keys he hkey)

/-- The key and the value can be written out. -/
def EntryUtf8 (e : Bytes × JsonValue) : Prop := isValidUtf8 e.1 = true ∧ e.2.allUtf8 = true

theorem entryUtf8_mk {key : Bytes} {v : JsonValue} (hkey : isValidUtf8 key = true)
    (hv : v.allUtf8 = true) : EntryUtf8 (key, v) := ⟨hkey, hv⟩

theorem entryUtf8_string {key s : Bytes} (hkey : isValidUtf8 key = true)
    (hs : isValidUtf8 s = true) : EntryUtf8 (key, .string s) :=
  entryUtf8_mk hkey (by rw [allUtf8_string, hs])

theorem allUtf8_objectOf {pairs : List (Bytes × JsonValue)} (h : ∀ p ∈ pairs, EntryUtf8 p) :
    (objectOf pairs).allUtf8 = true := by
  rw [objectOf, allUtf8, allUtf8Entries_iff]
  intro e he
  exact h e ((mem_or_mem_of_mem_assign he).resolve_left List.not_mem_nil)

/-- **What an object holds.**  Of assignments to different keys, each one has to
be well formed. -/
theorem allUtf8_objectOf_iff {pairs : List (Bytes × JsonValue)}
    (hnodup : (pairs.map Prod.fst).Nodup) :
    (objectOf pairs).allUtf8 = true ↔ ∀ p ∈ pairs, EntryUtf8 p := by
  refine ⟨fun h p hp => ?_, allUtf8_objectOf⟩
  rw [objectOf, allUtf8, allUtf8Entries_iff] at h
  exact h p (mem_assign_of_mem hnodup hp)

end JsonValue

/-- An object: entries with different keys, in the order of the keys. -/
structure JsonObject where
  entries : List (Bytes × JsonValue)
  sorted : JsonValue.KeysSorted entries

namespace JsonObject

/-- The empty object. -/
def empty : JsonObject := ⟨[], List.Pairwise.nil⟩

/-- The object after a list of assignments. -/
def assign (o : JsonObject) (pairs : List (Bytes × JsonValue)) : JsonObject :=
  ⟨JsonValue.assign o.entries pairs, JsonValue.keysSorted_assign o.sorted pairs⟩

/-- The object a list of assignments builds. -/
def of (pairs : List (Bytes × JsonValue)) : JsonObject := empty.assign pairs

/-- All keys and values can be written out. -/
def Utf8 (o : JsonObject) : Prop := ∀ e ∈ o.entries, JsonValue.EntryUtf8 e

theorem nodup_keys (o : JsonObject) : (o.entries.map Prod.fst).Nodup := by
  rw [List.nodup_iff_pairwise_ne, List.pairwise_map]
  refine o.sorted.imp ?_
  intro a b hlt heq
  rw [heq] at hlt
  exact Std.lt_irrefl hlt

theorem mem_entries_of {pairs : List (Bytes × JsonValue)} (hnodup : (pairs.map Prod.fst).Nodup)
    {p : Bytes × JsonValue} (hp : p ∈ pairs) : p ∈ (of pairs).entries :=
  JsonValue.mem_assign_of_mem hnodup hp

theorem mem_of_mem_entries_of {pairs : List (Bytes × JsonValue)} {e : Bytes × JsonValue}
    (he : e ∈ (of pairs).entries) : e ∈ pairs :=
  (JsonValue.mem_or_mem_of_mem_assign he).resolve_left List.not_mem_nil

theorem mem_entries_assign {o : JsonObject} {pairs : List (Bytes × JsonValue)}
    {e : Bytes × JsonValue} (he : e ∈ o.entries) (hkey : e.1 ∉ pairs.map Prod.fst) :
    e ∈ (o.assign pairs).entries := JsonValue.mem_assign_of_not_mem_keys he hkey

/-- The entry of a key. -/
def find (o : JsonObject) (key : Bytes) : Option JsonValue :=
  JsonValue.find key (.object o.entries)

theorem find_assign_of_mem {o : JsonObject} {pairs : List (Bytes × JsonValue)}
    (hnodup : (pairs.map Prod.fst).Nodup) {key : Bytes} {v : JsonValue} (hp : (key, v) ∈ pairs) :
    (o.assign pairs).find key = some v := JsonValue.find_assign_of_mem hnodup hp

theorem find_assign_of_not_mem {o : JsonObject} {pairs : List (Bytes × JsonValue)} {key : Bytes}
    (hkey : key ∉ pairs.map Prod.fst) : (o.assign pairs).find key = o.find key :=
  JsonValue.find_assign_of_not_mem hkey

theorem find_of_of_mem {pairs : List (Bytes × JsonValue)} (hnodup : (pairs.map Prod.fst).Nodup)
    {key : Bytes} {v : JsonValue} (hp : (key, v) ∈ pairs) : (of pairs).find key = some v :=
  find_assign_of_mem hnodup hp

theorem find_of_of_not_mem {pairs : List (Bytes × JsonValue)} {key : Bytes}
    (hkey : key ∉ pairs.map Prod.fst) : (of pairs).find key = none :=
  find_assign_of_not_mem hkey

theorem utf8_empty : empty.Utf8 := fun _ he => absurd he List.not_mem_nil

theorem Utf8.assign {o : JsonObject} (ho : o.Utf8) {pairs : List (Bytes × JsonValue)}
    (h : ∀ p ∈ pairs, JsonValue.EntryUtf8 p) : (o.assign pairs).Utf8 := fun e he =>
  (JsonValue.mem_or_mem_of_mem_assign he).elim (ho e) (h e)

theorem utf8_of {pairs : List (Bytes × JsonValue)} (h : ∀ p ∈ pairs, JsonValue.EntryUtf8 p) :
    (of pairs).Utf8 := utf8_empty.assign h

/-- Of assignments to different keys each one has to be well formed. -/
theorem Utf8.of_assign {o : JsonObject} {pairs : List (Bytes × JsonValue)}
    (h : (o.assign pairs).Utf8) (hnodup : (pairs.map Prod.fst).Nodup)
    {p : Bytes × JsonValue} (hp : p ∈ pairs) : JsonValue.EntryUtf8 p :=
  h p (JsonValue.mem_assign_of_mem hnodup hp)

/-- Assignments to different keys that all differ from the keys so far: the object can be
written out when both parts can. -/
theorem utf8_assign_iff {o : JsonObject} {pairs : List (Bytes × JsonValue)}
    (hnodup : (pairs.map Prod.fst).Nodup)
    (hdisjoint : ∀ e ∈ o.entries, e.1 ∉ pairs.map Prod.fst) :
    (o.assign pairs).Utf8 ↔ o.Utf8 ∧ ∀ p ∈ pairs, JsonValue.EntryUtf8 p := by
  constructor
  · intro h
    refine ⟨fun e he => ?_, fun p hp => h.of_assign hnodup hp⟩
    exact h e (JsonValue.mem_assign_of_not_mem_keys he (hdisjoint e he))
  · rintro ⟨ho, hpairs⟩
    exact ho.assign hpairs

theorem allUtf8_iff (o : JsonObject) : (JsonValue.object o.entries).allUtf8 = true ↔ o.Utf8 := by
  rw [JsonValue.allUtf8, JsonValue.allUtf8Entries_iff]
  rfl

end JsonObject

/-! ## The library -/

/-- What `json::parse` comes to: a value; a `parse_error`; or an `out_of_range`
for a number too large, which is no `parse_error`. -/
inductive ParseResult where
  | value (j : JsonValue)
  | parseError (what : Text)
  | outOfRange

/-- The serialiser and the parser.  Of a value that can be written out, the text is
well formed. -/
structure JsonLibrary where
  serialize : JsonValue → Bytes
  parse : Bytes → ParseResult
  isValidUtf8_serialize : ∀ j, j.allUtf8 = true → isValidUtf8 (serialize j) = true

namespace JsonLibrary

variable (lib : JsonLibrary)

/-- `dump`; `none` is the exception `type_error.316`. -/
def dump (j : JsonValue) : Option Bytes :=
  if j.allUtf8 then some (lib.serialize j) else none

/-- `json::accept`. -/
def accept (text : Bytes) : Bool :=
  match lib.parse text with
  | .value _ => true
  | _ => false

/-- `dump` throws exactly on the values with a string that is not well formed. -/
theorem isSome_dump (j : JsonValue) : (lib.dump j).isSome = j.allUtf8 := by
  unfold dump
  split <;> simp_all

theorem dump_of_allUtf8 {j : JsonValue} (h : j.allUtf8 = true) :
    lib.dump j = some (lib.serialize j) := if_pos h

theorem allUtf8_of_dump {j : JsonValue} {text : Bytes} (h : lib.dump j = some text) :
    j.allUtf8 = true := by
  rw [← lib.isSome_dump, h]
  rfl

end JsonLibrary
end HttpDataDiod
