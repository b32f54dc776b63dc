import HttpDataDiod.Json.Grammar
import HttpDataDiod.Json.RoundTrip
import HttpDataDiod.Json.Serializer

/-!
# The library as it is

The serialiser and the parser of `nlohmann/json.hpp`, put together as the library that the
rest of the development takes as given.  What is left open are the conversions of
floating-point numbers and the texts of the exceptions.

* `Storable`: the values that the library can hold and give back.
* `Plain`: the shape of the envelopes, with `Plain.storable`: written out, they are given back.
* `lexes_serialize`, `derives_tokensOf`: the text of such a value is a text of the language.
* `parseText_serialize`: writing and reading give the value back.
* `printable_serialize`: the text has no control character, so it is one line.
* `storable_of_parseText`: whatever is read can be written again.
* `nlohmann`: the library, with `roundTrips_nlohmann`.
-/

namespace HttpDataDiod

open ByteText Lexer SaxParser Serializer

namespace JsonValue

mutual

/-- The value can be held: integers of 64 bits, numbers of the given kind, well-formed
strings, objects with their keys in order. -/
def Storable (F : UInt64 → Prop) : JsonValue → Prop
  | .null | .bool _ => True
  | .int n => -2 ^ 63 ≤ n ∧ n < 2 ^ 63
  | .uint n => n < 2 ^ 64
  | .float bits => F bits
  | .string s => isValidUtf8 s = true
  | .array elems => StorableElems F elems
  | .object entries => KeysSorted entries ∧ StorableEntries F entries

def StorableElems (F : UInt64 → Prop) : List JsonValue → Prop
  | [] => True
  | v :: elems => Storable F v ∧ StorableElems F elems

def StorableEntries (F : UInt64 → Prop) : List (Bytes × JsonValue) → Prop
  | [] => True
  | (key, v) :: entries => isValidUtf8 key = true ∧ Storable F v ∧ StorableEntries F entries

end

theorem storableElems_iff {F : UInt64 → Prop} {elems : List JsonValue} :
    StorableElems F elems ↔ ∀ v ∈ elems, Storable F v := by
  induction elems with
  | nil => simp [StorableElems]
  | cons v elems ih => simp [StorableElems, ih]

theorem storableEntries_iff {F : UInt64 → Prop} {entries : List (Bytes × JsonValue)} :
    StorableEntries F entries ↔ ∀ e ∈ entries, isValidUtf8 e.1 = true ∧ Storable F e.2 := by
  induction entries with
  | nil => simp [StorableEntries]
  | cons e entries ih => simp [StorableEntries, ih, and_assoc]

/-- Values that are built by the program: strings, truth values, integers of 64 bits and
numbers of the given kind, in arrays and objects. -/
inductive Plain (F : UInt64 → Prop) : JsonValue → Prop
  | null : Plain F .null
  | bool (b : Bool) : Plain F (.bool b)
  | string (s : Bytes) : Plain F (.string s)
  | int {n : ℤ} : -2 ^ 63 ≤ n → n < 2 ^ 63 → Plain F (.int n)
  | uint {n : ℕ} : n < 2 ^ 64 → Plain F (.uint n)
  | float {bits : UInt64} : F bits → Plain F (.float bits)
  | array {elems : List JsonValue} : (∀ v ∈ elems, Plain F v) → Plain F (.array elems)
  | object (o : JsonObject) : (∀ e ∈ o.entries, Plain F e.2) → Plain F (.object o.entries)

section Plain

variable {F : UInt64 → Prop}

/-- **A plain value that can be written out** can be held. -/
theorem Plain.storable {v : JsonValue} (h : v.Plain F) (hutf8 : v.allUtf8 = true) :
    v.Storable F := by
  induction h with
  | null => rw [Storable]; trivial
  | bool b => rw [Storable]; trivial
  | string s =>
    rw [Storable]
    rwa [allUtf8_string] at hutf8
  | int hlow hhigh => rw [Storable]; exact ⟨hlow, hhigh⟩
  | uint hn => rw [Storable]; exact hn
  | float hbits => rw [Storable]; exact hbits
  | array _ ih =>
    rw [Storable]
    rw [allUtf8, allUtf8Elems_iff] at hutf8
    exact storableElems_iff.mpr fun v hv => ih v hv (hutf8 v hv)
  | object o _ ih =>
    rw [Storable]
    have hentries := (JsonObject.allUtf8_iff o).mp hutf8
    refine ⟨o.sorted, storableEntries_iff.mpr fun e he => ?_⟩
    obtain ⟨hkey, hvalue⟩ := hentries e he
    exact ⟨hkey, ih e he hvalue⟩

/-- An object with plain values. -/
def PlainObject (F : UInt64 → Prop) (o : JsonObject) : Prop := ∀ e ∈ o.entries, e.2.Plain F

theorem PlainObject.plain {o : JsonObject} (h : PlainObject F o) : Plain F (.object o.entries) :=
  .object o h

/-- The object of plain assignments to a plain object is plain. -/
theorem PlainObject.assign {o : JsonObject} (ho : PlainObject F o)
    {pairs : List (Bytes × JsonValue)} (hpairs : ∀ p ∈ pairs, p.2.Plain F) :
    PlainObject F (o.assign pairs) := fun e he =>
  (mem_or_mem_of_mem_assign he).elim (ho e) (hpairs e)

theorem plainObject_of {pairs : List (Bytes × JsonValue)} (hpairs : ∀ p ∈ pairs, p.2.Plain F) :
    PlainObject F (JsonObject.of pairs) := fun e he =>
  hpairs e (JsonObject.mem_of_mem_entries_of he)

theorem plain_objectOf {pairs : List (Bytes × JsonValue)} (hpairs : ∀ p ∈ pairs, p.2.Plain F) :
    (objectOf pairs).Plain F := (plainObject_of hpairs).plain

end Plain

mutual

theorem Storable.mono {F G : UInt64 → Prop} (hFG : ∀ bits, F bits → G bits) :
    ∀ {v : JsonValue}, Storable F v → Storable G v
  | .null, _ => by rw [Storable]; trivial
  | .bool _, _ => by rw [Storable]; trivial
  | .int _, h => by rw [Storable] at h ⊢; exact h
  | .uint _, h => by rw [Storable] at h ⊢; exact h
  | .float bits, h => by rw [Storable] at h ⊢; exact hFG bits h
  | .string _, h => by rw [Storable] at h ⊢; exact h
  | .array elems, h => by rw [Storable] at h ⊢; exact StorableElems.mono hFG h
  | .object entries, h => by
    rw [Storable] at h ⊢
    exact ⟨h.1, StorableEntries.mono hFG h.2⟩

theorem StorableElems.mono {F G : UInt64 → Prop} (hFG : ∀ bits, F bits → G bits) :
    ∀ {elems : List JsonValue}, StorableElems F elems → StorableElems G elems
  | [], _ => by rw [StorableElems]; trivial
  | v :: elems, h => by
    rw [StorableElems] at h ⊢
    exact ⟨Storable.mono hFG h.1, StorableElems.mono hFG h.2⟩

theorem StorableEntries.mono {F G : UInt64 → Prop} (hFG : ∀ bits, F bits → G bits) :
    ∀ {entries : List (Bytes × JsonValue)}, StorableEntries F entries → StorableEntries G entries
  | [], _ => by rw [StorableEntries]; trivial
  | (key, v) :: entries, h => by
    rw [StorableEntries] at h ⊢
    exact ⟨h.1, Storable.mono hFG h.2.1, StorableEntries.mono hFG h.2.2⟩

end

mutual

/-- A value that can be held can be written out. -/
theorem allUtf8_of_storable {F : UInt64 → Prop} :
    ∀ {v : JsonValue}, Storable F v → v.allUtf8 = true
  | .null, _ => rfl
  | .bool _, _ => rfl
  | .int _, _ => rfl
  | .uint _, _ => rfl
  | .float _, _ => rfl
  | .string s, h => by rw [Storable] at h; rw [allUtf8, h]
  | .array elems, h => by
    rw [Storable] at h
    rw [allUtf8, allUtf8Elems_of_storable h]
  | .object entries, h => by
    rw [Storable] at h
    rw [allUtf8, allUtf8Entries_of_storable h.2]

theorem allUtf8Elems_of_storable {F : UInt64 → Prop} :
    ∀ {elems : List JsonValue}, StorableElems F elems → allUtf8Elems elems = true
  | [], _ => rfl
  | v :: elems, h => by
    rw [StorableElems] at h
    rw [allUtf8Elems, allUtf8_of_storable h.1, allUtf8Elems_of_storable h.2, Bool.true_and]

theorem allUtf8Entries_of_storable {F : UInt64 → Prop} :
    ∀ {entries : List (Bytes × JsonValue)}, StorableEntries F entries →
      allUtf8Entries entries = true
  | [], _ => rfl
  | (key, v) :: entries, h => by
    rw [StorableEntries] at h
    rw [allUtf8Entries, h.1, allUtf8_of_storable h.2.1, allUtf8Entries_of_storable h.2.2,
      Bool.true_and, Bool.true_and]

end

/-! ## The text of a value -/

mutual

/-- The tokens of the text of a value. -/
def tokensOf : JsonValue → List Token
  | .null => [.literalNull]
  | .bool true => [.literalTrue]
  | .bool false => [.literalFalse]
  | .int n => if 0 ≤ n then [.unsigned n.toNat] else [.integer n]
  | .uint n => [.unsigned n]
  | .float bits => [.float bits]
  | .string s => [.string s]
  | .array elems => .beginArray :: tokensOfElems elems ++ [.endArray]
  | .object entries => .beginObject :: tokensOfEntries entries ++ [.endObject]

def tokensOfElems : List JsonValue → List Token
  | [] => []
  | v :: elems =>
    tokensOf v ++ (if elems.isEmpty then [] else .valueSeparator :: tokensOfElems elems)

def tokensOfEntries : List (Bytes × JsonValue) → List Token
  | [] => []
  | (key, v) :: entries =>
    .string key :: .nameSeparator :: tokensOf v ++
      (if entries.isEmpty then [] else .valueSeparator :: tokensOfEntries entries)

end

/-- Assignments to keys in order build the object of these entries. -/
theorem assign_of_keysSorted {entries : List (Bytes × JsonValue)} (h : KeysSorted entries) :
    assign [] entries = entries := by
  have hall : ∀ before, KeysSorted (before ++ entries) →
      assign before entries = before ++ entries := by
    clear h
    induction entries with
    | nil => exact fun before _ => (List.append_nil before).symm
    | cons e entries ih =>
      intro before h
      have hbefore : ∀ e' ∈ before, e'.1 < e.1 := fun e' he' =>
        (List.pairwise_append.mp h).2.2 e' he' e List.mem_cons_self
      have hmore := ih (before ++ [e]) (by rwa [List.append_assoc])
      rw [List.append_assoc] at hmore
      rw [assign, List.foldl_cons, setEntry_of_forall_lt hbefore]
      exact hmore
  exact hall [] h

theorem keysSorted_wireEntries {entries : List (Bytes × JsonValue)} (h : KeysSorted entries) :
    KeysSorted (wireEntries entries) := by
  rw [wireEntries_eq_map, KeysSorted, List.pairwise_map]
  exact h

variable (fmt : FloatText)

mutual

/-- **The tokens of a value are derived by the grammar**, with the value as it comes out at
the other end. -/
theorem derives_tokensOf : ∀ {v : JsonValue}, Storable fmt.Exact v → Derives (tokensOf v) v.wire
  | .null, _ => by rw [wire]; exact .null
  | .bool true, _ => by rw [wire]; exact .true
  | .bool false, _ => by rw [wire]; exact .false
  | .int n, _ => by
    rw [wire, tokensOf]
    split
    · exact .unsigned _
    · exact .integer n
  | .uint n, _ => by rw [wire]; exact .unsigned n
  | .float bits, h => by
    rw [Storable] at h
    rw [wire]
    exact .float h.finite
  | .string s, _ => by rw [wire]; exact .string s
  | .array [], _ => by rw [wire, wireElems]; exact .emptyArray
  | .object [], _ => by rw [wire, wireEntries]; exact .emptyObject
  | .array (v :: elems), h => by
    rw [Storable] at h
    rw [wire, tokensOf]
    exact .array (derivesElems_tokensOf (List.cons_ne_nil _ _) h)
  | .object (e :: entries), h => by
    rw [Storable] at h
    rw [wire, tokensOf, ← assign_of_keysSorted (keysSorted_wireEntries h.1)]
    exact .object (derivesMembers_tokensOf (List.cons_ne_nil _ _) h.2)

theorem derivesElems_tokensOf : ∀ {elems : List JsonValue}, elems ≠ [] →
    StorableElems fmt.Exact elems → DerivesElems (tokensOfElems elems) (wireElems elems)
  | [v], _, h => by
    rw [StorableElems] at h
    rw [tokensOfElems, wireElems, wireElems]
    simp only [List.isEmpty_nil, if_true, List.append_nil]
    exact .one (derives_tokensOf h.1)
  | v :: w :: elems, _, h => by
    rw [StorableElems] at h
    rw [tokensOfElems, wireElems]
    exact .cons (derives_tokensOf h.1) (derivesElems_tokensOf (List.cons_ne_nil _ _) h.2)

theorem derivesMembers_tokensOf : ∀ {entries : List (Bytes × JsonValue)}, entries ≠ [] →
    StorableEntries fmt.Exact entries →
      DerivesMembers (tokensOfEntries entries) (wireEntries entries)
  | [(key, v)], _, h => by
    rw [StorableEntries] at h
    rw [tokensOfEntries, wireEntries, wireEntries]
    simp only [List.isEmpty_nil, if_true, List.append_nil]
    exact .one key (derives_tokensOf h.2.1)
  | (key, v) :: e :: entries, _, h => by
    rw [StorableEntries] at h
    rw [tokensOfEntries, wireEntries]
    exact .cons key (derives_tokensOf h.2.1) (derivesMembers_tokensOf (List.cons_ne_nil _ _) h.2.2)

end

/-! ## Reading the text -/

theorem scan_structural {c : UInt8} {token : Token} (h : structural c = some token)
    (hc : isWhitespace c = false) (s : Bytes) : scan fmt (c :: s) = (token, s) := by
  rw [scan_cons fmt hc, scanToken, h]

theorem scan_quoted {s : Bytes} (hs : isValidUtf8 s = true) (rest : Bytes) :
    scan fmt (quoted s ++ rest) = (.string s, rest) := by
  have htext : quoted s ++ rest = 34 :: (escaped s ++ 34 :: rest) := by simp [quoted]
  have hstructural : structural 34 = none := by decide
  rw [htext, scan_cons fmt (by decide), scanToken, hstructural]
  simp only
  rw [if_neg (by decide), if_neg (by decide), if_neg (by decide), if_pos trivial,
    scanString_escaped hs rest]

/-- The first byte of a number is no other token's. -/
theorem scan_number {text rest : Bytes} {type : NumberType} (hrest : EndsNumber rest)
    (h : scanNumber text = some (type, text, [])) :
    scan fmt (text ++ rest) = (convertNumber fmt type text, rest) := by
  have happend := scanNumber_append hrest h
  obtain ⟨c, s', text', state, rfl, -, hstart, -⟩ := exists_of_scanNumber h
  have hc : c = 45 ∨ isDigit c = true := by
    unfold numberStart at hstart
    split_ifs at hstart with hminus hzero hdigit
    · exact .inl hminus
    · exact .inr (by rw [hzero]; decide)
    · exact .inr hdigit
  have hplain := forall_byte (P := fun c _ => c = 45 ∨ isDigit c = true →
    isWhitespace c = false ∧ structural c = none ∧ c ≠ 116 ∧ c ≠ 102 ∧ c ≠ 110 ∧ c ≠ 34)
    (by decide +kernel) c hc
  obtain ⟨hwhite, hstructural, htrue, hfalse, hnull, hquote⟩ := hplain
  rw [List.cons_append] at happend ⊢
  rw [scan_cons fmt hwhite, scanToken, hstructural]
  simp only
  rw [if_neg htrue, if_neg hfalse, if_neg hnull, if_neg hquote, if_pos hc, happend]

theorem scan_literal {c : UInt8} {literalText : Bytes} {token : Token}
    (h : ∀ s, scanToken fmt c s = scanLiteral literalText token s) (hc : isWhitespace c = false)
    (rest : Bytes) : scan fmt (c :: (literalText ++ rest)) = (token, rest) := by
  rw [scan_cons fmt hc, h, scanLiteral, if_pos (List.prefix_append _ _), List.drop_left]

/-- An integer is read as an unsigned one when it is not negative. -/
theorem scan_dumpInteger {n : ℤ} (hlo : -2 ^ 63 ≤ n) (hhi : n < 2 ^ 64) {rest : Bytes}
    (hrest : EndsNumber rest) :
    scan fmt (dumpInteger n ++ rest) =
      (if 0 ≤ n then .unsigned n.toNat else .integer n, rest) := by
  rw [dumpInteger_eq_decimalInt, decimalInt]
  by_cases hn : 0 ≤ n
  · rw [if_neg (by omega), if_pos hn, scan_number fmt hrest (scanNumber_decimal n.natAbs),
      convertNumber, parseIntegerUnsigned_decimal (by omega)]
    simp only [show n.natAbs = n.toNat by omega]
  · rw [if_pos (by omega), if_neg hn, scan_number fmt hrest (scanNumber_minus_decimal (by omega)),
      convertNumber, parseIntegerSigned_decimal (by omega)]
    simp only [show -(n.natAbs : ℤ) = n by omega]

theorem lexes_single {s rest : Bytes} {token : Token} (h : scan fmt s = (token, rest)) :
    Lexes fmt s [token] rest := .cons h (.nil rest)

/-- What may follow a value in the text of another one. -/
theorem endsNumber_of_mem {c : UInt8} (hc : c = 44 ∨ c = 93 ∨ c = 125) (s : Bytes) :
    EndsNumber (c :: s) := by
  refine endsNumber_cons s ?_
  rcases hc with rfl | rfl | rfl <;> decide

variable {fmt}

mutual

/-- **The text of a value is its tokens**, in front of anything that cannot go on with a
number. -/
theorem lexes_serialize : ∀ {v : JsonValue}, Storable fmt.Exact v → ∀ {rest : Bytes},
    EndsNumber rest → Lexes fmt (serialize fmt v ++ rest) (tokensOf v) rest
  | .null, _, rest, _ => by
    rw [serialize, tokensOf]
    exact lexes_single fmt (scan_literal fmt (fun _ => rfl) (by decide) rest)
  | .bool true, _, rest, _ => by
    rw [serialize, tokensOf]
    exact lexes_single fmt (scan_literal fmt (fun _ => rfl) (by decide) rest)
  | .bool false, _, rest, _ => by
    rw [serialize, tokensOf]
    exact lexes_single fmt (scan_literal fmt (fun _ => rfl) (by decide) rest)
  | .int n, h, rest, hrest => by
    rw [Storable] at h
    have hscan := scan_dumpInteger fmt h.1 (by omega) hrest
    rw [serialize, tokensOf]
    split
    · rename_i hn
      rw [if_pos hn] at hscan
      exact lexes_single fmt hscan
    · rename_i hn
      rw [if_neg hn] at hscan
      exact lexes_single fmt hscan
  | .uint n, h, rest, hrest => by
    rw [Storable] at h
    have hscan := scan_dumpInteger fmt (n := n) (by omega) (by omega) hrest
    rw [if_pos (Int.natCast_nonneg n), Int.toNat_natCast] at hscan
    rw [serialize, tokensOf]
    exact lexes_single fmt hscan
  | .float bits, h, rest, hrest => by
    rw [Storable] at h
    have hscan := scan_number fmt hrest h.scan
    rw [convertNumber, h.read] at hscan
    rw [serialize, tokensOf, dumpFloat, if_pos h.finite]
    exact lexes_single fmt hscan
  | .string s, h, rest, _ => by
    rw [Storable] at h
    rw [serialize, tokensOf]
    exact lexes_single fmt (scan_quoted fmt h rest)
  | .array elems, h, rest, _ => by
    rw [Storable] at h
    have helems : Lexes fmt (serializeElems fmt elems ++ 93 :: rest) (tokensOfElems elems)
        (93 :: rest) := lexesElems_serialize h (endsNumber_of_mem (by decide) _)
    rw [serialize, tokensOf, List.append_assoc, List.cons_append, List.cons_append]
    exact .cons (scan_structural fmt (by decide) (by decide) _)
      (helems.concat (scan_structural fmt (by decide) (by decide) rest))
  | .object entries, h, rest, _ => by
    rw [Storable] at h
    have hentries : Lexes fmt (serializeEntries fmt entries ++ 125 :: rest)
        (tokensOfEntries entries) (125 :: rest) :=
      lexesEntries_serialize h.2 (endsNumber_of_mem (by decide) _)
    rw [serialize, tokensOf, List.append_assoc, List.cons_append, List.cons_append]
    exact .cons (scan_structural fmt (by decide) (by decide) _)
      (hentries.concat (scan_structural fmt (by decide) (by decide) rest))

theorem lexesElems_serialize : ∀ {elems : List JsonValue}, StorableElems fmt.Exact elems →
    ∀ {rest : Bytes}, EndsNumber rest →
    Lexes fmt (serializeElems fmt elems ++ rest) (tokensOfElems elems) rest
  | [], _, rest, _ => .nil rest
  | v :: elems, h, rest, hrest => by
    rw [StorableElems] at h
    rw [serializeElems, tokensOfElems, List.append_assoc]
    split
    · exact (lexes_serialize h.1 hrest).append (.nil rest)
    · exact (lexes_serialize h.1 (endsNumber_of_mem (by decide) _)).append
        (.cons (scan_structural fmt (by decide) (by decide) _) (lexesElems_serialize h.2 hrest))

theorem lexesEntries_serialize : ∀ {entries : List (Bytes × JsonValue)},
    StorableEntries fmt.Exact entries → ∀ {rest : Bytes}, EndsNumber rest →
    Lexes fmt (serializeEntries fmt entries ++ rest) (tokensOfEntries entries) rest
  | [], _, rest, _ => .nil rest
  | (key, v) :: entries, h, rest, hrest => by
    rw [StorableEntries] at h
    rw [serializeEntries, tokensOfEntries]
    simp only [List.append_assoc, List.cons_append]
    refine .cons (scan_quoted fmt h.1 _) (.cons (scan_structural fmt (by decide) (by decide) _) ?_)
    split
    · exact (lexes_serialize h.2.1 hrest).append (.nil rest)
    · exact (lexes_serialize h.2.1 (endsNumber_of_mem (by decide) _)).append
        (.cons (scan_structural fmt (by decide) (by decide) _) (lexesEntries_serialize h.2.2 hrest))

end

/-- The text of a value starts with no byte order mark. -/
theorem skipBom_serialize {v : JsonValue} (h : Storable fmt.Exact v) :
    skipBom (serialize fmt v) = some (serialize fmt v) := by
  have hfirst : (serialize fmt v).head? ≠ some 0xEF := by
    have hlexes := lexes_serialize h endsNumber_nil
    rw [List.append_nil] at hlexes
    have hderives := derives_tokensOf fmt h
    obtain ⟨token, us, hts, -, htoken⟩ := first_of_derives hderives
    rw [hts] at hlexes
    intro hhead
    cases htext : serialize fmt v with
    | nil => rw [htext] at hhead; cases hhead
    | cons c s =>
      rw [htext] at hhead hlexes
      obtain rfl := Option.some.inj hhead
      cases hlexes with
      | cons hscan _ =>
        rw [scan_cons fmt (by decide)] at hscan
        have herror : scanToken fmt 0xEF s = (.parseError, s) := rfl
        rw [herror] at hscan
        exact htoken (Prod.mk.inj hscan).1.symm
  cases htext : serialize fmt v with
  | nil => rfl
  | cons c s =>
    rw [htext] at hfirst
    have hc : c ≠ 0xEF := fun heq => hfirst (by rw [heq]; rfl)
    unfold skipBom
    split
    · rename_i heq
      exact absurd (List.cons.inj heq).1 hc
    · rename_i heq
      exact absurd (List.cons.inj heq).1 hc
    · rfl

/-- **Writing and reading give the value back.** -/
theorem parseText_serialize {v : JsonValue} (h : Storable fmt.Exact v) :
    parseText fmt (serialize fmt v) = .value v.wire := by
  rw [parseText_eq_value_iff]
  have hlexes := lexes_serialize h endsNumber_nil
  rw [List.append_nil] at hlexes
  exact ⟨_, _, [], skipBom_serialize h, hlexes, derives_tokensOf fmt h, rfl⟩

/-! ## The text is one line -/

/-- A text without control characters. -/
def Printable (s : Bytes) : Prop := ∀ c ∈ s, 0x20 ≤ c

theorem Printable.append {s t : Bytes} (hs : Printable s) (ht : Printable t) :
    Printable (s ++ t) := List.forall_mem_append.mpr ⟨hs, ht⟩

theorem Printable.cons {c : UInt8} {s : Bytes} (hc : 0x20 ≤ c) (hs : Printable s) :
    Printable (c :: s) := List.forall_mem_cons.mpr ⟨hc, hs⟩

theorem printable_nil : Printable [] := List.forall_mem_nil _

theorem printable_of_all {s : Bytes} (h : s.all (fun c => 0x20 ≤ c) = true) : Printable s :=
  fun c hc => of_decide_eq_true (List.all_eq_true.mp h c hc)

/-- No line break is printable. -/
theorem Printable.not_mem_newline {s : Bytes} (h : Printable s) : 10 ∉ s := fun hmem =>
  absurd (h 10 hmem) (by decide)

theorem printable_quoted (s : Bytes) : Printable (quoted s) :=
  .cons (by decide) (Printable.append (fun _ hc => le_of_mem_escaped hc)
    (.cons (by decide) printable_nil))

theorem printable_dumpInteger (n : ℤ) : Printable (dumpInteger n) := by
  rw [dumpInteger_eq_decimalInt, decimalInt]
  split
  · rename_i hn
    exact le_of_mem_scanNumber (scanNumber_minus_decimal (by omega))
  · exact le_of_mem_scanNumber (scanNumber_decimal _)

mutual

/-- **The text of a value has no control character**, by induction on the value: strings are
escaped, and nothing is indented. -/
theorem printable_serialize : ∀ {v : JsonValue}, Storable fmt.Exact v →
    Printable (serialize fmt v)
  | .null, _ => by rw [serialize]; exact printable_of_all (by decide)
  | .bool true, _ => by rw [serialize]; exact printable_of_all (by decide)
  | .bool false, _ => by rw [serialize]; exact printable_of_all (by decide)
  | .int n, _ => by rw [serialize]; exact printable_dumpInteger n
  | .uint n, _ => by rw [serialize]; exact printable_dumpInteger n
  | .float bits, h => by
    rw [Storable] at h
    rw [serialize, dumpFloat, if_pos h.finite]
    exact le_of_mem_scanNumber h.scan
  | .string s, _ => by rw [serialize]; exact printable_quoted s
  | .array elems, h => by
    rw [Storable] at h
    rw [serialize]
    exact .append (.cons (by decide) (printable_serializeElems h))
      (.cons (by decide) printable_nil)
  | .object entries, h => by
    rw [Storable] at h
    rw [serialize]
    exact .append (.cons (by decide) (printable_serializeEntries h.2))
      (.cons (by decide) printable_nil)

theorem printable_serializeElems : ∀ {elems : List JsonValue}, StorableElems fmt.Exact elems →
    Printable (serializeElems fmt elems)
  | [], _ => printable_nil
  | v :: elems, h => by
    rw [StorableElems] at h
    rw [serializeElems]
    refine .append (printable_serialize h.1) ?_
    split
    · exact printable_nil
    · exact .cons (by decide) (printable_serializeElems h.2)

theorem printable_serializeEntries : ∀ {entries : List (Bytes × JsonValue)},
    StorableEntries fmt.Exact entries → Printable (serializeEntries fmt entries)
  | [], _ => printable_nil
  | (key, v) :: entries, h => by
    rw [StorableEntries] at h
    rw [serializeEntries]
    refine .append (.append (printable_quoted key)
      (.cons (by decide) (printable_serialize h.2.1))) ?_
    split
    · exact printable_nil
    · exact .cons (by decide) (printable_serializeEntries h.2.2)

end

/-! ## What is read -/

theorem storableEntries_assign {F : UInt64 → Prop} {pairs : List (Bytes × JsonValue)}
    (h : StorableEntries F pairs) : Storable F (objectOf pairs) := by
  rw [objectOf, Storable]
  refine ⟨keysSorted_assign List.Pairwise.nil pairs, storableEntries_iff.mpr fun e he => ?_⟩
  exact storableEntries_iff.mp h e ((mem_or_mem_of_mem_assign he).resolve_left List.not_mem_nil)

mutual

/-- **A phrase of tokens that were read has a value that can be held.** -/
theorem storable_of_derives {ts : List Token} {v : JsonValue} (h : Derives ts v)
    (hok : ∀ t ∈ ts, t.Ok) : Storable (fun bits => Binary64.isFinite bits = true) v := by
  match h with
  | .null => rw [Storable]; trivial
  | .true => rw [Storable]; trivial
  | .false => rw [Storable]; trivial
  | .unsigned n => rw [Storable]; exact hok _ List.mem_cons_self
  | .integer n =>
    obtain ⟨hlo, hhi⟩ : -2 ^ 63 ≤ n ∧ n ≤ 0 := hok _ List.mem_cons_self
    rw [Storable]
    omega
  | .float hfinite => rw [Storable]; exact hfinite
  | .string s => rw [Storable]; exact hok _ List.mem_cons_self
  | .emptyArray => rw [Storable, StorableElems]; trivial
  | .emptyObject => rw [Storable, StorableEntries]; exact ⟨List.Pairwise.nil, trivial⟩
  | .array helems =>
    rw [Storable]
    exact storableElems_of_derives helems fun t ht =>
      hok t (List.mem_append_left _ (List.mem_cons_of_mem _ ht))
  | .object hmembers =>
    exact storableEntries_assign (storableEntries_of_derives hmembers fun t ht =>
      hok t (List.mem_append_left _ (List.mem_cons_of_mem _ ht)))

theorem storableElems_of_derives {ts : List Token} {vs : List JsonValue}
    (h : DerivesElems ts vs) (hok : ∀ t ∈ ts, t.Ok) :
    StorableElems (fun bits => Binary64.isFinite bits = true) vs := by
  match h with
  | .one hv =>
    rw [StorableElems, StorableElems]
    exact ⟨storable_of_derives hv hok, trivial⟩
  | .cons hv hvs =>
    rw [StorableElems]
    exact ⟨storable_of_derives hv fun t ht => hok t (List.mem_append_left _ ht),
      storableElems_of_derives hvs fun t ht =>
        hok t (List.mem_append_right _ (List.mem_cons_of_mem _ ht))⟩

theorem storableEntries_of_derives {ts : List Token} {pairs : List (Bytes × JsonValue)}
    (h : DerivesMembers ts pairs) (hok : ∀ t ∈ ts, t.Ok) :
    StorableEntries (fun bits => Binary64.isFinite bits = true) pairs := by
  match h with
  | .one key hv =>
    rw [StorableEntries, StorableEntries]
    exact ⟨hok _ List.mem_cons_self, storable_of_derives hv fun t ht =>
      hok t (List.mem_cons_of_mem _ (List.mem_cons_of_mem _ ht)), trivial⟩
  | .cons key hv hvs =>
    rw [StorableEntries]
    refine ⟨hok _ List.mem_cons_self, storable_of_derives hv fun t ht => ?_,
      storableEntries_of_derives hvs fun t ht => ?_⟩
    · exact hok t (List.mem_append_left _
        (List.mem_cons_of_mem _ (List.mem_cons_of_mem _ ht)))
    · exact hok t (List.mem_append_right _ (List.mem_cons_of_mem _ ht))

end

/-- **Whatever is read can be held**, and so can be written again. -/
theorem storable_of_parseText {text : Bytes} {v : JsonValue}
    (h : parseText fmt text = .value v) :
    Storable (fun bits => Binary64.isFinite bits = true) v := by
  obtain ⟨s, ts, rest, -, hlexes, hderives, -⟩ := (parseText_eq_value_iff fmt text v).mp h
  exact storable_of_derives hderives hlexes.ok

end JsonValue

/-! ## The encoding of what is written -/

namespace Serializer

open Utf8Decoder

theorem foldl_decode_escapeByte (state : Fin 9) (c : UInt8) :
    (escapeByte c).foldl decode state.val = decode state.val c :=
  forall_byte (P := fun c _ => ∀ q : Fin 9, (escapeByte c).foldl decode q.val = decode q.val c)
    (by decide +kernel) c state

theorem foldl_decode_escaped (s : Bytes) : ∀ state, state < 9 →
    (escaped s).foldl decode state = s.foldl decode state := by
  induction s with
  | nil => exact fun _ _ => rfl
  | cons c s ih =>
    intro state hstate
    have hnext := forall_byte (P := fun c _ => ∀ q : Fin 9, decode q.val c < 9)
      (by decide +kernel) c ⟨state, hstate⟩
    have hbyte := foldl_decode_escapeByte ⟨state, hstate⟩ c
    rw [escaped, List.flatMap_cons, List.foldl_append, hbyte, List.foldl_cons]
    exact ih _ hnext

theorem isValidUtf8_cons_ascii {c : UInt8} (hc : c < 0x80) {s : Bytes}
    (hs : isValidUtf8 s = true) : isValidUtf8 (c :: s) = true := by
  have hone : isValidUtf8 [c] = true :=
    isValidUtf8_of_forall_lt fun d hd => by rw [List.mem_singleton.mp hd]; exact hc
  exact isValidUtf8_append_of_valid hone hs

theorem isValidUtf8_quoted {s : Bytes} (hs : isValidUtf8 s = true) :
    isValidUtf8 (quoted s) = true := by
  have hescaped : isValidUtf8 (escaped s) = true := by
    rw [← accepts_eq_isValidUtf8] at hs ⊢
    rw [accepts, foldl_decode_escaped s 0 (by decide)]
    exact hs
  exact isValidUtf8_cons_ascii (by decide) (isValidUtf8_append_of_valid hescaped (by decide))

variable (fmt : FloatText)

theorem isValidUtf8_dumpFloat (bits : UInt64) : isValidUtf8 (dumpFloat fmt bits) = true := by
  unfold dumpFloat
  split
  · exact isValidUtf8_of_forall_lt (fmt.print_lt bits)
  · decide

theorem isValidUtf8_dumpInteger (n : ℤ) : isValidUtf8 (dumpInteger n) = true := by
  rw [dumpInteger_eq_decimalInt]
  exact isValidUtf8_decimalInt n

mutual

/-- **Of a value that can be written the text is well formed.** -/
theorem isValidUtf8_serialize : ∀ {v : JsonValue}, v.allUtf8 = true →
    isValidUtf8 (serialize fmt v) = true
  | .null, _ => rfl
  | .bool true, _ => rfl
  | .bool false, _ => rfl
  | .int n, _ => isValidUtf8_dumpInteger n
  | .uint n, _ => isValidUtf8_dumpInteger n
  | .float bits, _ => isValidUtf8_dumpFloat fmt bits
  | .string s, h => isValidUtf8_quoted (by rwa [JsonValue.allUtf8] at h)
  | .array elems, h => by
    rw [JsonValue.allUtf8] at h
    rw [serialize]
    exact isValidUtf8_cons_ascii (by decide)
      (isValidUtf8_append_of_valid (isValidUtf8_serializeElems h) (by decide))
  | .object entries, h => by
    rw [JsonValue.allUtf8] at h
    rw [serialize]
    exact isValidUtf8_cons_ascii (by decide)
      (isValidUtf8_append_of_valid (isValidUtf8_serializeEntries h) (by decide))

theorem isValidUtf8_serializeElems : ∀ {elems : List JsonValue},
    JsonValue.allUtf8Elems elems = true → isValidUtf8 (serializeElems fmt elems) = true
  | [], _ => rfl
  | v :: elems, h => by
    rw [JsonValue.allUtf8Elems, Bool.and_eq_true] at h
    rw [serializeElems]
    refine isValidUtf8_append_of_valid (isValidUtf8_serialize h.1) ?_
    split
    · rfl
    · exact isValidUtf8_cons_ascii (by decide) (isValidUtf8_serializeElems h.2)

theorem isValidUtf8_serializeEntries : ∀ {entries : List (Bytes × JsonValue)},
    JsonValue.allUtf8Entries entries = true → isValidUtf8 (serializeEntries fmt entries) = true
  | [], _ => rfl
  | (key, v) :: entries, h => by
    rw [JsonValue.allUtf8Entries, Bool.and_eq_true, Bool.and_eq_true] at h
    rw [serializeEntries]
    refine isValidUtf8_append_of_valid (isValidUtf8_append_of_valid (isValidUtf8_quoted h.1.1)
      (isValidUtf8_cons_ascii (by decide) (isValidUtf8_serialize h.1.2))) ?_
    split
    · rfl
    · exact isValidUtf8_cons_ascii (by decide) (isValidUtf8_serializeEntries h.2)

end

end Serializer

/-! ## The library -/

/-- The library: its serialiser and its parser, with the texts of the exceptions of the
parser taken from outside. -/
def nlohmann (fmt : FloatText) (what : Bytes → Text) : JsonLibrary where
  serialize := Serializer.serialize fmt
  parse text :=
    match parseText fmt text with
    | .value j => .value j
    | .failed .parseError => .parseError (what text)
    | .failed .outOfRange => .outOfRange
  isValidUtf8_serialize _ h := Serializer.isValidUtf8_serialize fmt h

variable {fmt : FloatText} (what : Bytes → Text)

theorem parse_nlohmann_eq_value_iff {text : Bytes} {j : JsonValue} :
    (nlohmann fmt what).parse text = .value j ↔ parseText fmt text = .value j := by
  simp only [nlohmann]
  constructor
  · intro h
    split at h
    · rename_i j' hparse
      obtain rfl := ParseResult.value.inj h
      exact hparse
    · cases h
    · cases h
  · intro h
    rw [h]

/-- `dump` is the recursion of the serialiser. -/
theorem dump_nlohmann (j : JsonValue) : (nlohmann fmt what).dump j = dumpInternal fmt 0 j := by
  rw [dumpInternal_eq]
  rfl

/-- **Every value that can be held comes back.** -/
theorem roundTrips_nlohmann {j : JsonValue} (h : j.Storable fmt.Exact) :
    (nlohmann fmt what).RoundTrips j :=
  (parse_nlohmann_eq_value_iff what).mpr (JsonValue.parseText_serialize h)

/-- The conversions of one number, `1.5`. -/
def oneAndAHalf : FloatText where
  print _ := ascii "1.5"
  read _ := 0x3FF8000000000000
  print_lt _ := by decide +kernel

/-- A value with a number of each kind, an escape and a character outside ASCII. -/
def sampleValue : JsonValue :=
  .object [(ascii "a", .array [.int (-5), .uint 7, .float 0x3FF8000000000000]),
    (ascii "b", .object [(ascii "n", .null), (ascii "t", .string [0xC3, 0xA9, 10, 34])])]

theorem exact_oneAndAHalf : oneAndAHalf.Exact 0x3FF8000000000000 where
  finite := by decide
  scan := by decide
  read := rfl

theorem storable_sampleValue : sampleValue.Storable oneAndAHalf.Exact := by
  simp only [sampleValue, JsonValue.Storable, JsonValue.StorableElems, JsonValue.StorableEntries,
    JsonValue.KeysSorted]
  exact ⟨by decide, by decide, ⟨by decide, by decide, exact_oneAndAHalf, trivial⟩, by decide,
    ⟨by decide, by decide, trivial, by decide, by decide, trivial⟩, trivial⟩

theorem roundTrips_nlohmann_sampleValue :
    (nlohmann oneAndAHalf fun _ => ⟨[], rfl⟩).RoundTrips sampleValue :=
  roundTrips_nlohmann _ storable_sampleValue

/-- The strings that are read are well formed. -/
theorem readsUtf8_nlohmann : (nlohmann fmt what).ReadsUtf8 := fun _ _ h =>
  JsonValue.allUtf8_of_storable
    (JsonValue.storable_of_parseText ((parse_nlohmann_eq_value_iff what).mp h))

/-- A text of the language with an escape, blanks and a number. -/
theorem parse_nlohmann_escapes :
    (nlohmann oneAndAHalf fun _ => ⟨[], rfl⟩).parse (ascii " [\"\\u00e9\" , 7]\n") =
      .value (.array [.string [195, 169], .uint 7]) := by
  refine (parse_nlohmann_eq_value_iff _).mpr ((parseText_eq_value_iff _ _ _).mpr
    ⟨ascii " [\"\\u00e9\" , 7]\n", [.beginArray, .string [195, 169], .valueSeparator,
      .unsigned 7, .endArray], [10], by decide +kernel, ?_, ?_, by decide +kernel⟩)
  · have hstep : ∀ {s t : Bytes} {token : Token}, scan oneAndAHalf s = (token, t) →
        ∀ {ts rest}, Lexes oneAndAHalf t ts rest → Lexes oneAndAHalf s (token :: ts) rest :=
      fun hscan _ _ => .cons hscan
    refine hstep (t := ascii "\"\\u00e9\" , 7]\n") (by decide +kernel) ?_
    refine hstep (t := ascii " , 7]\n") (by decide +kernel) ?_
    refine hstep (t := ascii " 7]\n") (by decide +kernel) ?_
    refine hstep (t := ascii "]\n") (by decide +kernel) ?_
    exact hstep (by decide +kernel) (.nil _)
  · exact .array (.cons (.string _) (.one (.unsigned 7)))

end HttpDataDiod
