import HttpDataDiod.Json.Dump
import HttpDataDiod.Lib.FixedDecimal
import HttpDataDiod.Sql.DbQueryRequest
import HttpDataDiod.Sql.PostgresExecutor

/-!
# The bind parameters

`PostgresQueryExecutor` makes a text of each parameter and hands it to libpq, which takes it
for a text up to its first NUL byte; `OracleQueryExecutor` fills a `dpiData`.  An integer
goes through `get<int64_t>`, a floating-point number through `std::to_string`, which writes
six decimals.  Neither loop turns a value away.

* `pgParamValues`, `pgSent`: the loop of PostgreSQL, and what goes to the server.
* `oracleBindings`: the loop of Oracle.
* `BoundExactly`: the parameters keep their values.
* `boundExactly_iff`: for which values this is so.
-/

namespace HttpDataDiod
namespace Sql

open ByteText JsonValue Binary64 DbQueryContract PgValueUtils

/-! ## The loops -/

/-- The conversion to `int64_t`: the low 64 bits. -/
def toInt64 (n : ℤ) : ℤ := n.bmod (2 ^ 64)

/-- `get<int64_t>` of an integer. -/
def getInt64 : JsonValue → ℤ
  | .int n => toInt64 n
  | .uint n => toInt64 n
  | _ => 0

/-- `std::to_string` of a finite `double`. -/
def toStringDouble (bits : UInt64) : Bytes := printFixed bits 6

/-- The loop of `PostgresQueryExecutor`: the texts, and null pointers. -/
def pgParamValues : List (Bytes × JsonValue) → List (Option Bytes)
  | [] => []
  | (_, .null) :: params => none :: pgParamValues params
  | (_, .bool b) :: params => some (if b then ascii "t" else ascii "f") :: pgParamValues params
  | (_, .int n) :: params => some (decimalInt (getInt64 (.int n))) :: pgParamValues params
  | (_, .uint n) :: params => some (decimalInt (getInt64 (.uint n))) :: pgParamValues params
  | (_, .float bits) :: params => some (toStringDouble bits) :: pgParamValues params
  | (_, .string s) :: params => some s :: pgParamValues params
  | _ :: params => pgParamValues params

/-- A text as libpq reads it. -/
def cString (s : Bytes) : Bytes := s.takeWhile (· ≠ 0)

/-- The values of `$1`, `$2` and so on. -/
def pgSent (params : List (Bytes × JsonValue)) : List (Option Bytes) :=
  (pgParamValues params).map (Option.map cString)

/-- What a `dpiData` is filled with, by its native type. -/
inductive DpiBinding where
  | null
  | int64 (n : ℤ)
  | double (bits : UInt64)
  | bytes (s : Bytes)

def oracleBinding : JsonValue → DpiBinding
  | .null => .null
  | .bool b => .int64 (if b then 1 else 0)
  | .int n => .int64 (getInt64 (.int n))
  | .uint n => .int64 (getInt64 (.uint n))
  | .float bits => .double bits
  | .string s => .bytes s
  | _ => .int64 0

/-- The name without a colon in front. -/
def bindName (name : Bytes) : Bytes :=
  if name.head? = some 58 then name.drop 1 else name

/-- The loop of `OracleQueryExecutor`. -/
def oracleBindings (params : List (Bytes × JsonValue)) : List (Bytes × DpiBinding) :=
  params.map fun p => (bindName p.1, oracleBinding p.2)

/-! ## What should be bound -/

/-- The text of a parameter denotes its value: a null has none, an integer is written in decimal,
a string is itself, and a floating-point number is read back as the same number. -/
def TextDenotes (read : Bytes → Option UInt64) : JsonValue → Option Bytes → Prop
  | .null, text => text = none
  | .bool b, text => text = some (if b then ascii "t" else ascii "f")
  | .int n, text => text = some (decimalInt n)
  | .uint n, text => text = some (decimal n)
  | .float bits, text => ∃ t, text = some t ∧ read t = some bits
  | .string s, text => text = some s
  | _, _ => False

/-- An integer is bound as that integer. -/
def BoundAsInteger : JsonValue → DpiBinding → Prop
  | .int n, binding => binding = .int64 n
  | .uint n, binding => binding = .int64 n
  | _, _ => True

/-- **The parameters keep their values**: one is sent for each entry of the object, in the order
of the keys, and denotes its value; and the integers are bound as they are. -/
structure BoundExactly (read : Bytes → Option UInt64) (object : JsonObject)
    (params : List (Bytes × JsonValue)) : Prop where
  count : (pgSent params).length = object.entries.length
  postgres : ∀ (i : ℕ) (entry : Bytes × JsonValue), object.entries[i]? = some entry →
    ∃ text : Option Bytes, (pgSent params)[i]? = some text ∧ TextDenotes read entry.2 text
  oracle : ∀ (i : ℕ) (entry : Bytes × JsonValue), object.entries[i]? = some entry →
    ∃ binding : Bytes × DpiBinding, (oracleBindings params)[i]? = some binding ∧
      BoundAsInteger entry.2 binding.2

/-- A number as `nlohmann::json` stores it: within 64 bits, and finite. -/
def Stored : JsonValue → Prop
  | .int n => InInt64 n
  | .uint n => n < 2 ^ 64
  | .float bits => isFinite bits = true
  | _ => True

/-- The values that are bound exactly: the integers below `2 ^ 63`, the floating-point numbers
that six decimals miss by less than half their last place, and the strings without a NUL. -/
def KeepsBoundValue : JsonValue → Prop
  | .uint n => n < 2 ^ 63
  | .float bits => 2 * decimalsError bits 6 < 2 ^ place bits * 10 ^ 6
  | .string s => 0 ∉ s
  | _ => True

instance : DecidablePred Stored := fun v =>
  match v with
  | .int n => inferInstanceAs (Decidable (InInt64 n))
  | .uint n => inferInstanceAs (Decidable (n < 2 ^ 64))
  | .float bits => inferInstanceAs (Decidable (isFinite bits = true))
  | .null | .bool _ | .string _ | .array _ | .object _ => inferInstanceAs (Decidable True)

instance : DecidablePred KeepsBoundValue := fun v =>
  match v with
  | .uint n => inferInstanceAs (Decidable (n < 2 ^ 63))
  | .float bits =>
    inferInstanceAs (Decidable (2 * decimalsError bits 6 < 2 ^ place bits * 10 ^ 6))
  | .string s => inferInstanceAs (Decidable (0 ∉ s))
  | .null | .bool _ | .int _ | .array _ | .object _ => inferInstanceAs (Decidable True)

/-! ## One parameter -/

/-- The text of a scalar. -/
def pgParamValue : JsonValue → Option Bytes
  | .bool b => some (if b then ascii "t" else ascii "f")
  | .int n => some (decimalInt (getInt64 (.int n)))
  | .uint n => some (decimalInt (getInt64 (.uint n)))
  | .float bits => some (toStringDouble bits)
  | .string s => some s
  | _ => none

theorem pgParamValues_eq_map {params : List (Bytes × JsonValue)}
    (h : ∀ p ∈ params, p.2.isScalar = true) :
    pgParamValues params = params.map fun p => pgParamValue p.2 := by
  induction params with
  | nil => rfl
  | cons p params ih =>
    obtain ⟨hp, hparams⟩ := List.forall_mem_cons.mp h
    obtain ⟨name, value⟩ := p
    rw [List.map_cons, ← ih hparams]
    cases value with
    | array elems => cases hp
    | object entries => cases hp
    | _ => rfl

theorem cString_eq_self_iff {s : Bytes} : cString s = s ↔ 0 ∉ s := by
  rw [cString, List.takeWhile_eq_self_iff]
  constructor
  · intro h hzero
    simpa using h 0 hzero
  · intro h c hc
    exact decide_eq_true fun hzero => h (hzero ▸ hc)

theorem zero_not_mem_decimalInt (n : ℤ) : (0 : UInt8) ∉ decimalInt n := by
  intro h
  rcases isDigit_of_mem_decimalInt h with h | h
  · exact absurd h (by decide)
  · exact absurd h (by decide)

theorem zero_not_mem_fixedDecimal (negative : Bool) (k scale : ℕ) :
    (0 : UInt8) ∉ fixedDecimal negative k scale := by
  unfold fixedDecimal
  rw [List.mem_append, List.mem_append]
  rintro ((hsign | hwhole) | hdecimals)
  · cases negative with
    | true => exact absurd (List.mem_singleton.mp hsign) (by decide)
    | false => cases hsign
  · exact absurd (isDigit_of_mem_decimal hwhole) (by decide)
  · split at hdecimals
    · cases hdecimals
    · rcases List.mem_cons.mp hdecimals with hpoint | hdigit
      · exact absurd hpoint (by decide)
      · rcases isDigit_of_mem_zeroPadded hdigit with h | h
        · exact absurd h (by decide)
        · exact absurd h (by decide)

theorem toInt64_eq_self_iff {n : ℤ} (hlow : -(2 ^ 63) ≤ n) (hhigh : n < 2 ^ 64) :
    toInt64 n = n ↔ n < 2 ^ 63 := by
  unfold toInt64
  rw [Int.bmod_def]
  split <;> omega

theorem getInt64_int {n : ℤ} (h : InInt64 n) : getInt64 (.int n) = n := by
  obtain ⟨hlow, hhigh⟩ := h
  exact (toInt64_eq_self_iff hlow (by omega)).mpr (by omega)

/-- From `2 ^ 63` on an unsigned integer becomes another one. -/
theorem getInt64_uint_eq_iff {n : ℕ} (h : n < 2 ^ 64) : getInt64 (.uint n) = n ↔ n < 2 ^ 63 := by
  have hiff := toInt64_eq_self_iff (n := n) (by omega) (by omega)
  exact hiff.trans (by omega)

theorem decimalInt_natCast (n : ℕ) : decimalInt n = decimal n := by
  rw [decimalInt, if_neg (by omega), Int.natAbs_natCast]

/-- **What one parameter needs** to be sent exactly. -/
theorem textDenotes_iff {read : Bytes → Option UInt64} (hread : ReadsNearest read) {v : JsonValue}
    (hscalar : v.isScalar = true) (hstored : Stored v) :
    TextDenotes read v ((pgParamValue v).map cString) ↔ KeepsBoundValue v := by
  cases v with
  | null => exact iff_of_true rfl trivial
  | bool b => exact iff_of_true (by cases b <;> rfl) trivial
  | int n =>
    refine iff_of_true ?_ trivial
    show some (cString (decimalInt (getInt64 (.int n)))) = some (decimalInt n)
    rw [getInt64_int hstored, cString_eq_self_iff.mpr (zero_not_mem_decimalInt n)]
  | uint n =>
    show some (cString (decimalInt (getInt64 (.uint n)))) = some (decimal n) ↔ n < 2 ^ 63
    rw [cString_eq_self_iff.mpr (zero_not_mem_decimalInt _), Option.some.injEq,
      ← decimalInt_natCast, ← getInt64_uint_eq_iff hstored]
    exact ⟨fun h => decimalInt_injective h, fun h => congrArg decimalInt h⟩
  | float bits =>
    show (∃ t, some (cString (toStringDouble bits)) = some t ∧ read t = some bits) ↔ _
    have htext : cString (toStringDouble bits) = printFixed bits 6 :=
      cString_eq_self_iff.mpr (zero_not_mem_fixedDecimal _ _ _)
    rw [htext, KeepsBoundValue, ← read_printFixed_eq_iff hread hstored (by decide)]
    constructor
    · rintro ⟨t, ht, hbits⟩
      rwa [← Option.some.inj ht] at hbits
    · intro hbits
      exact ⟨_, rfl, hbits⟩
  | string s =>
    show some (cString s) = some s ↔ 0 ∉ s
    rw [Option.some.injEq, cString_eq_self_iff]
  | array elems => cases hscalar
  | object entries => cases hscalar

theorem boundAsInteger_of_keeps {v : JsonValue} (hstored : Stored v) (h : KeepsBoundValue v) :
    BoundAsInteger v (oracleBinding v) := by
  cases v with
  | int n => exact congrArg DpiBinding.int64 (getInt64_int hstored)
  | uint n => exact congrArg DpiBinding.int64 ((getInt64_uint_eq_iff hstored).mpr h)
  | _ => trivial

/-! ## All of them -/

/-- The loop over the items of an object keeps them, and their order. -/
theorem parseParamItems_eq_append {items acc params : List (Bytes × JsonValue)}
    (hsorted : KeysSorted (acc ++ items)) (h : parseParamItems acc items = .ok params) :
    params = acc ++ items ∧ ∀ p ∈ items, p.2.isScalar = true := by
  induction items generalizing acc with
  | nil => exact ⟨by simpa using (Except.ok.inj h).symm, fun p hp => absurd hp List.not_mem_nil⟩
  | cons item items ih =>
    obtain ⟨name, value⟩ := item
    rw [parseParamItems] at h
    split at h
    · rename_i hscalar
      have hlast : ∀ e ∈ acc, e.1 < name := fun e he =>
        (List.pairwise_append.mp hsorted).2.2 e he _ List.mem_cons_self
      rw [setEntry_of_forall_lt hlast] at h
      rw [List.append_cons] at hsorted ⊢
      obtain ⟨heq, hitems⟩ := ih hsorted h
      exact ⟨heq, List.forall_mem_cons.mpr ⟨hscalar, hitems⟩⟩
    · cases h

theorem params_of_parseDbQueryRequest {j : JsonValue} {r : DbQueryRequest} {object : JsonObject}
    (hparams : j.find kParams = some (.object object.entries))
    (hr : parseDbQueryRequest j = .ok r) :
    r.params = object.entries ∧ ∀ e ∈ object.entries, e.2.isScalar = true := by
  obtain ⟨-, -, -, hparse, -⟩ := parseDbQueryRequest_eq_ok_iff.mp hr
  rw [parseParams, hparams] at hparse
  have hsorted : KeysSorted ([] ++ object.entries) := object.sorted
  exact parseParamItems_eq_append hsorted hparse

/-- **When the parameters keep their values**: exactly when each of them does. -/
theorem boundExactly_iff {read : Bytes → Option UInt64} (hread : ReadsNearest read)
    {j : JsonValue} {r : DbQueryRequest} {object : JsonObject}
    (hparams : j.find kParams = some (.object object.entries))
    (hr : parseDbQueryRequest j = .ok r) (hstored : ∀ e ∈ object.entries, Stored e.2) :
    BoundExactly read object r.params ↔ ∀ e ∈ object.entries, KeepsBoundValue e.2 := by
  obtain ⟨hall, hscalar⟩ := params_of_parseDbQueryRequest hparams hr
  have hsent : pgSent r.params =
      object.entries.map fun e => (pgParamValue e.2).map cString := by
    rw [hall, pgSent, pgParamValues_eq_map hscalar, List.map_map]
    rfl
  have hone : ∀ e ∈ object.entries,
      (TextDenotes read e.2 ((pgParamValue e.2).map cString) ↔ KeepsBoundValue e.2) :=
    fun e he => textDenotes_iff hread (hscalar e he) (hstored e he)
  constructor
  · intro hbound e he
    obtain ⟨i, hi⟩ := List.getElem?_of_mem he
    obtain ⟨text, htext, hdenotes⟩ := hbound.postgres i e hi
    rw [hsent, List.getElem?_map, hi] at htext
    obtain rfl := Option.some.inj htext
    exact (hone e he).mp hdenotes
  · intro hkeeps
    refine ⟨by rw [hsent, List.length_map], fun i e hi => ?_, fun i e hi => ?_⟩
    · have he := List.mem_of_getElem? hi
      refine ⟨_, ?_, (hone e he).mpr (hkeeps e he)⟩
      rw [hsent, List.getElem?_map, hi]
      rfl
    · have he := List.mem_of_getElem? hi
      refine ⟨(bindName e.1, oracleBinding e.2), ?_,
        boundAsInteger_of_keeps (hstored e he) (hkeeps e he)⟩
      rw [hall, oracleBindings, List.getElem?_map, hi]
      rfl

/-- A query with the given parameters. -/
def queryWith (object : JsonObject) : JsonValue :=
  .object [(kDb, .string (ascii "main")), (kParams, .object object.entries),
    (kSql, .string (ascii "select v from t where k = $1")), (kType, .string kTypeQuery)]

/-- A tenth, a text and the largest signed integer. -/
def tenthParams : JsonObject :=
  .of [(ascii "a", .float 0x3FB999999999999A), (ascii "b", .string (ascii "x")),
    (ascii "c", .uint 9223372036854775807)]

/-- They keep their values. -/
theorem boundExactly_tenthParams :
    ∃ r : DbQueryRequest, parseDbQueryRequest (queryWith tenthParams) = .ok r ∧
      BoundExactly readDouble tenthParams r.params :=
  ⟨_, rfl, (boundExactly_iff readsNearest_readDouble (j := queryWith tenthParams) rfl rfl
    (by decide)).mpr (by decide +kernel)⟩

/-- The largest unsigned integer. -/
def largestParams : JsonObject := .of [(ascii "a", .uint 18446744073709551615)]

/-- It is sent as `-1`. -/
theorem largestParams_not_boundExactly :
    ∃ r : DbQueryRequest, parseDbQueryRequest (queryWith largestParams) = .ok r ∧
      pgSent r.params = [some (ascii "-1")] ∧ ¬ BoundExactly readDouble largestParams r.params := by
  have hsent : pgSent largestParams.entries = [some (ascii "-1")] := by decide +kernel
  refine ⟨_, rfl, hsent, fun hbound => ?_⟩
  obtain ⟨text, htext, hdenotes⟩ := hbound.postgres 0 _ rfl
  have hfirst : some (some (ascii "-1")) = some text :=
    (congrArg (fun sent : List (Option Bytes) => sent[0]?) hsent).symm.trans htext
  rw [← Option.some.inj hfirst] at hdenotes
  revert hdenotes
  show ¬ some (ascii "-1") = some (decimal 18446744073709551615)
  decide +kernel

end Sql
end HttpDataDiod
