import HttpDataDiod.Sql.PostgresExecutor

/-!
# The hex format of `bytea`

PostgreSQL writes a `bytea` value as `\x` and two hexadecimal digits for each byte.
`hex_to_bytes` reads the pairs behind the prefix with an index, and shifts the value of a
digit, computed from a `char` with a sign.

* `hexToBytesAt`: the function of the source, with its index; a read has no answer past the
  end.
* `hexDigits`: the digits of a byte string, each in either case.
* `hexToBytesAt_eq`: every read has an answer, and the function is the one over the pairs.
* `hexToBytes_spec`: it decodes what was written, and gives half as many bytes as there are
  digits.
-/

namespace HttpDataDiod
namespace Sql

open ByteText

namespace PgValueUtils

/-! ## The function with its index -/

/-- A `char`, with its sign. -/
def charValue (c : UInt8) : ℤ := if c < 128 then c.toNat else c.toNat - 256

/-- `nibble`, as it is computed: in `int`, and cast to `unsigned char`. -/
def nibbleValue (c : UInt8) : ℕ :=
  let c := charValue c
  let value := if 48 ≤ c ∧ c ≤ 57 then c - 48
    else if 97 ≤ c ∧ c ≤ 102 then c - 97 + 10
    else if 65 ≤ c ∧ c ≤ 70 then c - 65 + 10
    else 0
  (value % 256).toNat

/-- The index behind the prefix. -/
def hexStart (hex : Bytes) : Option ℕ := do
  if hex.isEmpty then return 0
  let first ← hex[0]?
  if first ≠ 92 ∨ ¬ 1 < hex.length then return 0
  let second ← hex[1]?
  return if second = 120 then 2 else 0

/-- The loop over the pairs. -/
def hexLoop (hex : Bytes) (i : ℕ) (out : Bytes) : Option Bytes :=
  if i + 1 < hex.length then do
    let hi ← hex[i]?
    let lo ← hex[i + 1]?
    hexLoop hex (i + 2) (out ++ [UInt8.ofNat (nibbleValue hi <<< 4 ||| nibbleValue lo)])
  else some out
termination_by hex.length - i

/-- `hex_to_bytes`, `none` when it reads past the end. -/
def hexToBytesAt (hex : Bytes) : Option Bytes := do
  let start ← hexStart hex
  hexLoop hex start []

/-! ## The digits of a byte string -/

/-- The digit of a value below sixteen. -/
def hexDigit (upper : Bool) (v : ℕ) : UInt8 :=
  UInt8.ofNat (if v < 10 then 48 + v else if upper then 55 + v else 87 + v)

/-- The digits of a byte string; `upper` says of each digit whether it is a capital. -/
def hexDigits (upper : ℕ → Bool) : Bytes → Bytes
  | [] => []
  | b :: bytes =>
    hexDigit (upper 0) (b.toNat / 16) :: hexDigit (upper 1) (b.toNat % 16) ::
      hexDigits (fun i => upper (i + 2)) bytes

/-! ## Digits -/

/-- The sign of a `char` does not matter. -/
theorem nibbleValue_eq (c : UInt8) : nibbleValue c = nibble c :=
  forall_byte (P := fun c _ => nibbleValue c = nibble c) (by decide +kernel) c

theorem nibble_lt (c : UInt8) : nibble c < 16 :=
  forall_byte (P := fun c _ => nibble c < 16) (by decide +kernel) c

theorem nibble_hexDigit (upper : Bool) {v : ℕ} (hv : v < 16) :
    nibble (hexDigit upper v) = v := by
  have hall : ∀ (upper : Bool) (v : Fin 16), nibble (hexDigit upper v) = v := by decide +kernel
  exact hall upper ⟨v, hv⟩

/-- Shifting makes room for the second digit. -/
theorem shift_or_nibble (hi lo : UInt8) :
    nibble hi <<< 4 ||| nibble lo = 16 * nibble hi + nibble lo := by
  rw [← Nat.shiftLeft_add_eq_or_of_lt (nibble_lt lo), Nat.shiftLeft_eq, Nat.mul_comm]

/-- **The pairs of the digits of a byte string** are its bytes. -/
theorem hexPairs_hexDigits (upper : ℕ → Bool) (b : Bytes) : hexPairs (hexDigits upper b) = b := by
  induction b generalizing upper with
  | nil => rfl
  | cons c b ih =>
    have hc := c.toNat_lt
    rw [hexDigits, hexPairs, ih, nibble_hexDigit _ (by omega), nibble_hexDigit _ (by omega),
      Nat.div_add_mod, UInt8.ofNat_toNat]

theorem length_hexDigits (upper : ℕ → Bool) (b : Bytes) :
    (hexDigits upper b).length = 2 * b.length := by
  induction b generalizing upper with
  | nil => rfl
  | cons c b ih =>
    rw [hexDigits, List.length_cons, List.length_cons, ih, List.length_cons]
    omega

/-- Two digits make a byte, and an odd one is left out. -/
theorem length_hexPairs (digits : Bytes) : (hexPairs digits).length = digits.length / 2 := by
  induction digits using hexPairs.induct with
  | case1 hi lo rest ih =>
    rw [hexPairs, List.length_cons, ih, List.length_cons, List.length_cons]
    omega
  | case2 digits hshort =>
    match digits, hshort with
    | [], _ => simp [hexPairs]
    | [c], _ => simp [hexPairs]
    | hi :: lo :: rest, hshort => exact absurd rfl (hshort hi lo rest)

/-! ## Every read has an answer -/

/-- **The loop from an index on** reads the pairs behind it. -/
theorem hexLoop_eq (hex : Bytes) (i : ℕ) (out : Bytes) :
    hexLoop hex i out = some (out ++ hexPairs (hex.drop i)) := by
  induction i, out using hexLoop.induct hex with
  | case1 i out hlt ih =>
    have hi : i < hex.length := by omega
    have hdrop : hex.drop i = hex[i] :: hex[i + 1] :: hex.drop (i + 2) := by
      rw [List.drop_eq_getElem_cons hi, List.drop_eq_getElem_cons hlt]
    rw [hexLoop, if_pos hlt, List.getElem?_eq_getElem hi, List.getElem?_eq_getElem hlt]
    show hexLoop hex (i + 2) _ = _
    rw [ih, hdrop, hexPairs, nibbleValue_eq, nibbleValue_eq, shift_or_nibble, List.append_assoc]
    rfl
  | case2 i out hge =>
    have hshort : (hex.drop i).length ≤ 1 := by
      rw [List.length_drop]
      omega
    have hnone : hexPairs (hex.drop i) = [] := by
      rw [← List.length_eq_zero_iff, length_hexPairs]
      omega
    rw [hexLoop, if_neg hge, hnone, List.append_nil]

/-- **The function with its index** reads nothing past the end, and is the one over the pairs. -/
theorem hexToBytesAt_eq (hex : Bytes) :
    ∃ start, hexStart hex = some start ∧ hexToBytes hex = hexPairs (hex.drop start) ∧
      hexToBytesAt hex = some (hexToBytes hex) := by
  obtain ⟨start, hstart, hbytes⟩ :
      ∃ start, hexStart hex = some start ∧ hexToBytes hex = hexPairs (hex.drop start) := by
    match hex with
    | [] => exact ⟨0, rfl, rfl⟩
    | [c] =>
      refine ⟨0, by simp [hexStart], ?_⟩
      simp [hexToBytes]
    | c :: d :: rest =>
      by_cases hc : c = 92
      · subst hc
        by_cases hd : d = 120
        · subst hd
          exact ⟨2, rfl, rfl⟩
        · refine ⟨0, by simp [hexStart, hd], ?_⟩
          unfold hexToBytes
          split
          · next heq => exact absurd (List.cons.inj (List.cons.inj heq).2).1 hd
          · rfl
      · refine ⟨0, by simp [hexStart, hc], ?_⟩
        unfold hexToBytes
        split
        · next heq => exact absurd (List.cons.inj heq).1 hc
        · rfl
  refine ⟨start, hstart, hbytes, ?_⟩
  rw [hexToBytesAt, hstart]
  show hexLoop hex start [] = _
  rw [hexLoop_eq, List.nil_append, hbytes]

/-- **Decoding what PostgreSQL writes for a byte string**, in any mixture of cases, gives the byte
string, and the column its base64 text; and for any input at all every read has an answer, and
every two digits behind the prefix give one byte. -/
theorem hexToBytes_spec :
    (∀ (upper : ℕ → Bool) (b : Bytes),
      (hexDigits upper b).length = 2 * b.length ∧
      hexToBytesAt ([92, 120] ++ hexDigits upper b) = some b ∧
      ∀ stod : Bytes → Option UInt64,
        pgValue stod kPgByteaOid ([92, 120] ++ hexDigits upper b) = .string (toBase64 b)) ∧
    ∀ hex : Bytes, ∃ start out, hexStart hex = some start ∧ hexToBytesAt hex = some out ∧
      out.length = (hex.length - start) / 2 := by
  constructor
  · intro upper b
    have hbytes : hexToBytes ([92, 120] ++ hexDigits upper b) = b := hexPairs_hexDigits upper b
    obtain ⟨-, -, -, hread⟩ := hexToBytesAt_eq ([92, 120] ++ hexDigits upper b)
    refine ⟨length_hexDigits upper b, hread.trans (congrArg some hbytes), fun stod => ?_⟩
    show JsonValue.string (toBase64 (hexToBytes ([92, 120] ++ hexDigits upper b))) = _
    rw [hbytes]
  · intro hex
    obtain ⟨start, hstart, hbytes, hread⟩ := hexToBytesAt_eq hex
    refine ⟨start, _, hstart, hread, ?_⟩
    rw [hbytes, length_hexPairs, List.length_drop]

end PgValueUtils

end Sql
end HttpDataDiod
