import HttpDataDiod.Lib.FixedDecimal
import HttpDataDiod.Sql.PostgresExecutor

/-!
# Integers in a result

`pg_value` reads an integer column with `std::stoll`, which is exact, and a `NUMERIC`
column with `std::stod`, which rounds to a binary64 number and throws when the number is
too large.  An integer of a `NUMERIC` column has any number of digits, and zeros behind
the point.

* `PgIntegerText`: the texts of integers that PostgreSQL puts out.
* `Denotes`, `ExactResult`: the value is that integer, or the text.
* `exactResult_iff`: for which integers this is so.
-/

namespace HttpDataDiod
namespace Sql

open ByteText JsonValue PgValueUtils Binary64

/-! ## The texts -/

/-- The integer columns. -/
inductive PgIntType where
  | int2 | int4 | int8 | oid

namespace PgIntType

def typeOid : PgIntType → ℕ
  | .int2 => kPgInt2Oid
  | .int4 => kPgInt4Oid
  | .int8 => kPgInt8Oid
  | .oid => kPgOidOid

def InRange : PgIntType → ℤ → Prop
  | .int2, n => -2 ^ 15 ≤ n ∧ n < 2 ^ 15
  | .int4, n => -2 ^ 31 ≤ n ∧ n < 2 ^ 31
  | .int8, n => -2 ^ 63 ≤ n ∧ n < 2 ^ 63
  | .oid, n => 0 ≤ n ∧ n < 2 ^ 32

theorem inInt64 {type : PgIntType} {n : ℤ} (h : type.InRange n) : InInt64 n := by
  unfold InInt64
  cases type with
  | int2 => exact ⟨by have := h.1; omega, by have := h.2; omega⟩
  | int4 => exact ⟨by have := h.1; omega, by have := h.2; omega⟩
  | int8 => exact h
  | oid => exact ⟨by have := h.1; omega, by have := h.2; omega⟩

end PgIntType

/-- An integer in a `NUMERIC` column, with so many decimals. -/
def numericText (n : ℤ) (scale : ℕ) : Bytes :=
  decimalInt n ++ if scale = 0 then [] else 46 :: List.replicate scale 48

/-- What PostgreSQL puts out for an integer: in an integer column, within its range, or in a
`NUMERIC` column. -/
inductive PgIntegerText where
  | column (type : PgIntType) (n : ℤ) (inRange : type.InRange n)
  | numeric (n : ℤ) (scale : ℕ)

namespace PgIntegerText

def oid : PgIntegerText → ℕ
  | .column type _ _ => type.typeOid
  | .numeric _ _ => kPgNumericOid

def text : PgIntegerText → Bytes
  | .column _ n _ => decimalInt n
  | .numeric n scale => numericText n scale

def value : PgIntegerText → ℤ
  | .column _ n _ => n
  | .numeric n _ => n

/-- The integers that keep their value: those of the integer columns; those that are binary64
numbers; and those that `std::stod` turns away. -/
def KeepsValue : PgIntegerText → Prop
  | .column _ _ _ => True
  | .numeric n _ =>
    (∃ m e, m < 2 ^ 53 ∧ n.natAbs = m * 2 ^ e) ∨ 2 ^ 1024 - 2 ^ 970 ≤ n.natAbs

end PgIntegerText

/-! ## The values -/

/-- The value of a binary64 number is an integer. -/
def floatIsInteger (bits : UInt64) (n : ℤ) : Prop :=
  isFinite bits = true ∧
    (if isNegative bits then -(units bits : ℤ) else units bits) = n * unitsOfOne

/-- A JSON number denotes an integer. -/
def Denotes : JsonValue → ℤ → Prop
  | .int m, n => m = n
  | .uint m, n => (m : ℤ) = n
  | .float bits, n => floatIsInteger bits n
  | _, _ => False

/-- The result is a number that denotes the integer, or the unchanged text. -/
def ExactResult (stod : Bytes → Option UInt64) (x : PgIntegerText) : Prop :=
  Denotes (pgValue stod x.oid x.text) x.value ∨ pgValue stod x.oid x.text = .string x.text

/-! ## The integer columns -/

theorem stoll_decimalInt {n : ℤ} (hn : InInt64 n) : stoll (decimalInt n) = some n := by
  have hmagnitude : ∀ negative : Bool, (if negative then -(n.natAbs : ℤ) else n.natAbs) = n →
      stollMagnitude negative (decimal n.natAbs) = some n := by
    intro negative hvalue
    have hdigits := takeWhile_isDigit_decimal_append n.natAbs (r := []) (by simp)
    rw [List.append_nil] at hdigits
    rw [stollMagnitude, hdigits]
    simp only [decimal_ne_nil, if_false, natOfDigits_decimal]
    rw [hvalue, if_pos hn]
  unfold decimalInt
  split
  · next hneg =>
    unfold stoll
    exact hmagnitude true (by simp only [if_true]; omega)
  · next hneg =>
    obtain ⟨d, s, hs⟩ : ∃ d s, decimal n.natAbs = d :: s :=
      List.exists_cons_of_ne_nil (decimal_ne_nil _)
    have hd : isDigit d = true := isDigit_of_mem_decimal (hs ▸ List.mem_cons_self)
    obtain ⟨hspace, hminus, hplus⟩ := not_blank_or_sign_of_isDigit hd
    have hpositive := hmagnitude false (by simp only [Bool.false_eq_true, if_false]; omega)
    rw [hs] at hpositive ⊢
    unfold stoll
    rw [List.dropWhile_cons_of_neg hspace]
    split
    · next h => exact absurd (List.cons.inj h).1 hminus
    · next h => exact absurd (List.cons.inj h).1 hplus
    · exact hpositive

theorem pgValue_column {type : PgIntType} {n : ℤ} (h : type.InRange n)
    (stod : Bytes → Option UInt64) : pgValue stod type.typeOid (decimalInt n) = .int n := by
  have hstoll := stoll_decimalInt (PgIntType.inInt64 h)
  cases type <;> simp [pgValue, PgIntType.typeOid, isIntOid, hstoll, kPgBoolOid, kPgInt2Oid,
    kPgInt4Oid, kPgInt8Oid, kPgOidOid]

/-! ## The `NUMERIC` columns -/

theorem numericText_eq (n : ℤ) (scale : ℕ) :
    numericText n scale = fixedDecimal (decide (n < 0)) (n.natAbs * 10 ^ scale) scale := by
  have hpos : 0 < 10 ^ scale := Nat.pow_pos (by decide)
  have hzeros : scale ≠ 0 → zeroPadded scale (0 : ℕ) = List.replicate scale 48 := by
    intro hscale
    obtain ⟨m, rfl⟩ := Nat.exists_eq_succ_of_ne_zero hscale
    show List.replicate (m + 1 - 0 - 1) 48 ++ [48] = _
    rw [Nat.sub_zero, Nat.add_sub_cancel, ← List.replicate_succ']
  have hsign : decimalInt n = (if decide (n < 0) then [45] else []) ++ decimal n.natAbs := by
    unfold decimalInt
    by_cases hneg : n < 0
    · simp [hneg]
    · simp [hneg]
  unfold numericText fixedDecimal
  rw [hsign, Nat.mul_div_cancel _ hpos, Nat.mul_mod_left]
  by_cases hscale : scale = 0
  · rw [if_pos hscale, if_pos hscale]
  · rw [if_neg hscale, if_neg hscale, hzeros hscale]

theorem pgValue_numeric_of_read {stod : Bytes → Option UInt64} {text : Bytes} {bits : UInt64}
    (h : stod text = some bits) : pgValue stod kPgNumericOid text = .float bits := by
  simp [pgValue, isIntOid, isFloatOid, kPgNumericOid, kPgBoolOid, kPgInt2Oid, kPgInt4Oid,
    kPgInt8Oid, kPgOidOid, h]

theorem pgValue_numeric_of_thrown {stod : Bytes → Option UInt64} {text : Bytes}
    (h : stod text = none) : pgValue stod kPgNumericOid text = .string text := by
  simp [pgValue, isIntOid, isFloatOid, kPgNumericOid, kPgBoolOid, kPgInt2Oid, kPgInt4Oid,
    kPgInt8Oid, kPgOidOid, h]

/-- A number with the sign and the magnitude of an integer is that integer. -/
theorem floatIsInteger_iff {bits : UInt64} {n : ℤ} (hfinite : isFinite bits = true)
    (hsign : isNegative bits = decide (n < 0)) :
    floatIsInteger bits n ↔ units bits = n.natAbs * unitsOfOne := by
  unfold floatIsInteger
  rw [hsign]
  have habs : n < 0 → n = -(n.natAbs : ℤ) := fun _ => by omega
  have habs' : ¬ n < 0 → n = (n.natAbs : ℤ) := fun _ => by omega
  by_cases hneg : n < 0
  · simp only [hfinite, hneg, decide_true, if_true, true_and]
    rw [habs hneg, Int.neg_mul, Int.neg_inj, ← Int.natCast_mul, Int.natCast_inj, Int.natAbs_neg,
      Int.natAbs_natCast]
  · simp only [hfinite, hneg, decide_false, Bool.false_eq_true, if_false, true_and]
    rw [habs' hneg, ← Int.natCast_mul, Int.natCast_inj, Int.natAbs_natCast]

theorem scaled_mul_unitsOfOne (n : ℤ) (scale : ℕ) :
    n.natAbs * 10 ^ scale * unitsOfOne = n.natAbs * unitsOfOne * 10 ^ scale := by
  rw [Nat.mul_assoc, Nat.mul_comm (10 ^ scale), ← Nat.mul_assoc]

/-- Below the overflow the text of an integer is read, as a number nearest to it. -/
theorem exists_read_numericText {stod : Bytes → Option UInt64} (hstod : ReadsNearest stod)
    {n : ℤ} (scale : ℕ) (hfits : n.natAbs * unitsOfOne < overflowUnits) :
    ∃ bits, stod (numericText n scale) = some bits ∧ isNegative bits = decide (n < 0) ∧
      Nearest bits (n.natAbs * unitsOfOne * 10 ^ scale) (10 ^ scale) := by
  have hpos : 0 < 10 ^ scale := Nat.pow_pos (by decide)
  have hnormal : n.natAbs * 10 ^ scale = 0 ∨
      2 ^ 52 * 10 ^ scale ≤ n.natAbs * 10 ^ scale * unitsOfOne := by
    rcases Nat.eq_zero_or_pos n.natAbs with hzero | hne
    · exact .inl (by rw [hzero, Nat.zero_mul])
    · refine .inr ?_
      rw [scaled_mul_unitsOfOne]
      refine Nat.mul_le_mul_right _ ?_
      exact (Nat.pow_le_pow_right Nat.two_pos (by decide)).trans
        (Nat.le_mul_of_pos_left unitsOfOne hne)
  obtain ⟨bits, hread, hsign, hnearest⟩ := hstod.nearest (decide (n < 0))
    (n.natAbs * 10 ^ scale) scale
    (by rw [scaled_mul_unitsOfOne]; exact Nat.mul_lt_mul_of_pos_right hfits hpos) hnormal
  rw [← numericText_eq] at hread
  rw [scaled_mul_unitsOfOne] at hnearest
  exact ⟨bits, hread, hsign, hnearest⟩

/-- From there on it is not. -/
theorem thrown_numericText {stod : Bytes → Option UInt64} (hstod : ReadsNearest stod) {n : ℤ}
    (scale : ℕ) (hover : overflowUnits ≤ n.natAbs * unitsOfOne) :
    stod (numericText n scale) = none := by
  rw [numericText_eq]
  refine hstod.overflow _ _ _ ?_
  rw [scaled_mul_unitsOfOne]
  exact Nat.mul_le_mul_right _ hover

/-- **The integers of a `NUMERIC` column that keep their value.** -/
theorem exactResult_numeric_iff {stod : Bytes → Option UInt64} (hstod : ReadsNearest stod)
    (n : ℤ) (scale : ℕ) :
    ExactResult stod (.numeric n scale) ↔ (PgIntegerText.numeric n scale).KeepsValue := by
  rcases Nat.lt_or_ge (n.natAbs * unitsOfOne) overflowUnits with hfits | hover
  · obtain ⟨bits, hread, hsign, hnearest⟩ := exists_read_numericText hstod scale hfits
    have hresult : ExactResult stod (.numeric n scale) ↔
        units bits = n.natAbs * unitsOfOne := by
      rw [← floatIsInteger_iff hnearest.1 hsign]
      unfold ExactResult
      simp only [PgIntegerText.oid, PgIntegerText.text, PgIntegerText.value,
        pgValue_numeric_of_read hread, reduceCtorEq, or_false]
      rfl
    have hinRange : ¬ 2 ^ 1024 - 2 ^ 970 ≤ n.natAbs := by
      rw [← overflow_iff]
      exact Nat.not_le.mpr hfits
    rw [hresult]
    constructor
    · intro hunits
      exact .inl ((exists_units_eq_integer_iff hfits).mp ⟨bits, hnearest.1, hunits⟩)
    · rintro (hform | hlarge)
      · obtain ⟨b, hfinite, hunits⟩ := (exists_units_eq_integer_iff hfits).mpr hform
        exact hnearest.units_eq (Nat.pow_pos (by decide)) hfinite hunits
      · exact absurd hlarge hinRange
  · have hthrown := thrown_numericText hstod scale hover
    constructor
    · intro _
      exact .inr (overflow_iff.mp hover)
    · intro _
      exact .inr (pgValue_numeric_of_thrown hthrown)

/-- **When an integer keeps its value**: in an integer column always; in a `NUMERIC` column
exactly when it is a binary64 number or too large for one. -/
theorem exactResult_iff {stod : Bytes → Option UInt64} (hstod : ReadsNearest stod)
    (x : PgIntegerText) : ExactResult stod x ↔ x.KeepsValue := by
  cases x with
  | column type n inRange =>
    refine iff_of_true (.inl ?_) trivial
    show Denotes (pgValue stod type.typeOid (decimalInt n)) n
    rw [pgValue_column inRange]
    exact rfl
  | numeric n scale => exact exactResult_numeric_iff hstod n scale

/-- An integer of fifty-four binary digits, the last of them zero, with two decimals. -/
theorem exactResult_evenInteger :
    ReadsNearest readDouble ∧ ExactResult readDouble (.numeric (-9007199254740994) 2) :=
  ⟨readsNearest_readDouble, (exactResult_iff readsNearest_readDouble _).mpr
    (.inl ⟨4503599627370497, 1, by decide, by decide⟩)⟩

/-- `2 ^ 53 + 1`. -/
def oddInteger : PgIntegerText := .numeric 9007199254740993 0

/-- **It comes back as `2 ^ 53`.** -/
theorem oddInteger_rounded : ¬ ExactResult readDouble oddInteger := by
  have hread : readDouble oddInteger.text = some 0x4340000000000000 := by decide +kernel
  have hvalue : pgValue readDouble oddInteger.oid oddInteger.text =
      .float 0x4340000000000000 := pgValue_numeric_of_read hread
  unfold ExactResult
  rw [hvalue]
  rintro (hdenotes | htext)
  · exact absurd hdenotes.2 (by decide +kernel)
  · cases htext

end Sql
end HttpDataDiod
