import HttpDataDiod.Lib.Binary64
import HttpDataDiod.Lib.Decimal

/-!
# Numbers with a fixed number of decimals

A text of a sign, digits, a point and so many digits behind it, and the binary64 number
that it is read as.

* `fixedDecimal`, `parseFixed`: writing and reading, with `parseFixed_fixedDecimal`.
* `ReadsNearest`: a reader that rounds to nearest, as `std::stod` does.
* `readDouble`, `readsNearest_readDouble`: there is one.
* `printFixed`, `read_printFixed_eq_iff`: when a number survives being written with so many
  decimals.
-/

namespace ByteText

open Binary64

/-- `k / 10 ^ scale` with `scale` decimals. -/
def fixedDecimal (negative : Bool) (k scale : ℕ) : Bytes :=
  (if negative then [45] else []) ++ decimal (k / 10 ^ scale) ++
    if scale = 0 then [] else 46 :: zeroPadded scale (k % 10 ^ scale : ℕ)

/-- The sign in front of the digits. -/
def parseSign : Bytes → Bool × Bytes
  | 45 :: t => (true, t)
  | t => (false, t)

/-- The digits, and the number of those behind the point. -/
def parseDigits (s : Bytes) : Option (ℕ × ℕ) :=
  match s.dropWhile isDigit with
  | [] => some (natOfDigits s, 0)
  | 46 :: decimals =>
    if decimals.all isDigit then
      some (natOfDigits (s.takeWhile isDigit ++ decimals), decimals.length)
    else none
  | _ => none

def parseFixed (s : Bytes) : Option (Bool × ℕ × ℕ) :=
  (parseDigits (parseSign s).2).map fun digits => ((parseSign s).1, digits)

/-! ## Reading what was written -/

theorem natOfDigits_append (s t : Bytes) :
    natOfDigits (s ++ t) = natOfDigits s * 10 ^ t.length + natOfDigits t := by
  have hfold : ∀ acc, t.foldl (fun acc d => 10 * acc + (d.toNat - 48)) acc =
      acc * 10 ^ t.length + t.foldl (fun acc d => 10 * acc + (d.toNat - 48)) 0 := by
    induction t with
    | nil => exact fun acc => (Nat.mul_one acc).symm
    | cons d t ih =>
      intro acc
      rw [List.foldl_cons, List.foldl_cons, ih, ih (10 * 0 + _), List.length_cons, Nat.pow_succ,
        Nat.add_mul, Nat.mul_zero, Nat.zero_add, Nat.mul_comm 10 acc, Nat.mul_assoc acc,
        Nat.mul_comm 10, Nat.add_assoc]
  rw [natOfDigits, List.foldl_append, hfold]
  rfl

theorem length_zeroPadded {width n : ℕ} (hwidth : 0 < width) (h : n < 10 ^ width) :
    (zeroPadded width n).length = width := by
  have hlength : (decimal n).length ≤ width := by
    rw [decimal, List.length_map]
    exact (Nat.length_toDigits_le_iff (by decide) hwidth).mpr h
  have hsign : ¬ (n : ℤ) < 0 := by omega
  simp only [zeroPadded, if_neg hsign, List.nil_append, Int.natAbs_natCast, List.length_append,
    List.length_replicate, List.length_nil]
  omega

theorem all_isDigit_zeroPadded (width n : ℕ) : (zeroPadded width n).all isDigit = true := by
  have hsign : ¬ (n : ℤ) < 0 := by omega
  simp only [zeroPadded, if_neg hsign, List.nil_append, Int.natAbs_natCast, List.all_append,
    Bool.and_eq_true, List.all_eq_true]
  exact ⟨fun d hd => by rw [List.eq_of_mem_replicate hd]; decide,
    fun d hd => isDigit_of_mem_decimal hd⟩

theorem natOfDigits_zeroPadded (width n : ℕ) : natOfDigits (zeroPadded width n) = n := by
  have hsign : ¬ (n : ℤ) < 0 := by omega
  simp only [zeroPadded, if_neg hsign, List.nil_append, Int.natAbs_natCast,
    natOfDigits_replicate_zero_append, natOfDigits_decimal]

theorem dropWhile_isDigit_decimal_append (n : ℕ) {r : Bytes}
    (hr : ∀ d ∈ r.head?, isDigit d = false) :
    (decimal n ++ r).dropWhile isDigit = r := by
  rw [List.dropWhile_append_of_pos fun d hd => isDigit_of_mem_decimal hd]
  cases r with
  | nil => rfl
  | cons d r => simp [hr d (by simp)]

theorem parseSign_of_digits {negative : Bool} {n : ℕ} {r : Bytes} :
    parseSign ((if negative then [45] else []) ++ decimal n ++ r) =
      (negative, decimal n ++ r) := by
  cases negative with
  | true => rfl
  | false =>
    obtain ⟨d, s, hs⟩ : ∃ d s, decimal n = d :: s :=
      List.exists_cons_of_ne_nil (decimal_ne_nil _)
    have hd : isDigit d = true := isDigit_of_mem_decimal (hs ▸ List.mem_cons_self)
    simp only [Bool.false_eq_true, if_false, List.nil_append, hs, List.cons_append]
    unfold parseSign
    split
    · next h => exact absurd (List.cons.inj h).1 (not_blank_or_sign_of_isDigit hd).2.1
    · rfl

theorem parseFixed_fixedDecimal (negative : Bool) (k scale : ℕ) :
    parseFixed (fixedDecimal negative k scale) = some (negative, k, scale) := by
  unfold parseFixed fixedDecimal
  rw [parseSign_of_digits]
  simp only
  by_cases hscale : scale = 0
  · rw [if_pos hscale, hscale]
    unfold parseDigits
    rw [dropWhile_isDigit_decimal_append _ (by simp), List.append_nil, natOfDigits_decimal,
      Nat.pow_zero, Nat.div_one]
    rfl
  · have hlength := length_zeroPadded (Nat.pos_of_ne_zero hscale)
      (show k % 10 ^ scale < 10 ^ scale from Nat.mod_lt k (Nat.pow_pos (by decide)))
    have hpoint : ∀ d ∈ (46 :: zeroPadded scale (k % 10 ^ scale : ℕ)).head?,
        isDigit d = false := by
      intro d hd
      obtain rfl : 46 = d := by simpa using hd
      decide
    rw [if_neg hscale]
    unfold parseDigits
    rw [dropWhile_isDigit_decimal_append _ hpoint, takeWhile_isDigit_decimal_append _ hpoint]
    simp only [all_isDigit_zeroPadded, if_true, Option.map_some]
    rw [natOfDigits_append, natOfDigits_decimal, natOfDigits_zeroPadded, hlength,
      Nat.div_add_mod']

/-! ## Readers -/

/-- A reader that rounds to nearest, keeps the sign, and gives nothing for a number that is too
large.  Of the numbers between zero and the smallest normal one nothing is said. -/
structure ReadsNearest (read : Bytes → Option UInt64) : Prop where
  nearest : ∀ negative k scale, k * unitsOfOne < overflowUnits * 10 ^ scale →
    k = 0 ∨ 2 ^ 52 * 10 ^ scale ≤ k * unitsOfOne →
    ∃ b, read (fixedDecimal negative k scale) = some b ∧ isNegative b = negative ∧
      Nearest b (k * unitsOfOne) (10 ^ scale)
  overflow : ∀ negative k scale, overflowUnits * 10 ^ scale ≤ k * unitsOfOne →
    read (fixedDecimal negative k scale) = none

/-- Reading, and rounding half to even. -/
def readDouble (s : Bytes) : Option UInt64 :=
  (parseFixed s).bind fun (negative, k, scale) =>
    nearestBinary64 negative (k * unitsOfOne) (10 ^ scale)

theorem readDouble_fixedDecimal (negative : Bool) (k scale : ℕ) :
    readDouble (fixedDecimal negative k scale) =
      nearestBinary64 negative (k * unitsOfOne) (10 ^ scale) := by
  rw [readDouble, parseFixed_fixedDecimal, Option.bind_some]

theorem readsNearest_readDouble : ReadsNearest readDouble where
  nearest := by
    intro negative k scale hlt _
    rw [readDouble_fixedDecimal]
    exact nearest_nearestBinary64 (Nat.pow_pos (by decide)) hlt
  overflow := by
    intro negative k scale hover
    rw [readDouble_fixedDecimal, nearestBinary64, if_pos hover]

/-! ## Writing a number and reading it back -/

/-- The number, in units of the last decimal, rounded half to even. -/
def decimalsOf (b : UInt64) (scale : ℕ) : ℕ :=
  roundHalfEven (units b * 10 ^ scale) unitsOfOne

/-- `printf` of a finite number with so many decimals. -/
def printFixed (b : UInt64) (scale : ℕ) : Bytes :=
  fixedDecimal (isNegative b) (decimalsOf b scale) scale

/-- By how much the decimals miss the number, in units of `10 ^ -scale`. -/
def decimalsError (b : UInt64) (scale : ℕ) : ℕ :=
  Nat.dist (decimalsOf b scale * unitsOfOne) (units b * 10 ^ scale)

section ReadBack

variable {b : UInt64} {scale : ℕ}

theorem ten_pow_eq (scale : ℕ) : 10 ^ scale = 2 ^ scale * 5 ^ scale := by
  rw [← Nat.mul_pow]

/-- The error is a multiple of the last place. -/
theorem decimalsError_eq_zero_or_dvd (b : UInt64) (scale : ℕ) :
    decimalsError b scale = 0 ∨
      (place b + scale < placeOfOne ∧ 2 ^ (place b + scale) ∣ decimalsError b scale) := by
  refine dist_roundHalfEven_eq_zero_or_dvd ⟨significand b * 5 ^ scale, ?_⟩
  rw [units, ten_pow_eq, Nat.pow_add, Nat.mul_assoc, Nat.mul_assoc,
    Nat.mul_left_comm (significand b), Nat.mul_left_comm (significand b)]

/-- It is not half the place. -/
theorem two_mul_decimalsError_ne (b : UInt64) (scale : ℕ) :
    2 * decimalsError b scale ≠ 2 ^ place b * 10 ^ scale := by
  intro heq
  rcases decimalsError_eq_zero_or_dvd b scale with hzero | ⟨-, m, hm⟩
  · rw [hzero, Nat.mul_zero] at heq
    exact absurd heq (Nat.mul_pos (Nat.two_pow_pos _) (Nat.pow_pos (by decide))).ne
  · rw [hm, Nat.mul_left_comm, Nat.pow_add, Nat.mul_assoc, ten_pow_eq] at heq
    have hodd : 2 * m = 5 ^ scale :=
      Nat.eq_of_mul_eq_mul_left (Nat.two_pow_pos scale)
        (Nat.eq_of_mul_eq_mul_left (Nat.two_pow_pos (place b)) heq)
    have hmod : 5 ^ scale % 2 = 1 := by
      rw [Nat.pow_mod]
      simp
    omega

/-- The first number of a place is written without an error, or is missed by more than its
place. -/
theorem decimalsError_of_first (hscale : 10 ^ scale ≤ 2 ^ 53) (hfirst : significand b = 2 ^ 52)
    (h : 2 * decimalsError b scale < 2 ^ place b * 10 ^ scale) : decimalsError b scale = 0 := by
  have hdvd : decimalsError b scale = 0 ∨
      (52 + place b + scale < placeOfOne ∧
        2 ^ (52 + place b + scale) ∣ decimalsError b scale) := by
    refine dist_roundHalfEven_eq_zero_or_dvd ⟨5 ^ scale, ?_⟩
    rw [units, hfirst, ten_pow_eq, Nat.pow_add, Nat.pow_add, Nat.mul_assoc, Nat.mul_assoc,
      Nat.mul_assoc]
  rcases hdvd with hzero | ⟨-, hmultiple⟩
  · exact hzero
  · by_contra hne
    have hle := Nat.le_of_dvd (Nat.pos_of_ne_zero hne) hmultiple
    have hfive : 5 ^ scale ≤ 2 ^ 53 := (Nat.pow_le_pow_left (by decide) scale).trans hscale
    have hplace : 2 ^ place b * 10 ^ scale ≤ 2 * 2 ^ (52 + place b + scale) :=
      calc 2 ^ place b * 10 ^ scale
          = 2 ^ (place b + scale) * 5 ^ scale := by
            rw [ten_pow_eq, Nat.pow_add, Nat.mul_assoc]
        _ ≤ 2 ^ (place b + scale) * 2 ^ 53 := Nat.mul_le_mul_left _ hfive
        _ = 2 * 2 ^ (52 + place b + scale) := by
            rw [Nat.add_assoc 52, Nat.pow_add 2 52]
            omega
    omega

theorem units_le (b : UInt64) (h : isFinite b = true) :
    units b ≤ (2 ^ 53 - 1) * 2 ^ highestPlace := by
  have hlt := (canonical b).lt
  exact Nat.mul_le_mul (by omega) (Nat.pow_le_pow_right Nat.two_pos (place_le h))

/-- The decimals of a finite number are no overflow. -/
theorem decimals_lt_overflow (h : isFinite b = true) (scale : ℕ) :
    decimalsOf b scale * unitsOfOne < overflowUnits * 10 ^ scale := by
  have hpos : 0 < 10 ^ scale := Nat.pow_pos (by decide)
  have hnear := @two_mul_dist_roundHalfEven_le (units b * 10 ^ scale) unitsOfOne
    (Nat.two_pow_pos _)
  have hunits := Nat.mul_le_mul_right (10 ^ scale) (units_le b h)
  have hone : unitsOfOne ≤ 2 ^ (highestPlace - 1) * 10 ^ scale :=
    (Nat.pow_le_pow_right Nat.two_pos (by decide)).trans (Nat.le_mul_of_pos_right _ hpos)
  have hdouble : 2 ^ highestPlace * 10 ^ scale = 2 * (2 ^ (highestPlace - 1) * 10 ^ scale) := by
    conv_lhs => rw [show highestPlace = highestPlace - 1 + 1 from rfl]
    rw [Nat.pow_succ, Nat.mul_comm _ 2, Nat.mul_assoc]
  have hpow : 0 < 2 ^ (highestPlace - 1) * 10 ^ scale :=
    Nat.mul_pos (Nat.two_pow_pos _) hpos
  unfold decimalsOf overflowUnits
  unfold Nat.dist at hnear
  rw [Nat.mul_assoc, hdouble] at hunits
  rw [Nat.mul_assoc]
  generalize 2 ^ (highestPlace - 1) * 10 ^ scale = g at hone hunits hpow ⊢
  generalize roundHalfEven (units b * 10 ^ scale) unitsOfOne * unitsOfOne = r at hnear ⊢
  omega

/-- What is read back is nearest to the decimals. -/
theorem read_printFixed {read : Bytes → Option UInt64} (hread : ReadsNearest read)
    (h : isFinite b = true) (hscale : 10 ^ scale ≤ 2 ^ 53) :
    ∃ b', read (printFixed b scale) = some b' ∧ isNegative b' = isNegative b ∧
      Nearest b' (decimalsOf b scale * unitsOfOne) (10 ^ scale) := by
  refine hread.nearest (isNegative b) _ scale (decimals_lt_overflow h scale) ?_
  rcases Nat.eq_zero_or_pos (decimalsOf b scale) with hzero | hpos
  · exact .inl hzero
  · refine .inr ?_
    calc 2 ^ 52 * 10 ^ scale ≤ 2 ^ 52 * 2 ^ 53 := Nat.mul_le_mul_left _ hscale
      _ = 2 ^ 105 := (Nat.pow_add 2 52 53).symm
      _ ≤ unitsOfOne := Nat.pow_le_pow_right Nat.two_pos (by decide)
      _ ≤ decimalsOf b scale * unitsOfOne := Nat.le_mul_of_pos_left _ hpos

/-- The decimals read back as the number only if they miss it by less than half its place. -/
theorem decimalsError_lt_of_nearest (h : isFinite b = true)
    (hnearest : Nearest b (decimalsOf b scale * unitsOfOne) (10 ^ scale)) :
    2 * decimalsError b scale < 2 ^ place b * 10 ^ scale := by
  have hpos : 0 < 2 ^ place b * 10 ^ scale :=
    Nat.mul_pos (Nat.two_pow_pos _) (Nat.pow_pos (by decide))
  rcases decimalsError_eq_zero_or_dvd b scale with hzero | ⟨hplace, -⟩
  · rw [hzero]
    exact hpos
  · refine lt_of_le_of_ne ?_ (two_mul_decimalsError_ne b scale)
    have hlow : place b < highestPlace := by
      unfold placeOfOne at hplace
      unfold highestPlace
      omega
    rcases Nat.le_total (units b * 10 ^ scale) (decimalsOf b scale * unitsOfOne) with hup | hdown
    · -- The decimals are above the number, and not nearer to the next one.
      obtain ⟨b', hfinite', hunits'⟩ := exists_units_eq_succ hlow
      have hle := hnearest.2 b' hfinite'
      rw [hunits', Nat.add_mul] at hle
      unfold decimalsError
      unfold Nat.dist at hle ⊢
      omega
    · rcases Nat.eq_zero_or_pos (units b) with hzero | hpositive
      · unfold decimalsError Nat.dist
        rw [hzero, Nat.zero_mul] at hdown ⊢
        omega
      · obtain ⟨b', hfinite', hunits'⟩ := exists_units_eq_pred h hpositive
        have hle := hnearest.2 b' hfinite'
        unfold decimalsError
        rw [← hunits', Nat.add_mul] at hle hdown ⊢
        unfold Nat.dist at hle ⊢
        omega

/-- **When the decimals read back as the number**: exactly when they miss it by less than half
its last place. -/
theorem read_printFixed_eq_iff {read : Bytes → Option UInt64} (hread : ReadsNearest read)
    (h : isFinite b = true) (hscale : 10 ^ scale ≤ 2 ^ 53) :
    read (printFixed b scale) = some b ↔
      2 * decimalsError b scale < 2 ^ place b * 10 ^ scale := by
  obtain ⟨b', hb', hsign, hnearest⟩ := read_printFixed hread h hscale
  rw [hb', Option.some.injEq]
  constructor
  · rintro rfl
    exact decimalsError_lt_of_nearest h hnearest
  · intro hsmall
    refine eq_of_units_eq hsign ?_
    have hpos : 0 < 10 ^ scale := Nat.pow_pos (by decide)
    have hle := hnearest.2 b h
    rcases Nat.lt_trichotomy (units b') (units b) with hlt | heq | hgt
    · exfalso
      by_cases hfirst : significand b = 2 ^ 52
      · have hzero := decimalsError_of_first hscale hfirst hsmall
        have hunits := Nat.mul_lt_mul_of_pos_right hlt hpos
        unfold decimalsError at hzero
        unfold Nat.dist at hle hzero
        omega
      · have hgap := (canonical b').gap_le' (canonical b) hlt hfirst
        have hunits := Nat.mul_le_mul_right (10 ^ scale) hgap
        rw [Nat.add_mul] at hunits
        unfold decimalsError at hsmall
        unfold units at hle hsmall
        unfold Nat.dist at hle hsmall
        omega
    · exact heq
    · exfalso
      have hgap := (canonical b).gap_le (canonical b') hgt
      have hunits := Nat.mul_le_mul_right (10 ^ scale) hgap
      rw [Nat.add_mul] at hunits
      unfold decimalsError at hsmall
      unfold units at hle hsmall
      unfold Nat.dist at hle hsmall
      omega

end ReadBack

end ByteText
