import Mathlib.Algebra.Group.Nat.Defs
import Mathlib.Data.Nat.Dist

/-!
# Binary64 numbers

The finite numbers of the format are the multiples `significand * 2 ^ place` of the
smallest positive one, `2 ^ -1074`, with a significand below `2 ^ 53` that has its upper
bit set unless the place is the lowest.  So a number is compared with a fraction in
natural numbers: as many units against `a / d` units.

* `units`, `Canonical`: the magnitude of a number, and the form it has.
* `pack`: the number of a form; `eq_of_units_eq`: a number is its sign and its magnitude.
* `Canonical.gap_le`: how far apart two numbers are.
* `roundHalfEven`: the nearest multiple.
* `Nearest`, `nearestBinary64`, `nearest_nearestBinary64`: the number nearest to a fraction.
* `exists_units_eq_integer_iff`: the integers that are numbers of the format.
-/

namespace Binary64

/-! ## The fields -/

def isNegative (b : UInt64) : Bool := 2 ^ 63 ≤ b.toNat

def biasedExponent (b : UInt64) : ℕ := b.toNat / 2 ^ 52 % 2 ^ 11

def fraction (b : UInt64) : ℕ := b.toNat % 2 ^ 52

/-- Neither an infinity nor a NaN. -/
def isFinite (b : UInt64) : Bool := biasedExponent b < 2047

def significand (b : UInt64) : ℕ :=
  if biasedExponent b = 0 then fraction b else 2 ^ 52 + fraction b

/-- The place of the last digit of the significand, from the lowest place on. -/
def place (b : UInt64) : ℕ := biasedExponent b - 1

/-- The magnitude of a finite number, in units of `2 ^ -1074`. -/
def units (b : UInt64) : ℕ := significand b * 2 ^ place b

/-- The place of `1`. -/
def placeOfOne : ℕ := 1074

/-- The place of the largest numbers. -/
def highestPlace : ℕ := 2045

/-- One, in these units. -/
def unitsOfOne : ℕ := 2 ^ placeOfOne

/-- From here on a fraction is as near to `2 ^ 1024` as to the largest number. -/
def overflowUnits : ℕ := (2 ^ 54 - 1) * 2 ^ (highestPlace - 1)

/-- The form of the significand and the place. -/
structure Canonical (significand place : ℕ) : Prop where
  lt : significand < 2 ^ 53
  upper : 0 < place → 2 ^ 52 ≤ significand

theorem canonical (b : UInt64) : Canonical (significand b) (place b) := by
  have hfraction : fraction b < 2 ^ 52 := Nat.mod_lt _ (by decide)
  unfold significand place
  constructor
  · split <;> omega
  · intro hplace
    rw [if_neg (by omega)]
    omega

theorem place_le {b : UInt64} (h : isFinite b = true) : place b ≤ highestPlace := by
  have hbiased : biasedExponent b < 2047 := of_decide_eq_true h
  unfold place highestPlace
  omega

/-- The number with a sign, a significand and a place. -/
def pack (negative : Bool) (s p : ℕ) : UInt64 :=
  UInt64.ofNat ((if negative then 2 ^ 63 else 0) +
    if s < 2 ^ 52 then s else (p + 1) * 2 ^ 52 + (s - 2 ^ 52))

section Pack

variable {negative : Bool} {s p : ℕ}

theorem toNat_pack (hs : Canonical s p) (hp : p ≤ highestPlace) :
    (pack negative s p).toNat = (if negative then 2 ^ 63 else 0) +
      if s < 2 ^ 52 then s else (p + 1) * 2 ^ 52 + (s - 2 ^ 52) := by
  have hlt := hs.lt
  unfold highestPlace at hp
  unfold pack
  rw [UInt64.toNat_ofNat']
  refine Nat.mod_eq_of_lt ?_
  split <;> split <;> omega

theorem fields_pack (hs : Canonical s p) (hp : p ≤ highestPlace) :
    isNegative (pack negative s p) = negative ∧
      biasedExponent (pack negative s p) = (if s < 2 ^ 52 then 0 else p + 1) ∧
      fraction (pack negative s p) = if s < 2 ^ 52 then s else s - 2 ^ 52 := by
  have hlt := hs.lt
  unfold isNegative biasedExponent fraction
  rw [toNat_pack hs hp]
  unfold highestPlace at hp
  cases negative with
  | true =>
    simp only [if_true, decide_eq_true_eq]
    split <;> omega
  | false =>
    simp only [Bool.false_eq_true, if_false, decide_eq_false_iff_not]
    split <;> omega

theorem isFinite_pack (hs : Canonical s p) (hp : p ≤ highestPlace) :
    isFinite (pack negative s p) = true := by
  unfold isFinite
  rw [(fields_pack hs hp).2.1]
  unfold highestPlace at hp
  split
  · decide
  · exact decide_eq_true (by omega)

theorem units_pack (hs : Canonical s p) (hp : p ≤ highestPlace) :
    units (pack negative s p) = s * 2 ^ p := by
  obtain ⟨-, hbiased, hfraction⟩ := @fields_pack negative s p hs hp
  unfold units significand place
  rw [hbiased, hfraction]
  by_cases hsmall : s < 2 ^ 52
  · have hlowest : p = 0 := by
      have hupper := hs.upper
      omega
    rw [if_pos hsmall, if_pos hsmall, if_pos rfl, hlowest]
  · rw [if_neg hsmall, if_neg hsmall, if_neg (Nat.succ_ne_zero p), Nat.add_sub_cancel,
      Nat.add_sub_cancel' (Nat.le_of_not_lt hsmall)]

end Pack

/-! ## The distance of two numbers -/

namespace Canonical

variable {s p s' p' : ℕ}

/-- A number with a higher place is larger. -/
theorem lt_of_place_lt (hs : Canonical s p) (hs' : Canonical s' p') (h : p < p') :
    s * 2 ^ p < s' * 2 ^ p' :=
  calc s * 2 ^ p < 2 ^ 53 * 2 ^ p := Nat.mul_lt_mul_of_pos_right hs.lt (Nat.two_pow_pos p)
    _ = 2 ^ 52 * 2 ^ (p + 1) := by rw [Nat.pow_succ 2 p]; omega
    _ ≤ 2 ^ 52 * 2 ^ p' := Nat.mul_le_mul_left _ (Nat.pow_le_pow_right Nat.two_pos h)
    _ ≤ s' * 2 ^ p' := Nat.mul_le_mul_right _ (hs'.upper (by omega))

/-- Between two numbers there is at least the last place of the smaller one. -/
theorem gap_le (hs : Canonical s p) (hs' : Canonical s' p') (h : s * 2 ^ p < s' * 2 ^ p') :
    s * 2 ^ p + 2 ^ p ≤ s' * 2 ^ p' := by
  have hplace : p ≤ p' := by
    by_contra hlt
    exact Nat.lt_asymm h (hs'.lt_of_place_lt hs (Nat.lt_of_not_le hlt))
  obtain ⟨d, rfl⟩ := Nat.exists_eq_add_of_le hplace
  have hmultiple : s' * 2 ^ (p + d) = s' * 2 ^ d * 2 ^ p := by
    rw [Nat.pow_add, Nat.mul_assoc, Nat.mul_comm (2 ^ p)]
  rw [hmultiple] at h ⊢
  rw [← Nat.succ_mul]
  exact Nat.mul_le_mul_right _ (Nat.lt_of_mul_lt_mul_right h)

/-- And of the larger one, unless that is the first of its place. -/
theorem gap_le' (hs : Canonical s p) (hs' : Canonical s' p') (h : s * 2 ^ p < s' * 2 ^ p')
    (hfirst : s' ≠ 2 ^ 52) : s * 2 ^ p + 2 ^ p' ≤ s' * 2 ^ p' := by
  rcases Nat.lt_or_ge p p' with hlt | hge
  · have hupper := hs'.upper (by omega)
    have hbelow : s * 2 ^ p ≤ 2 ^ 52 * 2 ^ p' := by
      have hfirstOfPlace : Canonical (2 ^ 52) p' := ⟨by decide, fun _ => le_rfl⟩
      exact (hs.lt_of_place_lt hfirstOfPlace hlt).le
    have habove : (2 ^ 52 + 1) * 2 ^ p' ≤ s' * 2 ^ p' := Nat.mul_le_mul_right _ (by omega)
    rw [Nat.add_mul, Nat.one_mul] at habove
    omega
  · have hgap := hs.gap_le hs' h
    have hpow : 2 ^ p' ≤ 2 ^ p := Nat.pow_le_pow_right Nat.two_pos hge
    omega

theorem unique (hs : Canonical s p) (hs' : Canonical s' p') (h : s * 2 ^ p = s' * 2 ^ p') :
    s = s' ∧ p = p' := by
  rcases Nat.lt_trichotomy p p' with hlt | rfl | hgt
  · exact absurd h (hs.lt_of_place_lt hs' hlt).ne
  · exact ⟨Nat.eq_of_mul_eq_mul_right (Nat.two_pow_pos p) h, rfl⟩
  · exact absurd h (hs'.lt_of_place_lt hs hgt).ne'

end Canonical

/-- A number is its sign and its magnitude. -/
theorem eq_of_units_eq {b b' : UInt64} (hsign : isNegative b = isNegative b')
    (h : units b = units b') : b = b' := by
  obtain ⟨hs, hp⟩ := (canonical b).unique (canonical b') h
  have hlt := b.toNat_lt
  have hlt' := b'.toNat_lt
  have hsign' : 2 ^ 63 ≤ b.toNat ↔ 2 ^ 63 ≤ b'.toNat := decide_eq_decide.mp hsign
  unfold significand at hs
  unfold place at hp
  have hbiased : biasedExponent b = biasedExponent b' := by
    have hfraction : fraction b < 2 ^ 52 := Nat.mod_lt _ (by decide)
    have hfraction' : fraction b' < 2 ^ 52 := Nat.mod_lt _ (by decide)
    split at hs <;> split at hs <;> omega
  rw [hbiased] at hs
  have hfraction : fraction b = fraction b' := by
    split at hs <;> omega
  unfold biasedExponent at hbiased
  unfold fraction at hfraction
  exact UInt64.toNat_inj.mp (by omega)

/-- Every significand at every place makes a number. -/
theorem exists_units_eq (negative : Bool) {s p : ℕ} (hs : s < 2 ^ 53) (hp : p ≤ highestPlace) :
    ∃ b, isFinite b = true ∧ isNegative b = negative ∧ units b = s * 2 ^ p := by
  induction p generalizing s with
  | zero =>
    have hcanonical : Canonical s 0 := ⟨hs, fun h => absurd h (Nat.lt_irrefl 0)⟩
    exact ⟨pack negative s 0, isFinite_pack hcanonical hp, (fields_pack hcanonical hp).1,
      units_pack hcanonical hp⟩
  | succ p ih =>
    rcases Nat.lt_or_ge s (2 ^ 52) with hsmall | hlarge
    · obtain ⟨b, hfinite, hsign, hunits⟩ := @ih (s * 2) (by omega) (by omega)
      refine ⟨b, hfinite, hsign, ?_⟩
      rw [hunits, Nat.pow_succ, Nat.mul_comm (2 ^ p), Nat.mul_assoc]
    · have hcanonical : Canonical s (p + 1) := ⟨hs, fun _ => hlarge⟩
      exact ⟨pack negative s (p + 1), isFinite_pack hcanonical hp,
        (fields_pack hcanonical hp).1, units_pack hcanonical hp⟩

/-- The numbers around a number. -/
theorem exists_units_eq_succ {b : UInt64} (h : place b < highestPlace) :
    ∃ b', isFinite b' = true ∧ units b' = units b + 2 ^ place b := by
  have hnext : units b + 2 ^ place b = (significand b + 1) * 2 ^ place b := by
    rw [units, Nat.add_mul, Nat.one_mul]
  have hlt := (canonical b).lt
  rw [hnext]
  rcases Nat.lt_or_ge (significand b + 1) (2 ^ 53) with hsmall | hlast
  · obtain ⟨b', hfinite, -, hunits⟩ := exists_units_eq false hsmall h.le
    exact ⟨b', hfinite, hunits⟩
  · obtain ⟨b', hfinite, -, hunits⟩ := @exists_units_eq false (2 ^ 52) (place b + 1) (by decide) h
    refine ⟨b', hfinite, hunits.trans ?_⟩
    rw [show significand b + 1 = 2 ^ 53 by omega, Nat.pow_succ 2 (place b)]
    omega

theorem exists_units_eq_pred {b : UInt64} (h : isFinite b = true) (hpos : 0 < units b) :
    ∃ b', isFinite b' = true ∧ units b' + 2 ^ place b = units b := by
  have hlt := (canonical b).lt
  have hsignificand : 0 < significand b := Nat.pos_of_mul_pos_right hpos
  obtain ⟨b', hfinite, -, hunits⟩ :=
    @exists_units_eq false (significand b - 1) (place b) (by omega) (place_le h)
  refine ⟨b', hfinite, ?_⟩
  rw [hunits, ← Nat.succ_mul, Nat.succ_eq_add_one, Nat.sub_add_cancel hsignificand, units]

/-! ## Rounding -/

/-- `a / d`, rounded to the nearest integer, and to the even one of two that are as near. -/
def roundHalfEven (a d : ℕ) : ℕ :=
  if 2 * (a % d) < d ∨ (2 * (a % d) = d ∧ a / d % 2 = 0) then a / d else a / d + 1

/-- No multiple is nearer, nor anything beyond the multiples around. -/
theorem dist_roundHalfEven_le {a d x : ℕ} (hd : 0 < d)
    (h : x ≤ a / d * d ∨ a / d * d + d ≤ x) :
    Nat.dist (roundHalfEven a d * d) a ≤ Nat.dist x a := by
  have hsplit := Nat.div_add_mod' a d
  have hmod := Nat.mod_lt a hd
  unfold roundHalfEven Nat.dist
  split
  · omega
  · rw [Nat.add_mul, Nat.one_mul]
    omega

/-- The rounding is off by at most one half. -/
theorem two_mul_dist_roundHalfEven_le {a d : ℕ} (hd : 0 < d) :
    2 * Nat.dist (roundHalfEven a d * d) a ≤ d := by
  have hsplit := Nat.div_add_mod' a d
  have hmod := Nat.mod_lt a hd
  unfold roundHalfEven Nat.dist
  split
  · omega
  · rw [Nat.add_mul, Nat.one_mul]
    omega

/-- How far a power of two divides the number, it divides the distance; and an integer is not
rounded. -/
theorem dist_roundHalfEven_eq_zero_or_dvd {a c e : ℕ} (h : 2 ^ c ∣ a) :
    Nat.dist (roundHalfEven a (2 ^ e) * 2 ^ e) a = 0 ∨
      (c < e ∧ 2 ^ c ∣ Nat.dist (roundHalfEven a (2 ^ e) * 2 ^ e) a) := by
  have hpos := Nat.two_pow_pos e
  rcases Nat.lt_or_ge c e with hlt | hge
  · refine .inr ⟨hlt, ?_⟩
    have hmultiple : 2 ^ c ∣ roundHalfEven a (2 ^ e) * 2 ^ e :=
      Nat.dvd_mul_left_of_dvd (Nat.pow_dvd_pow 2 hlt.le) _
    exact Nat.dvd_add (Nat.dvd_sub hmultiple h) (Nat.dvd_sub h hmultiple)
  · obtain ⟨m, rfl⟩ := (Nat.pow_dvd_pow 2 hge).trans h
    refine .inl ?_
    unfold roundHalfEven
    rw [Nat.mul_mod_right, if_pos (.inl hpos), Nat.mul_div_cancel_left _ hpos, Nat.mul_comm,
      Nat.dist_self]

/-- A finite number, and none is nearer to `a / d` units. -/
def Nearest (b : UInt64) (a d : ℕ) : Prop :=
  isFinite b = true ∧
    ∀ b', isFinite b' = true → Nat.dist (units b * d) a ≤ Nat.dist (units b' * d) a

/-- A number of the format is nearest to itself. -/
theorem Nearest.units_eq {b b' : UInt64} {u d : ℕ} (h : Nearest b (u * d) d) (hd : 0 < d)
    (hfinite : isFinite b' = true) (hunits : units b' = u) : units b = u := by
  have hle := h.2 b' hfinite
  rw [hunits, Nat.dist_self] at hle
  have heq := Nat.eq_of_dist_eq_zero (Nat.le_zero.mp hle)
  exact Nat.eq_of_mul_eq_mul_right hd heq

/-- The number that `a / d` units are rounded to, unless they are too many. -/
def nearestBinary64 (negative : Bool) (a d : ℕ) : Option UInt64 :=
  if overflowUnits * d ≤ a then none
  else
    let p := Nat.log2 (a / d) - 52
    let s := roundHalfEven a (2 ^ p * d)
    some (if s = 2 ^ 53 then pack negative (2 ^ 52) (p + 1) else pack negative s p)

/-- The digits of a number, cut behind the fifty-third. -/
theorem canonical_log2 (t : ℕ) : Canonical (t / 2 ^ (Nat.log2 t - 52)) (Nat.log2 t - 52) := by
  have hpos := Nat.two_pow_pos (Nat.log2 t - 52)
  constructor
  · rw [Nat.div_lt_iff_lt_mul hpos, ← Nat.pow_add]
    exact Nat.lt_log2_self.trans_le (Nat.pow_le_pow_right Nat.two_pos (by omega))
  · intro hplace
    have hne : t ≠ 0 := by
      rintro rfl
      exact absurd hplace (by decide)
    rw [Nat.le_div_iff_mul_le hpos, ← Nat.pow_add,
      show 52 + (Nat.log2 t - 52) = Nat.log2 t by omega]
    exact Nat.log2_self_le hne

section NearestBinary64

variable {negative : Bool} {a d : ℕ}

theorem log2_le_of_lt_overflow (hd : 0 < d) (h : a < overflowUnits * d) :
    Nat.log2 (a / d) - 52 ≤ highestPlace := by
  rcases Nat.eq_zero_or_pos (a / d) with hzero | hpos
  · rw [hzero, Nat.log2_zero]
    exact Nat.zero_le _
  · have hover : overflowUnits ≤ 2 ^ (54 + (highestPlace - 1)) := by
      rw [overflowUnits, Nat.pow_add]
      generalize 2 ^ (highestPlace - 1) = g
      omega
    have hlt : a / d < 2 ^ (54 + (highestPlace - 1)) :=
      ((Nat.div_lt_iff_lt_mul hd).mpr h).trans_le hover
    have hlog := (Nat.log2_lt hpos.ne').mpr hlt
    unfold highestPlace at hlog ⊢
    omega

/-- Rounded up at the highest place, a fraction would be too large. -/
theorem overflow_of_round_up (hd : 0 < d)
    (h : roundHalfEven a (2 ^ highestPlace * d) = 2 ^ 53) : overflowUnits * d ≤ a := by
  have hpos : 0 < 2 ^ highestPlace * d := Nat.mul_pos (Nat.two_pow_pos _) hd
  have hnear := @two_mul_dist_roundHalfEven_le a (2 ^ highestPlace * d) hpos
  have hdouble : 2 ^ highestPlace * d = 2 * (2 ^ (highestPlace - 1) * d) := by
    conv_lhs => rw [show highestPlace = highestPlace - 1 + 1 from rfl]
    rw [Nat.pow_succ, Nat.mul_comm _ 2, Nat.mul_assoc]
  rw [h, hdouble] at hnear
  unfold overflowUnits
  rw [Nat.mul_assoc]
  generalize 2 ^ (highestPlace - 1) * d = g at hnear ⊢
  unfold Nat.dist at hnear
  omega

theorem nearest_of_units_eq {b : UInt64} {p : ℕ} (hd : 0 < d)
    (hcanonical : Canonical (a / (2 ^ p * d)) p) (hfinite : isFinite b = true)
    (hunits : units b = roundHalfEven a (2 ^ p * d) * 2 ^ p) : Nearest b a d := by
  have hpos : 0 < 2 ^ p * d := Nat.mul_pos (Nat.two_pow_pos p) hd
  refine ⟨hfinite, fun b' hfinite' => ?_⟩
  rw [hunits, Nat.mul_assoc]
  refine dist_roundHalfEven_le hpos ?_
  rcases Nat.lt_or_ge (a / (2 ^ p * d) * 2 ^ p) (units b') with habove | hbelow
  · have hgap := hcanonical.gap_le (canonical b') habove
    refine .inr ?_
    rw [← Nat.mul_assoc, ← Nat.add_mul]
    exact Nat.mul_le_mul_right d hgap
  · refine .inl ?_
    rw [← Nat.mul_assoc]
    exact Nat.mul_le_mul_right d hbelow

/-- **Rounding gives the nearest number.** -/
theorem nearest_nearestBinary64 (hd : 0 < d) (h : a < overflowUnits * d) :
    ∃ b, nearestBinary64 negative a d = some b ∧ isNegative b = negative ∧ Nearest b a d := by
  unfold nearestBinary64
  rw [if_neg (Nat.not_le.mpr h)]
  have hplace := log2_le_of_lt_overflow hd h
  have hcanonical := canonical_log2 (a / d)
  simp only
  generalize Nat.log2 (a / d) - 52 = p at hplace hcanonical ⊢
  rw [Nat.div_div_eq_div_mul, Nat.mul_comm d] at hcanonical
  refine ⟨_, rfl, ?_⟩
  by_cases hcarry : roundHalfEven a (2 ^ p * d) = 2 ^ 53
  · have hlower : p + 1 ≤ highestPlace := by
      by_contra hhighest
      obtain rfl : p = highestPlace := by omega
      exact Nat.not_lt.mpr (overflow_of_round_up hd hcarry) h
    have hfirst : Canonical (2 ^ 52) (p + 1) := ⟨by decide, fun _ => le_rfl⟩
    rw [if_pos hcarry]
    refine ⟨(fields_pack hfirst hlower).1, ?_⟩
    refine nearest_of_units_eq hd hcanonical (isFinite_pack hfirst hlower) ?_
    rw [units_pack hfirst hlower, hcarry, Nat.pow_succ 2 p]
    omega
  · have hround : Canonical (roundHalfEven a (2 ^ p * d)) p := by
      obtain ⟨hlt, hupper⟩ := hcanonical
      unfold roundHalfEven at hcarry ⊢
      constructor
      · split <;> split at hcarry <;> omega
      · intro hpositive
        have hle := hupper hpositive
        split <;> omega
    rw [if_neg hcarry]
    exact ⟨(fields_pack hround hplace).1,
      nearest_of_units_eq hd hcanonical (isFinite_pack hround hplace)
        (units_pack hround hplace)⟩

end NearestBinary64

/-! ## Integers -/

theorem overflow_iff {n : ℕ} : overflowUnits ≤ n * unitsOfOne ↔ 2 ^ 1024 - 2 ^ 970 ≤ n := by
  have heq : overflowUnits = (2 ^ 1024 - 2 ^ 970) * unitsOfOne := by decide +kernel
  rw [heq]
  exact Nat.mul_le_mul_right_iff (Nat.two_pow_pos _)

/-- **The integers that are numbers of the format**: those of at most fifty-three binary digits,
and their products with powers of two, as far as they do not overflow. -/
theorem exists_units_eq_integer_iff {n : ℕ} (hn : n * unitsOfOne < overflowUnits) :
    (∃ b, isFinite b = true ∧ units b = n * unitsOfOne) ↔
      ∃ m e, m < 2 ^ 53 ∧ n = m * 2 ^ e := by
  constructor
  · rintro ⟨b, -, hunits⟩
    have hlt := (canonical b).lt
    unfold units unitsOfOne at hunits
    rcases Nat.le_total placeOfOne (place b) with hhigh | hlow
    · refine ⟨significand b, place b - placeOfOne, hlt, ?_⟩
      refine Nat.eq_of_mul_eq_mul_right (Nat.two_pow_pos placeOfOne) ?_
      rw [Nat.mul_assoc, ← Nat.pow_add, Nat.sub_add_cancel hhigh, hunits]
    · refine ⟨n, 0, ?_, (Nat.mul_one n).symm⟩
      have hle : n * 2 ^ place b ≤ significand b * 2 ^ place b := by
        rw [hunits]
        exact Nat.mul_le_mul_left n (Nat.pow_le_pow_right Nat.two_pos hlow)
      exact (Nat.le_of_mul_le_mul_right hle (Nat.two_pow_pos _)).trans_lt hlt
  · rintro ⟨m, e, hm, rfl⟩
    have hsplit : m * 2 ^ e * unitsOfOne = m * 2 ^ (e + placeOfOne) := by
      rw [unitsOfOne, Nat.mul_assoc, ← Nat.pow_add]
    rw [hsplit] at hn ⊢
    rcases Nat.le_total (e + placeOfOne) highestPlace with hlow | hhigh
    · obtain ⟨b, hfinite, -, hunits⟩ := exists_units_eq false hm hlow
      exact ⟨b, hfinite, hunits⟩
    · -- The digits above the highest place are taken into the significand.
      have hwhole : m * 2 ^ (e + placeOfOne - highestPlace) * 2 ^ highestPlace =
          m * 2 ^ (e + placeOfOne) := by
        rw [Nat.mul_assoc, ← Nat.pow_add, Nat.sub_add_cancel hhigh]
      have hshift : m * 2 ^ (e + placeOfOne - highestPlace) < 2 ^ 53 := by
        by_contra hlarge
        have hle := Nat.mul_le_mul_right (2 ^ highestPlace) (Nat.not_lt.mp hlarge)
        rw [hwhole] at hle
        have hover : overflowUnits ≤ 2 ^ 53 * 2 ^ highestPlace := by decide +kernel
        omega
      obtain ⟨b, hfinite, -, hunits⟩ := exists_units_eq false hshift le_rfl
      exact ⟨b, hfinite, hunits.trans hwhole⟩

end Binary64
