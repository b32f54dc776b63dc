import HttpDataDiod.Lib.ByteText
import Mathlib.Algebra.Group.Int.Defs

/-!
# Decimal numerals of machine integers

Writing an integer in decimal, as `std::format` does, and reading one back, as
`std::stoi` does: leading blanks and a sign are allowed, the longest run of
digits counts, whatever follows is ignored, and a value outside the 32-bit range
is an error.

* `zeroPadded`: a number filled up with zeros.
* `stoi_decimalInt_append`: reading what was written, whatever non-digit follows.
* `decimalInt_injective`, `zeroPadded_append_inj`: different numbers are written differently.
-/

namespace ByteText

/-- The decimal digits of a natural number. -/
def decimal (n : ℕ) : Bytes := (Nat.toDigits 10 n).map fun c => UInt8.ofNat c.toNat

/-- `std::format("{}", n)`. -/
def decimalInt (n : ℤ) : Bytes :=
  if n < 0 then 45 :: decimal n.natAbs else decimal n.natAbs

/-- `std::format` with a width, as in `{:04}`: zeros go between the sign and the digits. -/
def zeroPadded (width : ℕ) (n : ℤ) : Bytes :=
  let sign : Bytes := if n < 0 then [45] else []
  let digits := decimal n.natAbs
  sign ++ List.replicate (width - sign.length - digits.length) 48 ++ digits

/-- The value of a run of digits. -/
def natOfDigits (s : Bytes) : ℕ := s.foldl (fun acc d => 10 * acc + (d.toNat - 48)) 0

/-- The range of a 32-bit `int`. -/
def InInt32 (n : ℤ) : Prop := -2 ^ 31 ≤ n ∧ n < 2 ^ 31

instance (n : ℤ) : Decidable (InInt32 n) :=
  inferInstanceAs (Decidable (-2 ^ 31 ≤ n ∧ n < 2 ^ 31))

/-- `stoi` after the sign. -/
def stoiMagnitude (negative : Bool) (s : Bytes) : Option ℤ :=
  let digits := s.takeWhile isDigit
  if digits = [] then none
  else
    let n : ℤ := if negative then -(natOfDigits digits : ℤ) else natOfDigits digits
    if InInt32 n then some n else none

/-- `std::stoi`; `none` stands for the exception. -/
def stoi (s : Bytes) : Option ℤ :=
  match s.dropWhile isSpace with
  | 45 :: t => stoiMagnitude true t
  | 43 :: t => stoiMagnitude false t
  | t => stoiMagnitude false t

/-- What is read is in range. -/
theorem inInt32_of_stoi {s : Bytes} {n : ℤ} (h : stoi s = some n) : InInt32 n := by
  have hmag : ∀ b t, stoiMagnitude b t = some n → InInt32 n := by
    intro b t ht
    simp only [stoiMagnitude, Option.ite_none_left_eq_some, Option.ite_none_right_eq_some,
      Option.some.injEq] at ht
    obtain ⟨-, hr, rfl⟩ := ht
    exact hr
  unfold stoi at h
  split at h
  · exact hmag _ _ h
  · exact hmag _ _ h
  · exact hmag _ _ h

/-! ## Digits -/

/-- A digit character and its byte have one value. -/
theorem toNat_ofNat_of_isDigit {c : Char} (h : c.isDigit = true) :
    (UInt8.ofNat c.toNat).toNat = c.toNat ∧ isDigit (UInt8.ofNat c.toNat) = true := by
  have hrange : 48 ≤ c.toNat ∧ c.toNat ≤ 57 := by
    simpa [Char.isDigit, UInt32.le_iff_toNat_le] using h
  have hval : (UInt8.ofNat c.toNat).toNat = c.toNat := by
    rw [UInt8.toNat_ofNat']
    omega
  refine ⟨hval, ?_⟩
  rw [isDigit_iff, hval]
  exact hrange

theorem isDigit_of_mem_decimal {n : ℕ} {d : UInt8} (h : d ∈ decimal n) : isDigit d = true := by
  obtain ⟨c, hc, rfl⟩ := List.mem_map.mp h
  exact (toNat_ofNat_of_isDigit
    (Nat.isDigit_of_mem_toDigits (by omega) (by omega) hc)).2

/-- A written number has digits and a minus sign only. -/
theorem isDigit_of_mem_decimalInt {n : ℤ} {d : UInt8} (h : d ∈ decimalInt n) :
    d = 45 ∨ isDigit d = true := by
  unfold decimalInt at h
  split at h
  · rcases List.mem_cons.mp h with h | h
    · exact Or.inl h
    · exact Or.inr (isDigit_of_mem_decimal h)
  · exact Or.inr (isDigit_of_mem_decimal h)

theorem decimal_ne_nil (n : ℕ) : decimal n ≠ [] := by
  intro h
  exact Nat.toDigits_ne_nil (List.map_eq_nil_iff.mp h)

theorem natOfDigits_decimal (n : ℕ) : natOfDigits (decimal n) = n := by
  have key : ∀ (cs : List Char) (acc : ℕ), (∀ c ∈ cs, c.isDigit = true) →
      (cs.map fun c => UInt8.ofNat c.toNat).foldl (fun acc d => 10 * acc + (d.toNat - 48)) acc
        = Nat.ofDigitChars 10 cs acc := by
    intro cs
    induction cs with
    | nil => intro acc _; simp
    | cons c cs ih =>
      intro acc hcs
      rw [List.map_cons, List.foldl_cons, Nat.ofDigitChars_cons,
        (toNat_ofNat_of_isDigit (hcs c (List.mem_cons_self))).1]
      exact ih _ fun x hx => hcs x (List.mem_cons_of_mem c hx)
  rw [natOfDigits, decimal, key _ _ fun c hc =>
    Nat.isDigit_of_mem_toDigits (by omega) (by omega) hc]
  exact Nat.ofDigitChars_ten_toDigits

theorem decimal_injective {m n : ℕ} (h : decimal m = decimal n) : m = n := by
  rw [← natOfDigits_decimal m, h, natOfDigits_decimal]

/-- Different numbers are written differently. -/
theorem decimalInt_injective {m n : ℤ} (h : decimalInt m = decimalInt n) : m = n := by
  have hdigit : ∀ k : ℕ, ∀ t, decimal k ≠ 45 :: t := by
    intro k t hk
    have hminus : isDigit 45 = true := isDigit_of_mem_decimal (hk ▸ List.mem_cons_self)
    exact absurd hminus (by decide)
  unfold decimalInt at h
  split at h
  · split at h
    · have := decimal_injective (List.cons.inj h).2
      omega
    · exact absurd h.symm (hdigit _ _)
  · split at h
    · exact absurd h (hdigit _ _)
    · have := decimal_injective h
      omega

theorem natOfDigits_replicate_zero_append (k : ℕ) (s : Bytes) :
    natOfDigits (List.replicate k 48 ++ s) = natOfDigits s := by
  induction k with
  | zero => rfl
  | succ k ih => exact ih

/-- The digits of a filled-up number, behind its sign. -/
theorem exists_digits_zeroPadded (width : ℕ) (n : ℤ) :
    ∃ digits, zeroPadded width n = (if n < 0 then [45] else []) ++ digits ∧ digits ≠ [] ∧
      (∀ d ∈ digits, isDigit d = true) ∧ natOfDigits digits = n.natAbs := by
  refine ⟨_, List.append_assoc _ _ _, ?_, ?_, ?_⟩
  · exact List.append_ne_nil_of_right_ne_nil _ (decimal_ne_nil _)
  · intro d hd
    rcases List.mem_append.mp hd with hd | hd
    · rw [List.eq_of_mem_replicate hd]
      decide
    · exact isDigit_of_mem_decimal hd
  · rw [natOfDigits_replicate_zero_append, natOfDigits_decimal]

/-- A filled-up number has digits and a minus sign only. -/
theorem isDigit_of_mem_zeroPadded {width : ℕ} {n : ℤ} {d : UInt8} (h : d ∈ zeroPadded width n) :
    d = 45 ∨ isDigit d = true := by
  rcases List.mem_append.mp h with h | h
  · rcases List.mem_append.mp h with h | h
    · split at h
      · exact Or.inl (List.mem_singleton.mp h)
      · exact absurd h List.not_mem_nil
    · rw [List.eq_of_mem_replicate h]
      exact Or.inr (by decide)
  · exact Or.inr (isDigit_of_mem_decimal h)

/-- A run of digits ends where the first non-digit stands. -/
theorem takeWhile_isDigit_append {s r : Bytes} (hs : ∀ d ∈ s, isDigit d = true)
    (hr : ∀ d ∈ r.head?, isDigit d = false) : (s ++ r).takeWhile isDigit = s := by
  rw [List.takeWhile_append_of_pos hs]
  cases r with
  | nil => simp
  | cons d r => simp [hr d (by simp)]

theorem takeWhile_isDigit_decimal_append (n : ℕ) {r : Bytes}
    (hr : ∀ d ∈ r.head?, isDigit d = false) :
    (decimal n ++ r).takeWhile isDigit = decimal n :=
  takeWhile_isDigit_append (fun _ hd => isDigit_of_mem_decimal hd) hr

/-- **A filled-up number can be read off a text**, up to the first non-digit. -/
theorem zeroPadded_append_inj {width : ℕ} {m n : ℤ} {r s : Bytes}
    (hr : ∀ d ∈ r.head?, isDigit d = false) (hs : ∀ d ∈ s.head?, isDigit d = false)
    (h : zeroPadded width m ++ r = zeroPadded width n ++ s) : m = n ∧ r = s := by
  obtain ⟨a, hm, hane, hadigits, havalue⟩ := exists_digits_zeroPadded width m
  obtain ⟨b, hn, hbne, hbdigits, hbvalue⟩ := exists_digits_zeroPadded width n
  rw [hm, hn, List.append_assoc, List.append_assoc] at h
  have hdigits : a ++ r = b ++ s → a = b ∧ r = s := by
    intro heq
    have hrun := congrArg (List.takeWhile isDigit) heq
    rw [takeWhile_isDigit_append hadigits hr, takeWhile_isDigit_append hbdigits hs] at hrun
    subst hrun
    exact ⟨rfl, List.append_cancel_left heq⟩
  -- a digit in front is no sign
  have hsign : ∀ {digits t u : Bytes}, digits ≠ [] → (∀ d ∈ digits, isDigit d = true) →
      45 :: t ≠ digits ++ u := by
    intro digits t u hne hall heq
    obtain ⟨d, rest, rfl⟩ := List.exists_cons_of_ne_nil hne
    have hd := hall d List.mem_cons_self
    rw [← (List.cons.inj heq).1] at hd
    exact absurd hd (by decide)
  by_cases hmneg : m < 0
  · by_cases hnneg : n < 0
    · rw [if_pos hmneg, if_pos hnneg] at h
      obtain ⟨rfl, hrest⟩ := hdigits (List.cons.inj h).2
      exact ⟨by omega, hrest⟩
    · rw [if_pos hmneg, if_neg hnneg, List.nil_append] at h
      exact absurd h (hsign hbne hbdigits)
  · by_cases hnneg : n < 0
    · rw [if_neg hmneg, if_pos hnneg, List.nil_append] at h
      exact absurd h.symm (hsign hane hadigits)
    · rw [if_neg hmneg, if_neg hnneg] at h
      obtain ⟨rfl, hrest⟩ := hdigits h
      exact ⟨by omega, hrest⟩

/-- Different numbers are filled up differently. -/
theorem zeroPadded_inj {width m n : ℕ} (h : zeroPadded width m = zeroPadded width n) : m = n := by
  have hend : ∀ d ∈ ([] : Bytes).head?, isDigit d = false := by simp
  have heq := zeroPadded_append_inj hend hend (congrArg (· ++ []) h)
  omega

/-- A digit is neither a blank nor a sign. -/
theorem not_blank_or_sign_of_isDigit {d : UInt8} (hd : isDigit d = true) :
    ¬ isSpace d = true ∧ d ≠ 45 ∧ d ≠ 43 := by
  have hrange := isDigit_iff.mp hd
  have hne : ∀ x : UInt8, x.toNat < 48 → d ≠ x := by
    rintro x hx rfl
    omega
  refine ⟨?_, hne 45 (by decide), hne 43 (by decide)⟩
  have h32 := hne 32 (by decide)
  have h9 := hne 9 (by decide)
  have h10 := hne 10 (by decide)
  have h11 := hne 11 (by decide)
  have h12 := hne 12 (by decide)
  have h13 := hne 13 (by decide)
  simp [isSpace, h32, h9, h10, h11, h12, h13]

/-- A text that starts with a digit has neither blanks nor a sign to skip. -/
theorem stoi_cons_of_isDigit {d : UInt8} (hd : isDigit d = true) (s : Bytes) :
    stoi (d :: s) = stoiMagnitude false (d :: s) := by
  obtain ⟨hspace, hminus, hplus⟩ := not_blank_or_sign_of_isDigit hd
  unfold stoi
  rw [List.dropWhile_cons_of_neg hspace]
  split
  · next h => exact absurd (List.cons.inj h).1 hminus
  · next h => exact absurd (List.cons.inj h).1 hplus
  · rfl

/-- **Reading back what was written**, whatever follows it. -/
theorem stoi_decimalInt_append {n : ℤ} (hn : InInt32 n) {r : Bytes}
    (hr : ∀ d ∈ r.head?, isDigit d = false) : stoi (decimalInt n ++ r) = some n := by
  have hmag : ∀ b : Bool, (if b then -(n.natAbs : ℤ) else n.natAbs) = n →
      stoiMagnitude b (decimal n.natAbs ++ r) = some n := by
    intro b hb
    rw [stoiMagnitude, takeWhile_isDigit_decimal_append _ hr]
    simp only [decimal_ne_nil, if_false, natOfDigits_decimal]
    rw [hb, if_pos hn]
  by_cases hneg : n < 0
  · have hval : (if true then -(n.natAbs : ℤ) else n.natAbs) = n := by
      simp only [if_true]
      omega
    rw [decimalInt, if_pos hneg, List.cons_append, stoi]
    exact hmag true hval
  · have hval : (if false then -(n.natAbs : ℤ) else n.natAbs) = n := by
      simp only [Bool.false_eq_true, if_false]
      omega
    rw [decimalInt, if_neg hneg]
    obtain ⟨d, s, hs⟩ : ∃ d s, decimal n.natAbs = d :: s :=
      List.exists_cons_of_ne_nil (decimal_ne_nil _)
    have hd : isDigit d = true := isDigit_of_mem_decimal (hs ▸ List.mem_cons_self)
    rw [hs, List.cons_append, stoi_cons_of_isDigit hd, ← List.cons_append, ← hs]
    exact hmag false hval

end ByteText
