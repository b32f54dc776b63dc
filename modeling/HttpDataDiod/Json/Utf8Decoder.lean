import Mathlib.Tactic.Ring
import HttpDataDiod.Json.Dump

/-!
# The decoder of the serialiser

Model of `serializer::decode` of `nlohmann/json.hpp`, the automaton with which `dump`
checks a string byte by byte: it throws at the first byte that leads to the reject
state, and at the end of the string in any state but the accept state.  The program
decides with a loop of its own, `is_valid_utf8`, which strings go into a JSON value as
they are; the two are different algorithms.

* `decode`, `accepts`: the automaton.
* `StandsFor`: a state of the automaton stands for so many bytes to come.
* `accepts_eq_isValidUtf8`: the two accept the same strings.
* `dumpStrict`: `dump` with the automaton, and `dumpStrict_eq_dump`.
-/

namespace HttpDataDiod

open ByteText

namespace Utf8Decoder

/-! ## The automaton -/

/-- The class of a byte: the first 256 entries of the table `utf8d`. -/
def byteType (byte : UInt8) : ℕ :=
  if byte < 0x80 then 0
  else if byte < 0x90 then 1
  else if byte < 0xA0 then 9
  else if byte < 0xC0 then 7
  else if byte < 0xC2 then 8
  else if byte < 0xE0 then 2
  else if byte = 0xE0 then 10
  else if byte = 0xED then 4
  else if byte < 0xF0 then 3
  else if byte = 0xF0 then 11
  else if byte < 0xF4 then 6
  else if byte = 0xF4 then 5
  else 8

/-- The rows of the table after the classes of the bytes. -/
def nextState : ℕ → ℕ → ℕ
  | 0, 0 => 0
  | 0, 2 => 2
  | 0, 3 => 3
  | 0, 4 => 5
  | 0, 5 => 8
  | 0, 6 => 7
  | 0, 10 => 4
  | 0, 11 => 6
  | 2, 1 => 0
  | 2, 7 => 0
  | 2, 9 => 0
  | 3, 1 => 2
  | 3, 7 => 2
  | 3, 9 => 2
  | 4, 7 => 2
  | 5, 1 => 2
  | 5, 9 => 2
  | 6, 7 => 3
  | 6, 9 => 3
  | 7, 1 => 3
  | 7, 7 => 3
  | 7, 9 => 3
  | 8, 1 => 3
  | _, _ => 1

/-- `decode`: the state after a byte. -/
def decode (state : ℕ) (byte : UInt8) : ℕ := nextState state (byteType byte)

/-- The string is written out without an exception.  The reject state is never left. -/
def accepts (s : Bytes) : Bool := s.foldl decode 0 = 0

theorem foldl_decode_one (s : Bytes) : s.foldl decode 1 = 1 := by
  induction s with
  | nil => rfl
  | cons c s ih => exact ih

/-- The range of the next byte in a state within a sequence, and the state after it. -/
def window : ℕ → ℕ × ℕ × ℕ
  | 2 => (0x80, 0xC0, 0)
  | 3 => (0x80, 0xC0, 2)
  | 4 => (0xA0, 0xC0, 2)
  | 5 => (0x80, 0xA0, 2)
  | 6 => (0x90, 0xC0, 3)
  | 7 => (0x80, 0xC0, 3)
  | _ => (0x80, 0x90, 3)

theorem decode_eq_window {q : ℕ} (hq : 2 ≤ q) (hq' : q ≤ 8) (byte : UInt8) :
    decode q byte =
      if (window q).1 ≤ byte.toNat ∧ byte.toNat < (window q).2.1 then (window q).2.2 else 1 := by
  have h := forall_byte (P := fun c n => ∀ i : Fin 7, decode (i.val + 2) c =
    if (window (i.val + 2)).1 ≤ n ∧ n < (window (i.val + 2)).2.1 then
      (window (i.val + 2)).2.2 else 1) (by decide +kernel) byte ⟨q - 2, by omega⟩
  simpa only [show q - 2 + 2 = q by omega] using h

theorem isCont_iff (byte : UInt8) :
    byte &&& 0xC0 = 0x80 ↔ 0x80 ≤ byte.toNat ∧ byte.toNat < 0xC0 :=
  forall_byte (P := fun c n => c &&& 0xC0 = 0x80 ↔ 0x80 ≤ n ∧ n < 0xC0) (by decide +kernel) byte

/-! ## The two sides of a sequence -/

/-- A continuation byte adds six bits. -/
theorem codepointFrom_cons (codepoint : ℕ) (next : UInt8) (rest : Bytes) :
    codepointFrom codepoint (next :: rest) =
      if 0x80 ≤ next.toNat ∧ next.toNat < 0xC0 then
        codepointFrom (codepoint * 64 + next.toNat % 64) rest
      else none := by
  have hlow : (next &&& 0x3F).toNat = next.toNat % 64 := by
    rw [UInt8.toNat_and]
    exact Nat.and_two_pow_sub_one_eq_mod next.toNat 6
  have hbits : codepoint <<< 6 ||| next.toNat % 64 = codepoint * 64 + next.toNat % 64 := by
    rw [← Nat.shiftLeft_add_eq_or_of_lt (Nat.mod_lt _ (by decide)), Nat.shiftLeft_eq]
  simp only [codepointFrom, isCont_iff, hlow, hbits]

/-- The next `k` bytes complete the bits read so far to a code point that is allowed. -/
def Completes (extra k codepoint : ℕ) (s : Bytes) : Prop :=
  k ≤ s.length ∧ ∃ n, codepointFrom codepoint (s.take k) = some n ∧ codepointAllowed extra n = true

theorem completes_zero (extra codepoint : ℕ) (s : Bytes) :
    Completes extra 0 codepoint s ↔ codepointAllowed extra codepoint = true := by
  simp [Completes, codepointFrom]

theorem not_completes_nil (extra k codepoint : ℕ) : ¬ Completes extra (k + 1) codepoint [] := by
  intro h
  exact absurd h.1 (by simp)

theorem completes_succ_cons (extra k codepoint : ℕ) (d : UInt8) (s : Bytes) :
    Completes extra (k + 1) codepoint (d :: s) ↔
      (0x80 ≤ d.toNat ∧ d.toNat < 0xC0) ∧
        Completes extra k (codepoint * 64 + d.toNat % 64) s := by
  simp only [Completes, List.length_cons, Nat.add_le_add_iff_right, List.take_succ_cons,
    codepointFrom_cons]
  by_cases hd : 0x80 ≤ d.toNat ∧ d.toNat < 0xC0
  · simp only [hd, true_and]
    rfl
  · simp [hd]

/-- The code point of `k` more bytes lies within the `64 ^ k` above the bits so far. -/
theorem Completes.exists_allowed {extra k codepoint : ℕ} {s : Bytes}
    (h : Completes extra k codepoint s) :
    ∃ x < 64 ^ k, codepointAllowed extra (codepoint * 64 ^ k + x) = true := by
  induction k generalizing codepoint s with
  | zero =>
    rw [completes_zero] at h
    exact ⟨0, by simp, by simpa using h⟩
  | succ k ih =>
    cases s with
    | nil => exact absurd h (not_completes_nil _ _ _)
    | cons d s =>
      obtain ⟨-, hrest⟩ := (completes_succ_cons _ _ _ _ _).mp h
      obtain ⟨x, hx, hallowed⟩ := ih hrest
      have hd : d.toNat % 64 < 64 := Nat.mod_lt _ (by decide)
      refine ⟨d.toNat % 64 * 64 ^ k + x, ?_, ?_⟩
      · calc d.toNat % 64 * 64 ^ k + x < d.toNat % 64 * 64 ^ k + 64 ^ k := by omega
          _ = (d.toNat % 64 + 1) * 64 ^ k := by ring
          _ ≤ 64 * 64 ^ k := Nat.mul_le_mul_right _ hd
          _ = 64 ^ (k + 1) := by ring
      · rw [show codepoint * 64 ^ (k + 1) + (d.toNat % 64 * 64 ^ k + x) =
          (codepoint * 64 + d.toNat % 64) * 64 ^ k + x by ring]
        exact hallowed

theorem multibyteLength_ne_zero_iff (extra lead : ℕ) (s : Bytes) :
    multibyteLength extra lead s ≠ 0 ↔ Completes extra extra lead s := by
  unfold multibyteLength Completes
  split
  · rename_i hlen
    simp [Nat.not_le.mpr hlen]
  · rename_i hlen
    split
    · rename_i hnone
      simp [hnone]
    · rename_i n hsome
      split
      · rename_i hallowed
        simp [hsome, hallowed, Nat.not_lt.mp hlen]
      · rename_i hallowed
        simp [hsome, hallowed]

theorem multibyteLength_of_completes {extra lead : ℕ} {s : Bytes}
    (h : Completes extra extra lead s) : multibyteLength extra lead s = extra + 1 := by
  obtain ⟨hlen, n, hsome, hallowed⟩ := h
  simp only [multibyteLength, if_neg (Nat.not_lt.mpr hlen), hsome, if_pos hallowed]

/-! ## States and bytes to come -/

/-- The state `q` of the decoder stands for `k` bytes to come after the bits read so
far. -/
def StandsFor (extra q k codepoint : ℕ) : Prop :=
  ∀ s : Bytes, s.foldl decode q = 0 ↔
    Completes extra k codepoint s ∧ (s.drop k).foldl decode 0 = 0

theorem standsFor_zero {extra codepoint : ℕ} (h : codepointAllowed extra codepoint = true) :
    StandsFor extra 0 0 codepoint := by
  intro s
  rw [completes_zero]
  simp [h]

/-- **One more byte.**  The bytes in the window of a state lead to a state for one byte
less, and no other continuation byte can be completed. -/
theorem standsFor_succ {extra q k codepoint : ℕ} (hq : 2 ≤ q) (hq' : q ≤ 8)
    (hlow : 0x80 ≤ (window q).1) (hhigh : (window q).2.1 ≤ 0xC0)
    (hin : ∀ n, (window q).1 ≤ n → n < (window q).2.1 →
      StandsFor extra (window q).2.2 k (codepoint * 64 + n % 64))
    (hout : ∀ n, 0x80 ≤ n → n < 0xC0 → ¬ ((window q).1 ≤ n ∧ n < (window q).2.1) →
      ∀ x < 64 ^ k, codepointAllowed extra ((codepoint * 64 + n % 64) * 64 ^ k + x) ≠ true) :
    StandsFor extra q (k + 1) codepoint := by
  intro s
  cases s with
  | nil =>
    have hne : ¬ q = 0 := by omega
    simp [hne, not_completes_nil]
  | cons d s =>
    rw [List.foldl_cons, decode_eq_window hq hq', completes_succ_cons, List.drop_succ_cons]
    by_cases hd : (window q).1 ≤ d.toNat ∧ d.toNat < (window q).2.1
    · have hcont : 0x80 ≤ d.toNat ∧ d.toNat < 0xC0 := by omega
      rw [if_pos hd, hin _ hd.1 hd.2 s]
      simp [hcont]
    · rw [if_neg hd, foldl_decode_one]
      constructor
      · intro h
        exact absurd h (by decide)
      · rintro ⟨⟨hcont, hcompletes⟩, -⟩
        obtain ⟨x, hx, hallowed⟩ := hcompletes.exists_allowed
        exact absurd hallowed (hout _ hcont.1 hcont.2 hd x hx)

/-- The lead bytes, by the state after them. -/
theorem decode_zero (c : UInt8) :
    decode 0 c =
      if c.toNat < 0x80 then 0
      else if c.toNat < 0xC2 then 1
      else if c.toNat < 0xE0 then 2
      else if c.toNat = 0xE0 then 4
      else if c.toNat = 0xED then 5
      else if c.toNat < 0xF0 then 3
      else if c.toNat = 0xF0 then 6
      else if c.toNat < 0xF4 then 7
      else if c.toNat = 0xF4 then 8
      else 1 := by
  refine forall_byte (P := fun c n => decode 0 c = if n < 0x80 then 0 else if n < 0xC2 then 1
    else if n < 0xE0 then 2 else if n = 0xE0 then 4 else if n = 0xED then 5
    else if n < 0xF0 then 3 else if n = 0xF0 then 6 else if n < 0xF4 then 7
    else if n = 0xF4 then 8 else 1) ?_ c
  decide +kernel

/-- The number of continuation bytes and the bits of a lead byte. -/
theorem sequenceLength_cons (c : UInt8) (s : Bytes) :
    sequenceLength (c :: s) =
      if c.toNat < 0x80 then 1
      else if c.toNat < 0xC0 then 0
      else if c.toNat < 0xE0 then multibyteLength 1 (c.toNat - 0xC0) s
      else if c.toNat < 0xF0 then multibyteLength 2 (c.toNat - 0xE0) s
      else if c.toNat < 0xF8 then multibyteLength 3 (c.toNat - 0xF0) s
      else 0 := by
  obtain ⟨h0, h1, h2, h3, l1, l2, l3⟩ := forall_byte (P := fun c n =>
    (c < 0x80 ↔ n < 0x80) ∧ (c &&& 0xE0 = 0xC0 ↔ 0xC0 ≤ n ∧ n < 0xE0) ∧
    (c &&& 0xF0 = 0xE0 ↔ 0xE0 ≤ n ∧ n < 0xF0) ∧ (c &&& 0xF8 = 0xF0 ↔ 0xF0 ≤ n ∧ n < 0xF8) ∧
    (0xC0 ≤ n → n < 0xE0 → (c &&& 0x1F).toNat = n - 0xC0) ∧
    (0xE0 ≤ n → n < 0xF0 → (c &&& 0x0F).toNat = n - 0xE0) ∧
    (0xF0 ≤ n → n < 0xF8 → (c &&& 0x07).toNat = n - 0xF0)) (by decide +kernel) c
  rw [sequenceLength]
  by_cases c0 : c.toNat < 0x80
  · rw [if_pos (h0.mpr c0), if_pos c0]
  rw [if_neg (fun h => c0 (h0.mp h)), if_neg c0]
  by_cases c1 : c.toNat < 0xC0
  · rw [if_neg (fun h => absurd (h1.mp h).1 (by omega)),
      if_neg (fun h => absurd (h2.mp h).1 (by omega)),
      if_neg (fun h => absurd (h3.mp h).1 (by omega)), if_pos c1]
  rw [if_neg c1]
  by_cases c2 : c.toNat < 0xE0
  · rw [if_pos (h1.mpr ⟨by omega, c2⟩), if_pos c2, l1 (by omega) c2]
  rw [if_neg (fun h => c2 (h1.mp h).2), if_neg c2]
  by_cases c3 : c.toNat < 0xF0
  · rw [if_pos (h2.mpr ⟨by omega, c3⟩), if_pos c3, l2 (by omega) c3]
  rw [if_neg (fun h => c3 (h2.mp h).2), if_neg c3]
  by_cases c4 : c.toNat < 0xF8
  · rw [if_pos (h3.mpr ⟨by omega, c4⟩), if_pos c4, l3 (by omega) c4]
  · rw [if_neg (fun h => c4 (h3.mp h).2), if_neg c4]

theorem codepointAllowed_iff (extra n : ℕ) :
    codepointAllowed extra n = true ↔
      minCodepoint extra ≤ n ∧ n ≤ 0x10FFFF ∧ (n < 0xD800 ∨ 0xDFFF < n) := by
  simp only [codepointAllowed, Bool.not_eq_true', Bool.or_eq_false_iff, Bool.and_eq_false_iff,
    decide_eq_false_iff_not]
  omega

/-- One byte to come, whatever it is. -/
theorem standsFor_two {extra codepoint : ℕ}
    (h : ∀ x < 64, codepointAllowed extra (codepoint * 64 + x) = true) :
    StandsFor extra 2 1 codepoint := by
  refine standsFor_succ (by decide) (by decide) (by decide) (by decide) ?_ ?_
  · intro n _ _
    exact standsFor_zero (h _ (Nat.mod_lt _ (by decide)))
  · intro n hlow hhigh hout
    exact absurd ⟨hlow, hhigh⟩ hout

/-- Two bytes to come, whatever they are. -/
theorem standsFor_three {extra codepoint : ℕ}
    (h : ∀ x < 4096, codepointAllowed extra (codepoint * 4096 + x) = true) :
    StandsFor extra 3 2 codepoint := by
  refine standsFor_succ (by decide) (by decide) (by decide) (by decide) ?_ ?_
  · intro n _ _
    have hn : n % 64 < 64 := Nat.mod_lt _ (by decide)
    refine standsFor_two fun x hx => ?_
    have hx' := h (n % 64 * 64 + x) (by omega)
    rwa [show (codepoint * 64 + n % 64) * 64 + x = codepoint * 4096 + (n % 64 * 64 + x) by ring]
  · intro n hlow hhigh hout
    exact absurd ⟨hlow, hhigh⟩ hout

theorem standsFor_lead_two {c : UInt8} (hc : 0xC2 ≤ c.toNat) (hc' : c.toNat < 0xE0) :
    StandsFor 1 (decode 0 c) 1 (c.toNat - 0xC0) := by
  have hstate : decode 0 c = 2 := by
    rw [decode_zero, if_neg (by omega), if_neg (by omega), if_pos hc']
  rw [hstate]
  refine standsFor_two fun x hx => ?_
  rw [codepointAllowed_iff, minCodepoint]
  omega

theorem standsFor_lead_three {c : UInt8} (hc : 0xE0 ≤ c.toNat) (hc' : c.toNat < 0xF0) :
    StandsFor 2 (decode 0 c) 2 (c.toNat - 0xE0) := by
  rw [decode_zero, if_neg (by omega), if_neg (by omega), if_neg (by omega)]
  by_cases h₁ : c.toNat = 0xE0
  · -- overlong below `A0`
    rw [if_pos h₁, h₁]
    refine standsFor_succ (by decide) (by decide) (by decide) (by decide) ?_ ?_
    · intro n hlow hhigh
      simp only [window] at hlow hhigh
      refine standsFor_two fun x hx => ?_
      rw [codepointAllowed_iff, minCodepoint]
      omega
    · intro n hlow hhigh hout x hx
      simp only [window] at hout
      rw [Ne, codepointAllowed_iff, minCodepoint]
      omega
  rw [if_neg h₁]
  by_cases h₂ : c.toNat = 0xED
  · -- a surrogate from `A0` on
    rw [if_pos h₂, h₂]
    refine standsFor_succ (by decide) (by decide) (by decide) (by decide) ?_ ?_
    · intro n hlow hhigh
      simp only [window] at hlow hhigh
      refine standsFor_two fun x hx => ?_
      rw [codepointAllowed_iff, minCodepoint]
      omega
    · intro n hlow hhigh hout x hx
      simp only [window] at hout
      rw [Ne, codepointAllowed_iff, minCodepoint]
      omega
  rw [if_neg h₂, if_pos hc']
  refine standsFor_three fun x hx => ?_
  rw [codepointAllowed_iff, minCodepoint]
  omega

theorem standsFor_lead_four {c : UInt8} (hc : 0xF0 ≤ c.toNat) (hc' : c.toNat < 0xF5) :
    StandsFor 3 (decode 0 c) 3 (c.toNat - 0xF0) := by
  rw [decode_zero, if_neg (by omega), if_neg (by omega), if_neg (by omega), if_neg (by omega),
    if_neg (by omega), if_neg (by omega)]
  by_cases h₁ : c.toNat = 0xF0
  · -- overlong below `90`
    rw [if_pos h₁, h₁]
    refine standsFor_succ (by decide) (by decide) (by decide) (by decide) ?_ ?_
    · intro n hlow hhigh
      simp only [window] at hlow hhigh
      refine standsFor_three fun x hx => ?_
      rw [codepointAllowed_iff, minCodepoint]
      · omega
      all_goals decide
    · intro n hlow hhigh hout x hx
      simp only [window] at hout
      rw [Ne, codepointAllowed_iff, minCodepoint]
      · omega
      all_goals decide
  rw [if_neg h₁]
  by_cases h₂ : c.toNat < 0xF4
  · rw [if_pos h₂]
    refine standsFor_succ (by decide) (by decide) (by decide) (by decide) ?_ ?_
    · intro n hlow hhigh
      refine standsFor_three fun x hx => ?_
      rw [codepointAllowed_iff, minCodepoint]
      · omega
      all_goals decide
    · intro n hlow hhigh hout
      exact absurd ⟨hlow, hhigh⟩ hout
  · -- above the last code point from `90` on
    have h₃ : c.toNat = 0xF4 := by omega
    rw [if_neg h₂, if_pos h₃, h₃]
    refine standsFor_succ (by decide) (by decide) (by decide) (by decide) ?_ ?_
    · intro n hlow hhigh
      simp only [window] at hlow hhigh
      refine standsFor_three fun x hx => ?_
      rw [codepointAllowed_iff, minCodepoint]
      · omega
      all_goals decide
    · intro n hlow hhigh hout x hx
      simp only [window] at hout
      rw [Ne, codepointAllowed_iff, minCodepoint]
      · omega
      all_goals decide

/-! ## Agreement -/

/-- A state for all bytes to come gives the turn of the loop. -/
theorem accepts_cons_of_standsFor {c : UInt8} {extra lead : ℕ} {s : Bytes}
    (h : StandsFor extra (decode 0 c) extra lead)
    (hlength : sequenceLength (c :: s) = multibyteLength extra lead s) :
    accepts (c :: s) =
      (decide (sequenceLength (c :: s) ≠ 0) &&
        accepts ((c :: s).drop (sequenceLength (c :: s)))) := by
  have hrun : accepts (c :: s) = true ↔
      Completes extra extra lead s ∧ (s.drop extra).foldl decode 0 = 0 :=
    decide_eq_true_iff.trans (h s)
  rw [Bool.eq_iff_iff, hrun, hlength]
  by_cases hcompletes : Completes extra extra lead s
  · rw [multibyteLength_of_completes hcompletes, List.drop_succ_cons]
    simp [hcompletes, accepts]
  · have hzero : multibyteLength extra lead s = 0 := by
      by_contra hne
      exact hcompletes ((multibyteLength_ne_zero_iff _ _ _).mp hne)
    simp [hcompletes, hzero]

/-- A lead byte that the decoder rejects starts no sequence. -/
theorem accepts_cons_of_reject {c : UInt8} {s : Bytes} (hstate : decode 0 c = 1)
    (hlength : sequenceLength (c :: s) = 0) :
    accepts (c :: s) =
      (decide (sequenceLength (c :: s) ≠ 0) &&
        accepts ((c :: s).drop (sequenceLength (c :: s)))) := by
  have hrun : accepts (c :: s) = decide (s.foldl decode (decode 0 c) = 0) := rfl
  rw [hrun, hstate, foldl_decode_one, hlength]
  simp

theorem multibyteLength_eq_zero {extra lead : ℕ} {s : Bytes}
    (h : ∀ x < 64 ^ extra, codepointAllowed extra (lead * 64 ^ extra + x) ≠ true) :
    multibyteLength extra lead s = 0 := by
  by_contra hne
  obtain ⟨x, hx, hallowed⟩ := ((multibyteLength_ne_zero_iff _ _ _).mp hne).exists_allowed
  exact h x hx hallowed

/-- **One turn of the loop**, by the class of the lead byte. -/
theorem accepts_cons (c : UInt8) (s : Bytes) :
    accepts (c :: s) =
      (decide (sequenceLength (c :: s) ≠ 0) &&
        accepts ((c :: s).drop (sequenceLength (c :: s)))) := by
  have hlt : c.toNat < 256 := c.toNat_lt
  have hlength := sequenceLength_cons c s
  have hstate := decode_zero c
  by_cases h₀ : c.toNat < 0x80
  · rw [if_pos h₀] at hlength hstate
    rw [hlength]
    show decide (s.foldl decode (decode 0 c) = 0) = _
    rw [hstate]
    rfl
  rw [if_neg h₀] at hlength hstate
  by_cases h₁ : c.toNat < 0xC0
  · rw [if_pos h₁] at hlength
    rw [if_pos (by omega)] at hstate
    exact accepts_cons_of_reject hstate hlength
  rw [if_neg h₁] at hlength
  by_cases h₂ : c.toNat < 0xE0
  · rw [if_pos h₂] at hlength
    by_cases h₂' : c.toNat < 0xC2
    · rw [if_pos h₂'] at hstate
      refine accepts_cons_of_reject hstate (hlength.trans (multibyteLength_eq_zero ?_))
      intro x hx
      rw [Ne, codepointAllowed_iff, minCodepoint]
      omega
    · exact accepts_cons_of_standsFor (standsFor_lead_two (by omega) h₂) hlength
  rw [if_neg h₂] at hlength
  by_cases h₃ : c.toNat < 0xF0
  · rw [if_pos h₃] at hlength
    exact accepts_cons_of_standsFor (standsFor_lead_three (by omega) h₃) hlength
  rw [if_neg h₃] at hlength
  by_cases h₄ : c.toNat < 0xF5
  · rw [if_pos (by omega)] at hlength
    exact accepts_cons_of_standsFor (standsFor_lead_four (by omega) h₄) hlength
  · have hreject : decode 0 c = 1 := by
      rw [hstate, if_neg (by omega), if_neg (by omega), if_neg (by omega), if_neg (by omega),
        if_neg (by omega), if_neg (by omega), if_neg (by omega), if_neg (by omega)]
    refine accepts_cons_of_reject hreject ?_
    rw [hlength]
    split
    · refine multibyteLength_eq_zero fun x hx => ?_
      rw [Ne, codepointAllowed_iff]
      omega
    · rfl

/-- **The two agree**: the serialiser accepts what the loop of `is_valid_utf8`
accepts. -/
theorem accepts_eq_isValidUtf8 (s : Bytes) : accepts s = isValidUtf8 s := by
  induction hn : s.length using Nat.strong_induction_on generalizing s with
  | _ n ih =>
    cases s with
    | nil => rfl
    | cons c s =>
      rw [accepts_cons, isValidUtf8_cons]
      by_cases h : sequenceLength (c :: s) = 0
      · simp [h]
      · rw [ih _ ?_ _ rfl]
        rw [List.length_drop, hn]
        have := List.length_pos_of_ne_nil (List.cons_ne_nil c s)
        omega

end Utf8Decoder

/-! ## The serialiser -/

namespace JsonValue

mutual

/-- Every string and every key of the value is accepted by the decoder. -/
def strictOk : JsonValue → Bool
  | .string s => Utf8Decoder.accepts s
  | .array elems => strictOkElems elems
  | .object entries => strictOkEntries entries
  | _ => true

def strictOkElems : List JsonValue → Bool
  | [] => true
  | v :: vs => v.strictOk && strictOkElems vs

def strictOkEntries : List (Bytes × JsonValue) → Bool
  | [] => true
  | (key, v) :: entries => Utf8Decoder.accepts key && v.strictOk && strictOkEntries entries

end

mutual

/-- The decoder and the program's own loop agree on whole values. -/
theorem strictOk_eq_allUtf8 : ∀ j : JsonValue, j.strictOk = j.allUtf8
  | .null => by simp [strictOk, allUtf8]
  | .bool _ => by simp [strictOk, allUtf8]
  | .int _ => by simp [strictOk, allUtf8]
  | .uint _ => by simp [strictOk, allUtf8]
  | .float _ => by simp [strictOk, allUtf8]
  | .string s => by rw [strictOk, allUtf8, Utf8Decoder.accepts_eq_isValidUtf8]
  | .array elems => by rw [strictOk, allUtf8, strictOkElems_eq elems]
  | .object entries => by rw [strictOk, allUtf8, strictOkEntries_eq entries]

theorem strictOkElems_eq : ∀ elems : List JsonValue, strictOkElems elems = allUtf8Elems elems
  | [] => by rw [strictOkElems, allUtf8Elems]
  | v :: vs => by rw [strictOkElems, allUtf8Elems, strictOk_eq_allUtf8 v, strictOkElems_eq vs]

theorem strictOkEntries_eq : ∀ entries : List (Bytes × JsonValue),
    strictOkEntries entries = allUtf8Entries entries
  | [] => by rw [strictOkEntries, allUtf8Entries]
  | (key, v) :: entries => by
    rw [strictOkEntries, allUtf8Entries, Utf8Decoder.accepts_eq_isValidUtf8,
      strictOk_eq_allUtf8 v, strictOkEntries_eq entries]

end

end JsonValue

namespace JsonLibrary

/-- `dump` as the serialiser decides it. -/
def dumpStrict (lib : JsonLibrary) (j : JsonValue) : Option Bytes :=
  if j.strictOk then some (lib.serialize j) else none

theorem dumpStrict_eq_dump (lib : JsonLibrary) (j : JsonValue) : lib.dumpStrict j = lib.dump j := by
  rw [dumpStrict, dump, JsonValue.strictOk_eq_allUtf8]

end JsonLibrary
end HttpDataDiod
