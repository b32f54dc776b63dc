import HttpDataDiod.Lib.Base64
import HttpDataDiod.Lib.Decimal

/-!
# Well-formed UTF-8

Model of `utf8_utils.hpp`.  The loops of the source walk over the string by an
index; here they walk over the rest of the string, with a count of the bytes
that still belong to the sequence last read.

* `sequenceLength`, `isValidUtf8`, `sanitizeInvalid`: the three functions.
* `isValidUtf8_append`: in front of any text a well-formed one changes nothing.
* `isValidUtf8_sanitizeInvalid`, `sanitizeInvalid_of_isValidUtf8`: sanitised text is
  well formed, and well-formed text is not touched.
* `Text`: the well-formed strings, as a type.
-/

namespace HttpDataDiod

open ByteText

/-! ## One sequence -/

/-- The code point of a lead byte's bits and the continuation bytes after it. -/
def codepointFrom : ℕ → Bytes → Option ℕ
  | codepoint, [] => some codepoint
  | codepoint, next :: rest =>
    if next &&& 0xC0 = 0x80 then
      codepointFrom (codepoint <<< 6 ||| (next &&& 0x3F).toNat) rest
    else none

/-- The least code point that needs so many continuation bytes. -/
def minCodepoint : ℕ → ℕ
  | 0 => 0
  | 1 => 0x80
  | 2 => 0x800
  | _ => 0x10000

/-- Neither overlong, nor above the last code point, nor a surrogate. -/
def codepointAllowed (extra codepoint : ℕ) : Bool :=
  !(codepoint < minCodepoint extra || 0x10FFFF < codepoint ||
    (0xD800 ≤ codepoint && codepoint ≤ 0xDFFF))

/-- The part of `sequence_length` after the lead byte. -/
def multibyteLength (extra lead : ℕ) (rest : Bytes) : ℕ :=
  if rest.length < extra then 0
  else match codepointFrom lead (rest.take extra) with
    | none => 0
    | some codepoint => if codepointAllowed extra codepoint then extra + 1 else 0

/-- `sequence_length` at the first byte of the string. -/
def sequenceLength : Bytes → ℕ
  | [] => 0
  | first :: rest =>
    if first < 0x80 then 1
    else if first &&& 0xE0 = 0xC0 then multibyteLength 1 (first &&& 0x1F).toNat rest
    else if first &&& 0xF0 = 0xE0 then multibyteLength 2 (first &&& 0x0F).toNat rest
    else if first &&& 0xF8 = 0xF0 then multibyteLength 3 (first &&& 0x07).toNat rest
    else 0

theorem multibyteLength_append {extra lead : ℕ} {rest : Bytes} (t : Bytes)
    (h : multibyteLength extra lead rest ≠ 0) :
    multibyteLength extra lead (rest ++ t) = multibyteLength extra lead rest := by
  have hlen : ¬ rest.length < extra := by
    intro hlt
    exact h (by simp [multibyteLength, hlt])
  have hlen' : ¬ (rest ++ t).length < extra := by
    rw [List.length_append]
    omega
  have htake : (rest ++ t).take extra = rest.take extra :=
    List.take_append_of_le_length (by omega)
  simp only [multibyteLength, hlen, hlen', if_false, htake]

theorem multibyteLength_le {extra lead : ℕ} {rest : Bytes} :
    multibyteLength extra lead rest ≤ rest.length + 1 := by
  unfold multibyteLength
  split
  · omega
  · split
    · omega
    · split <;> omega

/-- A complete sequence is not changed by what follows it. -/
theorem sequenceLength_append {s : Bytes} (t : Bytes) (h : sequenceLength s ≠ 0) :
    sequenceLength (s ++ t) = sequenceLength s := by
  cases s with
  | nil => exact absurd rfl h
  | cons first rest =>
    simp only [sequenceLength, List.cons_append] at h ⊢
    split
    · rfl
    · rename_i h₁
      rw [if_neg h₁] at h
      split
      · rename_i h₂
        rw [if_pos h₂] at h
        exact multibyteLength_append t h
      · rename_i h₂
        rw [if_neg h₂] at h
        split
        · rename_i h₃
          rw [if_pos h₃] at h
          exact multibyteLength_append t h
        · rename_i h₃
          rw [if_neg h₃] at h
          split
          · rename_i h₄
            rw [if_pos h₄] at h
            exact multibyteLength_append t h
          · rfl

/-- A sequence lies within the string. -/
theorem sequenceLength_le (s : Bytes) : sequenceLength s ≤ s.length := by
  cases s with
  | nil => exact Nat.le_refl 0
  | cons first rest =>
    simp only [sequenceLength, List.length_cons]
    split
    · omega
    · split
      · exact multibyteLength_le
      · split
        · exact multibyteLength_le
        · split
          · exact multibyteLength_le
          · omega

/-! ## The whole string -/

/-- The loop of `is_valid_utf8`, with so many bytes of the current sequence left. -/
def validFrom : ℕ → Bytes → Bool
  | _, [] => true
  | 0, c :: s =>
    match sequenceLength (c :: s) with
    | 0 => false
    | length + 1 => validFrom length s
  | left + 1, _ :: s => validFrom left s

/-- `is_valid_utf8`. -/
def isValidUtf8 (s : Bytes) : Bool := validFrom 0 s

/-- The loop of `sanitize_invalid`. -/
def sanitizeFrom : ℕ → Bytes → Bytes
  | _, [] => []
  | 0, c :: s =>
    match sequenceLength (c :: s) with
    | 0 => 0xEF :: 0xBF :: 0xBD :: sanitizeFrom 0 s
    | length + 1 => c :: sanitizeFrom length s
  | left + 1, c :: s => c :: sanitizeFrom left s

/-- `sanitize_invalid`: every byte that starts no sequence becomes U+FFFD. -/
def sanitizeInvalid (s : Bytes) : Bytes := sanitizeFrom 0 s

@[simp] theorem isValidUtf8_nil : isValidUtf8 [] = true := rfl

theorem validFrom_eq_drop (left : ℕ) (s : Bytes) :
    validFrom left s = isValidUtf8 (s.drop left) := by
  induction s generalizing left with
  | nil => cases left <;> rfl
  | cons c s ih =>
    cases left with
    | zero => rfl
    | succ left => exact ih left

/-- **One turn of the loop.**  A string is well formed when it starts with a
sequence and is well formed after it. -/
theorem isValidUtf8_cons (c : UInt8) (s : Bytes) :
    isValidUtf8 (c :: s) =
      (decide (sequenceLength (c :: s) ≠ 0) &&
        isValidUtf8 ((c :: s).drop (sequenceLength (c :: s)))) := by
  show validFrom 0 (c :: s) = _
  rw [validFrom]
  split
  · rename_i h
    simp [h]
  · rename_i length h
    rw [h, validFrom_eq_drop]
    simp

/-- **Well-formed text in front changes nothing.** -/
theorem isValidUtf8_append {s : Bytes} (t : Bytes) (hs : isValidUtf8 s = true) :
    isValidUtf8 (s ++ t) = isValidUtf8 t := by
  induction hn : s.length using Nat.strong_induction_on generalizing s with
  | _ n ih =>
    cases s with
    | nil => rfl
    | cons c s =>
      rw [isValidUtf8_cons, Bool.and_eq_true, decide_eq_true_eq] at hs
      have hlen : sequenceLength ((c :: s) ++ t) = sequenceLength (c :: s) :=
        sequenceLength_append t hs.1
      have hle : sequenceLength (c :: s) ≤ (c :: s).length := sequenceLength_le _
      have hshort : ((c :: s).drop (sequenceLength (c :: s))).length < n := by
        rw [List.length_drop, hn]
        have := List.length_pos_of_ne_nil (List.cons_ne_nil c s)
        have := Nat.pos_of_ne_zero hs.1
        omega
      have hrest := ih _ hshort hs.2 rfl
      rw [List.cons_append, isValidUtf8_cons, ← List.cons_append, hlen,
        List.drop_append_of_le_length hle, hrest]
      simp [hs.1]

theorem isValidUtf8_append_of_valid {s t : Bytes} (hs : isValidUtf8 s = true)
    (ht : isValidUtf8 t = true) : isValidUtf8 (s ++ t) = true := by
  rw [isValidUtf8_append t hs, ht]

/-- ASCII text is well formed. -/
theorem isValidUtf8_of_forall_lt {s : Bytes} (h : ∀ c ∈ s, c < 0x80) :
    isValidUtf8 s = true := by
  induction s with
  | nil => rfl
  | cons c s ih =>
    have hc : c < 0x80 := h c List.mem_cons_self
    have hlen : sequenceLength (c :: s) = 1 := by simp [sequenceLength, hc]
    rw [isValidUtf8_cons, hlen]
    exact ih fun d hd => h d (List.mem_cons_of_mem c hd)

theorem isValidUtf8_decimal (n : ℕ) : isValidUtf8 (decimal n) = true := by
  refine isValidUtf8_of_forall_lt fun c hc => ?_
  have hdigit := isDigit_of_mem_decimal hc
  simp only [isDigit, Bool.and_eq_true, decide_eq_true_eq] at hdigit
  exact UInt8.lt_of_le_of_lt hdigit.2 (by decide)

theorem isValidUtf8_decimalInt (n : ℤ) : isValidUtf8 (decimalInt n) = true := by
  unfold decimalInt
  split
  · exact isValidUtf8_append_of_valid (s := [45]) (by decide) (isValidUtf8_decimal _)
  · exact isValidUtf8_decimal _

theorem isValidUtf8_toBase64 (s : Bytes) : isValidUtf8 (toBase64 s) = true :=
  isValidUtf8_of_forall_lt fun _ => lt_of_mem_toBase64

/-! ## Sanitised text -/

theorem sanitizeFrom_eq (left : ℕ) (s : Bytes) :
    sanitizeFrom left s = s.take left ++ sanitizeInvalid (s.drop left) := by
  induction s generalizing left with
  | nil => cases left <;> rfl
  | cons c s ih =>
    cases left with
    | zero => rfl
    | succ left => rw [sanitizeFrom, ih, List.take_succ_cons, List.drop_succ_cons, List.cons_append]

/-- **One turn of the loop.**  A sequence is kept, a byte that starts none is
replaced. -/
theorem sanitizeInvalid_cons (c : UInt8) (s : Bytes) :
    sanitizeInvalid (c :: s) =
      if sequenceLength (c :: s) = 0 then 0xEF :: 0xBF :: 0xBD :: sanitizeInvalid s
      else (c :: s).take (sequenceLength (c :: s)) ++
        sanitizeInvalid ((c :: s).drop (sequenceLength (c :: s))) := by
  show sanitizeFrom 0 (c :: s) = _
  rw [sanitizeFrom]
  split
  · rename_i h
    rw [if_pos h]
    rfl
  · rename_i length h
    rw [if_neg (by omega), h, sanitizeFrom_eq, List.take_succ_cons, List.drop_succ_cons,
      List.cons_append]

theorem multibyteLength_take {extra lead : ℕ} {rest : Bytes}
    (h : multibyteLength extra lead rest ≠ 0) (n : ℕ)
    (hn : multibyteLength extra lead rest = n + 1) :
    multibyteLength extra lead (rest.take n) = multibyteLength extra lead rest := by
  have hlen : ¬ rest.length < extra := by
    intro hlt
    exact h (by simp [multibyteLength, hlt])
  have hextra : n = extra := by
    simp only [multibyteLength, hlen, if_false] at hn
    split at hn
    · omega
    · split at hn <;> omega
  subst hextra
  have hlen' : ¬ (rest.take n).length < n := by
    rw [List.length_take]
    omega
  simp only [multibyteLength, hlen, hlen', if_false, List.take_take, Nat.min_self]

/-- A sequence cut out of the string is still one. -/
theorem sequenceLength_take {s : Bytes} (h : sequenceLength s ≠ 0) :
    sequenceLength (s.take (sequenceLength s)) = sequenceLength s := by
  cases s with
  | nil => exact absurd rfl h
  | cons first rest =>
    obtain ⟨n, hn⟩ := Nat.exists_eq_succ_of_ne_zero h
    rw [hn, List.take_succ_cons]
    simp only [sequenceLength] at h hn ⊢
    split at hn
    · rename_i h₁
      rw [if_pos h₁, ← hn]
    · rename_i h₁
      rw [if_neg h₁] at h ⊢
      split at hn
      · rename_i h₂
        rw [if_pos h₂] at h ⊢
        rw [multibyteLength_take h n hn, hn]
      · rename_i h₂
        rw [if_neg h₂] at h ⊢
        split at hn
        · rename_i h₃
          rw [if_pos h₃] at h ⊢
          rw [multibyteLength_take h n hn, hn]
        · rename_i h₃
          rw [if_neg h₃] at h ⊢
          split at hn
          · rename_i h₄
            rw [if_pos h₄] at h ⊢
            rw [multibyteLength_take h n hn, hn]
          · exact absurd hn (by simp)

/-- One sequence on its own is well formed. -/
theorem isValidUtf8_take {c : UInt8} {s : Bytes} (h : sequenceLength (c :: s) ≠ 0) :
    isValidUtf8 ((c :: s).take (sequenceLength (c :: s))) = true := by
  have htake := sequenceLength_take h
  obtain ⟨n, hn⟩ := Nat.exists_eq_succ_of_ne_zero h
  rw [hn, List.take_succ_cons] at htake ⊢
  rw [isValidUtf8_cons, htake, List.drop_succ_cons,
    List.drop_eq_nil_of_le (List.length_take_le n s)]
  simp

/-- **Sanitised text is well formed.** -/
theorem isValidUtf8_sanitizeInvalid (s : Bytes) : isValidUtf8 (sanitizeInvalid s) = true := by
  induction hn : s.length using Nat.strong_induction_on generalizing s with
  | _ n ih =>
    cases s with
    | nil => rfl
    | cons c s =>
      rw [List.length_cons] at hn
      rw [sanitizeInvalid_cons]
      split
      · have hmark : isValidUtf8 [0xEF, 0xBF, 0xBD] = true := by decide
        exact isValidUtf8_append_of_valid hmark (ih s.length (by omega) s rfl)
      · rename_i hlength
        refine isValidUtf8_append_of_valid (isValidUtf8_take hlength) (ih _ ?_ _ rfl)
        rw [List.length_drop, List.length_cons]
        omega

/-- **Well-formed text is left as it is.** -/
theorem sanitizeInvalid_of_isValidUtf8 {s : Bytes} (hs : isValidUtf8 s = true) :
    sanitizeInvalid s = s := by
  induction hn : s.length using Nat.strong_induction_on generalizing s with
  | _ n ih =>
    cases s with
    | nil => rfl
    | cons c s =>
      rw [List.length_cons] at hn
      rw [isValidUtf8_cons, Bool.and_eq_true, decide_eq_true_eq] at hs
      have hshort : ((c :: s).drop (sequenceLength (c :: s))).length < n := by
        rw [List.length_drop, List.length_cons]
        have := Nat.pos_of_ne_zero hs.1
        omega
      rw [sanitizeInvalid_cons, if_neg hs.1, ih _ hshort hs.2 rfl, List.take_append_drop]

/-- A well-formed string. -/
structure Text where
  bytes : Bytes
  valid : isValidUtf8 bytes = true

end HttpDataDiod
