import HttpDataDiod.Lib.ByteText

/-!
# Base64

The codec with the standard alphabet and padding.  Three bytes become four
characters; one or two bytes left over become two or three characters and the
padding.  The decoder counts the padding signs among the last four characters,
and does not look at the bits that the padding leaves unused.

* `toBase64`, `fromBase64`: the two directions; `none` where the text is malformed.
* `fromBase64_toBase64`: what was encoded is decoded.
* `length_toBase64`: four characters for each three bytes begun.
* `lt_of_mem_toBase64`: the text is ASCII.
-/

namespace ByteText

/-! ## The alphabet -/

/-- The character of a six-bit value. -/
def encodeChar (n : ℕ) : UInt8 :=
  if n < 26 then UInt8.ofNat (n + 65)
  else if n < 52 then UInt8.ofNat (n + 71)
  else if n < 62 then UInt8.ofNat (n - 4)
  else if n = 62 then 43 else 47

/-- The six-bit value of a character; the padding sign has none. -/
def decodeChar (c : UInt8) : Option ℕ :=
  if 65 ≤ c && c ≤ 90 then some (c.toNat - 65)
  else if 97 ≤ c && c ≤ 122 then some (c.toNat - 71)
  else if 48 ≤ c && c ≤ 57 then some (c.toNat + 4)
  else if c = 43 then some 62
  else if c = 47 then some 63
  else none

/-- The padding sign. -/
def padding : UInt8 := 61

theorem decodeChar_encodeChar {n : ℕ} (hn : n < 64) : decodeChar (encodeChar n) = some n := by
  have h : ∀ i : Fin 64, decodeChar (encodeChar i.val) = some i.val := by decide
  exact h ⟨n, hn⟩

theorem encodeChar_ne_padding (n : ℕ) : encodeChar n ≠ padding := by
  by_cases hn : n < 64
  · have h : ∀ i : Fin 64, encodeChar i.val ≠ padding := by decide
    exact h ⟨n, hn⟩
  · have h₁ : ¬ n < 26 := by omega
    have h₂ : ¬ n < 52 := by omega
    have h₃ : ¬ n < 62 := by omega
    have h₄ : ¬ n = 62 := by omega
    simp only [encodeChar, h₁, h₂, h₃, h₄, if_false]
    decide

theorem encodeChar_lt (n : ℕ) : encodeChar n < 0x80 := by
  by_cases hn : n < 64
  · have h : ∀ i : Fin 64, encodeChar i.val < 0x80 := by decide
    exact h ⟨n, hn⟩
  · have h₁ : ¬ n < 26 := by omega
    have h₂ : ¬ n < 52 := by omega
    have h₃ : ¬ n < 62 := by omega
    have h₄ : ¬ n = 62 := by omega
    simp only [encodeChar, h₁, h₂, h₃, h₄, if_false]
    decide

/-! ## The codec -/

/-- `to_base64`.  The shifts and masks of the bytes are written as quotients and
remainders. -/
def toBase64 : Bytes → Bytes
  | [] => []
  | [t1] =>
    [encodeChar (t1.toNat / 4), encodeChar (t1.toNat % 4 * 16), padding, padding]
  | [t1, t2] =>
    [encodeChar (t1.toNat / 4), encodeChar (t1.toNat % 4 * 16 + t2.toNat / 16),
     encodeChar (t2.toNat % 16 * 4), padding]
  | t1 :: t2 :: t3 :: rest =>
    encodeChar (t1.toNat / 4) :: encodeChar (t1.toNat % 4 * 16 + t2.toNat / 16) ::
      encodeChar (t2.toNat % 16 * 4 + t3.toNat / 64) :: encodeChar (t3.toNat % 64) ::
      toBase64 rest

/-- The first byte of a group, from the values of two characters. -/
def firstByte (d1 d2 : ℕ) : UInt8 := UInt8.ofNat (d1 * 4 + d2 / 16)

/-- The second byte of a group. -/
def secondByte (d2 d3 : ℕ) : UInt8 := UInt8.ofNat (d2 % 16 * 16 + d3 / 4)

/-- The third byte of a group. -/
def thirdByte (d3 d4 : ℕ) : UInt8 := UInt8.ofNat (d3 % 4 * 64 + d4)

/-- Four characters without padding. -/
def decodeQuad (t1 t2 t3 t4 : UInt8) : Option Bytes := do
  let d1 ← decodeChar t1
  let d2 ← decodeChar t2
  let d3 ← decodeChar t3
  let d4 ← decodeChar t4
  some [firstByte d1 d2, secondByte d2 d3, thirdByte d3 d4]

/-- The last four characters: as many are read as there are no padding signs, and
more than two signs are an error. -/
def decodeLast (t1 t2 t3 t4 : UInt8) : Option Bytes :=
  match [t1, t2, t3, t4].count padding with
  | 0 => decodeQuad t1 t2 t3 t4
  | 1 => do
    let d1 ← decodeChar t1
    let d2 ← decodeChar t2
    let d3 ← decodeChar t3
    some [firstByte d1 d2, secondByte d2 d3]
  | 2 => do
    let d1 ← decodeChar t1
    let d2 ← decodeChar t2
    some [firstByte d1 d2]
  | _ => none

/-- `from_base64`; `none` where it throws. -/
def fromBase64 : Bytes → Option Bytes
  | [] => some []
  | [t1, t2, t3, t4] => decodeLast t1 t2 t3 t4
  | t1 :: t2 :: t3 :: t4 :: rest => do
    let head ← decodeQuad t1 t2 t3 t4
    let tail ← fromBase64 rest
    some (head ++ tail)
  | _ => none

/-! ## The length and the characters of the text -/

/-- **The length of the text**: four characters for each three bytes begun. -/
theorem length_toBase64 (s : Bytes) : (toBase64 s).length = 4 * ((s.length + 2) / 3) := by
  induction s using toBase64.induct with
  | case1 => rfl
  | case2 t1 => simp only [toBase64, List.length_cons, List.length_nil]
  | case3 t1 t2 => simp only [toBase64, List.length_cons, List.length_nil]
  | case4 t1 t2 t3 rest ih =>
    simp only [toBase64, List.length_cons, ih]
    omega

/-- **The text is ASCII.** -/
theorem lt_of_mem_toBase64 {s : Bytes} {c : UInt8} (h : c ∈ toBase64 s) : c < 0x80 := by
  have hpad : padding < 0x80 := by decide
  induction s using toBase64.induct with
  | case1 => exact absurd h List.not_mem_nil
  | case2 t1 =>
    simp only [toBase64, List.mem_cons, List.not_mem_nil, or_false] at h
    rcases h with rfl | rfl | rfl | rfl
    · exact encodeChar_lt _
    · exact encodeChar_lt _
    · exact hpad
    · exact hpad
  | case3 t1 t2 =>
    simp only [toBase64, List.mem_cons, List.not_mem_nil, or_false] at h
    rcases h with rfl | rfl | rfl | rfl
    · exact encodeChar_lt _
    · exact encodeChar_lt _
    · exact encodeChar_lt _
    · exact hpad
  | case4 t1 t2 t3 rest ih =>
    simp only [toBase64, List.mem_cons] at h
    rcases h with rfl | rfl | rfl | rfl | h
    · exact encodeChar_lt _
    · exact encodeChar_lt _
    · exact encodeChar_lt _
    · exact encodeChar_lt _
    · exact ih h

/-! ## The round trip -/

theorem firstByte_eq (t1 : UInt8) {low : ℕ} (hlow : low < 16) :
    firstByte (t1.toNat / 4) (t1.toNat % 4 * 16 + low) = t1 := by
  have h : t1.toNat / 4 * 4 + (t1.toNat % 4 * 16 + low) / 16 = t1.toNat := by omega
  rw [firstByte, h]
  exact UInt8.ofNat_toNat

theorem secondByte_eq (t2 : UInt8) (high : ℕ) {low : ℕ} (hlow : low < 4) :
    secondByte (high * 16 + t2.toNat / 16) (t2.toNat % 16 * 4 + low) = t2 := by
  have hlt : t2.toNat < 256 := t2.toNat_lt
  have h : (high * 16 + t2.toNat / 16) % 16 * 16 + (t2.toNat % 16 * 4 + low) / 4 = t2.toNat := by
    omega
  rw [secondByte, h]
  exact UInt8.ofNat_toNat

theorem thirdByte_eq (t3 : UInt8) (high : ℕ) :
    thirdByte (high * 4 + t3.toNat / 64) (t3.toNat % 64) = t3 := by
  have hlt : t3.toNat < 256 := t3.toNat_lt
  have h : (high * 4 + t3.toNat / 64) % 4 * 64 + t3.toNat % 64 = t3.toNat := by omega
  rw [thirdByte, h]
  exact UInt8.ofNat_toNat

theorem decodeQuad_encode (t1 t2 t3 : UInt8) :
    decodeQuad (encodeChar (t1.toNat / 4)) (encodeChar (t1.toNat % 4 * 16 + t2.toNat / 16))
      (encodeChar (t2.toNat % 16 * 4 + t3.toNat / 64)) (encodeChar (t3.toNat % 64)) =
      some [t1, t2, t3] := by
  have h1 : t1.toNat < 256 := t1.toNat_lt
  have h2 : t2.toNat < 256 := t2.toNat_lt
  have h3 : t3.toNat < 256 := t3.toNat_lt
  have hlow2 : t2.toNat / 16 < 16 := by omega
  have hlow3 : t3.toNat / 64 < 4 := by omega
  rw [decodeQuad, decodeChar_encodeChar (by omega), decodeChar_encodeChar (by omega),
    decodeChar_encodeChar (by omega), decodeChar_encodeChar (by omega)]
  show some [firstByte _ _, secondByte _ _, thirdByte _ _] = _
  rw [firstByte_eq t1 hlow2, secondByte_eq t2 _ hlow3, thirdByte_eq t3]

theorem toBase64_ne_nil {s : Bytes} (hs : s ≠ []) : toBase64 s ≠ [] := by
  intro h
  have hlen := length_toBase64 s
  have hpos : 0 < s.length := List.length_pos_of_ne_nil hs
  rw [h, List.length_nil] at hlen
  omega

/-- Four characters in front of a text that is not empty. -/
theorem fromBase64_cons {t1 t2 t3 t4 : UInt8} {rest : Bytes} (hrest : rest ≠ []) :
    fromBase64 (t1 :: t2 :: t3 :: t4 :: rest) =
      (decodeQuad t1 t2 t3 t4).bind fun head =>
        (fromBase64 rest).bind fun tail => some (head ++ tail) := by
  cases rest with
  | nil => exact absurd rfl hrest
  | cons c rest => rfl

theorem count_padding_eq_zero {a b c d : ℕ} :
    [encodeChar a, encodeChar b, encodeChar c, encodeChar d].count padding = 0 := by
  refine List.count_eq_zero_of_not_mem fun h => ?_
  simp only [List.mem_cons, List.not_mem_nil, or_false] at h
  rcases h with h | h | h | h <;> exact encodeChar_ne_padding _ h.symm

/-- **The round trip**: what was encoded is decoded. -/
theorem fromBase64_toBase64 (s : Bytes) : fromBase64 (toBase64 s) = some s := by
  induction s using toBase64.induct with
  | case1 => rfl
  | case2 t1 =>
    have h1 : t1.toNat < 256 := t1.toNat_lt
    have hcount : [encodeChar (t1.toNat / 4), encodeChar (t1.toNat % 4 * 16), padding,
        padding].count padding = 2 := by
      rw [List.count_cons_of_ne (encodeChar_ne_padding _),
        List.count_cons_of_ne (encodeChar_ne_padding _)]
      rfl
    rw [toBase64, fromBase64, decodeLast, hcount]
    simp only [decodeChar_encodeChar (show t1.toNat / 4 < 64 by omega),
      decodeChar_encodeChar (show t1.toNat % 4 * 16 < 64 by omega), Option.bind_eq_bind,
      Option.bind_some]
    rw [← Nat.add_zero (t1.toNat % 4 * 16), firstByte_eq t1 (by omega)]
  | case3 t1 t2 =>
    have h1 : t1.toNat < 256 := t1.toNat_lt
    have h2 : t2.toNat < 256 := t2.toNat_lt
    have hcount : [encodeChar (t1.toNat / 4), encodeChar (t1.toNat % 4 * 16 + t2.toNat / 16),
        encodeChar (t2.toNat % 16 * 4), padding].count padding = 1 := by
      rw [List.count_cons_of_ne (encodeChar_ne_padding _),
        List.count_cons_of_ne (encodeChar_ne_padding _),
        List.count_cons_of_ne (encodeChar_ne_padding _)]
      rfl
    rw [toBase64, fromBase64, decodeLast, hcount]
    simp only [decodeChar_encodeChar (show t1.toNat / 4 < 64 by omega),
      decodeChar_encodeChar (show t1.toNat % 4 * 16 + t2.toNat / 16 < 64 by omega),
      decodeChar_encodeChar (show t2.toNat % 16 * 4 < 64 by omega), Option.bind_eq_bind,
      Option.bind_some]
    rw [firstByte_eq t1 (by omega), ← Nat.add_zero (t2.toNat % 16 * 4),
      secondByte_eq t2 _ (by omega)]
  | case4 t1 t2 t3 rest ih =>
    rw [toBase64]
    by_cases hrest : rest = []
    · subst hrest
      rw [toBase64, fromBase64, decodeLast, count_padding_eq_zero]
      exact decodeQuad_encode t1 t2 t3
    · rw [fromBase64_cons (toBase64_ne_nil hrest), decodeQuad_encode, ih]
      rfl

example : toBase64 (ascii "fooba") = ascii "Zm9vYmE=" := by decide

end ByteText
