import HttpDataDiod.Json.Escape
import HttpDataDiod.Json.Utf8Encoding

/-!
# Reading a string

Model of `lexer::scan_string` of `nlohmann/json.hpp` behind the opening quote: escapes are
decoded, control characters are refused, and the bytes of a multi-byte character are
checked against the ranges that belong to its lead byte.

* `scanString`: the loop; what is left of a multi-byte character is a list of ranges.
* `scanString_escaped`: what `dump_escaped` wrote is read back.
* `isValidUtf8_of_scanString`: what is read is well formed, whatever the input.
-/

namespace HttpDataDiod

open ByteText Serializer Utf8Decoder Utf8Encoding

namespace Lexer

/-- The value of a hexadecimal digit, of either case. -/
def hexValue (c : UInt8) : Option ℕ :=
  if 48 ≤ c ∧ c ≤ 57 then some (c.toNat - 0x30)
  else if 65 ≤ c ∧ c ≤ 70 then some (c.toNat - 0x37)
  else if 97 ≤ c ∧ c ≤ 102 then some (c.toNat - 0x57)
  else none

/-- `get_codepoint` on the four characters behind `\u`. -/
def getCodepoint (c₁ c₂ c₃ c₄ : UInt8) : Option ℕ := do
  let d₁ ← hexValue c₁
  let d₂ ← hexValue c₂
  let d₃ ← hexValue c₃
  let d₄ ← hexValue c₄
  return d₁ * 4096 + d₂ * 256 + d₃ * 16 + d₄

/-- A code point as its bytes. -/
def encodeCodepoint (codepoint : ℕ) : Bytes :=
  if codepoint < 0x80 then [UInt8.ofNat codepoint]
  else if codepoint ≤ 0x7FF then
    [UInt8.ofNat (0xC0 ||| codepoint >>> 6), UInt8.ofNat (0x80 ||| codepoint &&& 0x3F)]
  else if codepoint ≤ 0xFFFF then
    [UInt8.ofNat (0xE0 ||| codepoint >>> 12), UInt8.ofNat (0x80 ||| codepoint >>> 6 &&& 0x3F),
      UInt8.ofNat (0x80 ||| codepoint &&& 0x3F)]
  else
    [UInt8.ofNat (0xF0 ||| codepoint >>> 18), UInt8.ofNat (0x80 ||| codepoint >>> 12 &&& 0x3F),
      UInt8.ofNat (0x80 ||| codepoint >>> 6 &&& 0x3F), UInt8.ofNat (0x80 ||| codepoint &&& 0x3F)]

/-- The character that stands for itself or is named by the letter behind a backslash. -/
def simpleEscape (c : UInt8) : Option UInt8 :=
  if c = 34 then some 34        -- quotation mark
  else if c = 92 then some 92   -- reverse solidus
  else if c = 47 then some 47   -- solidus
  else if c = 98 then some 8    -- backspace
  else if c = 102 then some 12  -- form feed
  else if c = 110 then some 10  -- line feed
  else if c = 114 then some 13  -- carriage return
  else if c = 116 then some 9   -- tab
  else none

/-- The ranges that `next_byte_in_range` checks after a lead byte. -/
def followRanges (c : UInt8) : Option (List (ℕ × ℕ)) :=
  if 0xC2 ≤ c ∧ c ≤ 0xDF then some [(0x80, 0xBF)]
  else if c = 0xE0 then some [(0xA0, 0xBF), (0x80, 0xBF)]
  else if 0xE1 ≤ c ∧ c ≤ 0xEC ∨ c = 0xEE ∨ c = 0xEF then some [(0x80, 0xBF), (0x80, 0xBF)]
  else if c = 0xED then some [(0x80, 0x9F), (0x80, 0xBF)]
  else if c = 0xF0 then some [(0x90, 0xBF), (0x80, 0xBF), (0x80, 0xBF)]
  else if 0xF1 ≤ c ∧ c ≤ 0xF3 then some [(0x80, 0xBF), (0x80, 0xBF), (0x80, 0xBF)]
  else if c = 0xF4 then some [(0x80, 0x8F), (0x80, 0xBF), (0x80, 0xBF)]
  else none

/-- Bytes added to the front of the token buffer. -/
def addFront (bytes : Bytes) : Option (Bytes × Bytes) → Option (Bytes × Bytes) :=
  Option.map fun r => (bytes ++ r.1, r.2)

mutual

/-- `scan_string` behind the opening quote: the string and the input behind the closing
quote; `none` is a parse error.  The ranges are those of the bytes that are still to come
of a multi-byte character. -/
def scanStringFrom : List (ℕ × ℕ) → Bytes → Option (Bytes × Bytes)
  | _, [] => none
  | range :: ranges, c :: s =>
    if range.1 ≤ c.toNat ∧ c.toNat ≤ range.2 then addFront [c] (scanStringFrom ranges s)
    else none
  | [], c :: s =>
    if c = 34 then some ([], s)
    else if c = 92 then scanEscape s
    else if c < 0x20 then none
    else if c < 0x80 then addFront [c] (scanStringFrom [] s)
    else
      match followRanges c with
      | none => none
      | some ranges => addFront [c] (scanStringFrom ranges s)

/-- Behind a backslash. -/
def scanEscape : Bytes → Option (Bytes × Bytes)
  | [] => none
  | c :: s =>
    if c = 117 then scanUnicode s
    else
      match simpleEscape c with
      | none => none
      | some b => addFront [b] (scanStringFrom [] s)

/-- Behind `\u`. -/
def scanUnicode : Bytes → Option (Bytes × Bytes)
  | c₁ :: c₂ :: c₃ :: c₄ :: s =>
    match getCodepoint c₁ c₂ c₃ c₄ with
    | none => none
    | some codepoint₁ =>
      if 0xD800 ≤ codepoint₁ ∧ codepoint₁ ≤ 0xDBFF then scanLowSurrogate codepoint₁ s
      else if 0xDC00 ≤ codepoint₁ ∧ codepoint₁ ≤ 0xDFFF then none
      else addFront (encodeCodepoint codepoint₁) (scanStringFrom [] s)
  | _ => none

/-- Behind the first half of a surrogate pair. -/
def scanLowSurrogate (codepoint₁ : ℕ) : Bytes → Option (Bytes × Bytes)
  | b :: u :: c₁ :: c₂ :: c₃ :: c₄ :: s =>
    if b = 92 ∧ u = 117 then
      match getCodepoint c₁ c₂ c₃ c₄ with
      | none => none
      | some codepoint₂ =>
        if 0xDC00 ≤ codepoint₂ ∧ codepoint₂ ≤ 0xDFFF then
          addFront (encodeCodepoint (codepoint₁ * 1024 + codepoint₂ - 0x35FDC00))
            (scanStringFrom [] s)
        else none
    else none
  | _ => none

end

/-- `scan_string`. -/
def scanString (s : Bytes) : Option (Bytes × Bytes) := scanStringFrom [] s

/-! ## The bytes of a code point -/

/-- A scalar value is written with the bytes of its character. -/
theorem encodeCodepoint_toNat (c : Char) :
    encodeCodepoint c.val.toNat = String.utf8EncodeChar c := by
  have hmax := (scalar_ne_surrogate c).1
  have hor : ∀ {a k b : ℕ}, b < 2 ^ k → a <<< k ||| b = a * 2 ^ k + b := by
    intro a k b hb
    rw [← Nat.shiftLeft_add_eq_or_of_lt hb, Nat.shiftLeft_eq]
  have hlow : ∀ n : ℕ, 0x80 ||| n &&& 0x3F = n % 64 + 0x80 := by
    intro n
    have hmod : n &&& 0x3F = n % 64 := Nat.and_two_pow_sub_one_eq_mod n 6
    have hsum := @hor 2 6 (n % 64) (Nat.mod_lt n (by decide))
    rw [hmod]
    exact hsum.trans (Nat.add_comm _ _)
  unfold encodeCodepoint String.utf8EncodeChar
  simp only [hlow, Nat.shiftRight_eq_div_pow]
  generalize c.val.toNat = v at hmax
  by_cases h₁ : v ≤ 0x7F
  · rw [if_pos (by omega), if_pos h₁]
  · rw [if_neg (by omega), if_neg h₁]
    by_cases h₂ : v ≤ 0x7FF
    · have hlead : 0xC0 ||| v / 2 ^ 6 = v / 64 % 0x20 + 0xC0 :=
        (@hor 3 6 _ (by omega)).trans (by omega)
      rw [if_pos h₂, if_pos h₂, hlead]
    · rw [if_neg h₂, if_neg h₂]
      by_cases h₃ : v ≤ 0xFFFF
      · have hlead : 0xE0 ||| v / 2 ^ 12 = v / 4096 % 0x10 + 0xE0 :=
          (@hor 7 5 _ (by omega)).trans (by omega)
        rw [if_pos h₃, if_pos h₃, hlead]
      · have hlead : 0xF0 ||| v / 2 ^ 18 = v / 262144 % 0x08 + 0xF0 :=
          (@hor 15 4 _ (by omega)).trans (by omega)
        rw [if_neg h₃, if_neg h₃, hlead]

/-- The bytes of a code point outside the surrogates are accepted. -/
theorem foldl_encodeCodepoint {codepoint : ℕ} (hmax : codepoint ≤ 0x10FFFF)
    (hsurrogate : codepoint < 0xD800 ∨ 0xDFFF < codepoint) :
    (encodeCodepoint codepoint).foldl decode 0 = 0 := by
  obtain ⟨c, hc⟩ : ∃ c : Char, c.val.toNat = codepoint :=
    exists_scalar_of_allowed ((codepointAllowed_iff 0 codepoint).mpr
      ⟨Nat.zero_le _, hmax, hsurrogate⟩)
  have hvalid : isValidUtf8 (String.utf8EncodeChar c) = true := by
    have h := isValidUtf8_encode_append c []
    rwa [List.append_nil] at h
  rw [← hc, encodeCodepoint_toNat]
  rw [← accepts_eq_isValidUtf8] at hvalid
  exact of_decide_eq_true hvalid

theorem hexValue_lt {c : UInt8} {n : ℕ} (h : hexValue c = some n) : n < 16 := by
  have hall := forall_byte (P := fun c _ => ((hexValue c).all fun n => n < 16) = true)
    (by decide +kernel) c
  rw [h] at hall
  exact of_decide_eq_true hall

theorem getCodepoint_lt {c₁ c₂ c₃ c₄ : UInt8} {n : ℕ} (h : getCodepoint c₁ c₂ c₃ c₄ = some n) :
    n < 65536 := by
  simp only [getCodepoint, bind, Option.bind_eq_some_iff, pure, Option.some.injEq] at h
  obtain ⟨d₁, h₁, d₂, h₂, d₃, h₃, d₄, h₄, rfl⟩ := h
  have := hexValue_lt h₁
  have := hexValue_lt h₂
  have := hexValue_lt h₃
  have := hexValue_lt h₄
  omega

/-! ## The ranges and the decoder -/

/-- The ranges that are left in a state of the decoder. -/
def rangesOf : ℕ → List (ℕ × ℕ)
  | 2 => [(0x80, 0xBF)]
  | 3 => [(0x80, 0xBF), (0x80, 0xBF)]
  | 4 => [(0xA0, 0xBF), (0x80, 0xBF)]
  | 5 => [(0x80, 0x9F), (0x80, 0xBF)]
  | 6 => [(0x90, 0xBF), (0x80, 0xBF), (0x80, 0xBF)]
  | 7 => [(0x80, 0xBF), (0x80, 0xBF), (0x80, 0xBF)]
  | 8 => [(0x80, 0x8F), (0x80, 0xBF), (0x80, 0xBF)]
  | _ => []

/-- The states of the decoder in which a string can go on. -/
def Going (state : ℕ) : Prop := state = 0 ∨ 2 ≤ state ∧ state ≤ 8

theorem rangesOf_eq_cons {state : ℕ} (hlo : 2 ≤ state) (hhi : state ≤ 8) :
    rangesOf state =
      ((window state).1, (window state).2.1 - 1) :: rangesOf (window state).2.2 ∧
      Going (window state).2.2 ∧ 0 < (window state).2.1 := by
  obtain rfl | rfl | rfl | rfl | rfl | rfl | rfl : state = 2 ∨ state = 3 ∨ state = 4 ∨
      state = 5 ∨ state = 6 ∨ state = 7 ∨ state = 8 := by omega
  all_goals exact ⟨rfl, by simp [Going, window], by decide⟩

/-- The ranges of a lead byte are those of the state after it. -/
theorem followRanges_eq {c : UInt8} (hc : ¬ c < 0x80) :
    followRanges c =
      if decode 0 c = 1 then none else some (rangesOf (decode 0 c)) :=
  forall_byte (P := fun c _ => ¬ c < 0x80 → followRanges c =
    if decode 0 c = 1 then none else some (rangesOf (decode 0 c))) (by decide +kernel) c hc

/-- The state after a lead byte. -/
theorem going_decode_zero {c : UInt8} (h : decode 0 c ≠ 1) : Going (decode 0 c) :=
  forall_byte (P := fun c _ => decode 0 c ≠ 1 →
    (decode 0 c = 0 ∨ 2 ≤ decode 0 c ∧ decode 0 c ≤ 8)) (by decide +kernel) c h

theorem decode_zero_of_ascii {c : UInt8} (h : c < 0x80) : decode 0 c = 0 :=
  forall_byte (P := fun c _ => c < 0x80 → decode 0 c = 0) (by decide +kernel) c h

/-! ## Reading what was written -/

/-- The forms of the escape of an ASCII character. -/
inductive EscapeForm (c : UInt8) : Bytes → Prop where
  /-- The character itself. -/
  | plain : 0x20 ≤ c → c ≠ 34 → c ≠ 92 → EscapeForm c [c]
  /-- A backslash and a letter. -/
  | letter {e : UInt8} : e ≠ 117 → simpleEscape e = some c → EscapeForm c [92, e]
  /-- `\u` and four digits. -/
  | digits {c₁ c₂ c₃ c₄ : UInt8} : getCodepoint c₁ c₂ c₃ c₄ = some c.toNat →
      EscapeForm c [92, 117, c₁, c₂, c₃, c₄]

theorem escapeForm (c : UInt8) (hc : c < 0x80) : EscapeForm c (escapeByte c) := by
  have hall := forall_byte (P := fun c _ => c < 0x80 →
    escapeByte c = [c] ∧ 0x20 ≤ c ∧ c ≠ 34 ∧ c ≠ 92 ∨
    escapeByte c = [92, (escapeByte c).getD 1 0] ∧ (escapeByte c).getD 1 0 ≠ 117 ∧
      simpleEscape ((escapeByte c).getD 1 0) = some c ∨
    escapeByte c = [92, 117, (escapeByte c).getD 2 0, (escapeByte c).getD 3 0,
        (escapeByte c).getD 4 0, (escapeByte c).getD 5 0] ∧
      getCodepoint ((escapeByte c).getD 2 0) ((escapeByte c).getD 3 0)
        ((escapeByte c).getD 4 0) ((escapeByte c).getD 5 0) = some c.toNat)
    (by decide +kernel) c hc
  rcases hall with ⟨heq, hlow, hquote, hslash⟩ | ⟨heq, hletter, hsimple⟩ | ⟨heq, hdigits⟩
  · rw [heq]
    exact .plain hlow hquote hslash
  · rw [heq]
    exact .letter hletter hsimple
  · rw [heq]
    exact .digits hdigits

/-- An escaped ASCII character is read as that character. -/
theorem scanStringFrom_escapeByte {c : UInt8} (hc : c < 0x80) (s : Bytes) :
    scanStringFrom [] (escapeByte c ++ s) = addFront [c] (scanStringFrom [] s) := by
  generalize hform : escapeByte c = bytes
  have h := hform ▸ escapeForm c hc
  cases h with
  | plain hlow hquote hslash =>
    rw [List.singleton_append, scanStringFrom, if_neg hquote, if_neg hslash,
      if_neg (UInt8.not_lt.mpr hlow), if_pos hc]
  | letter hletter hsimple =>
    rw [List.cons_append, List.cons_append, List.nil_append, scanStringFrom, if_neg (by decide),
      if_pos rfl, scanEscape, if_neg hletter, hsimple]
  | digits hdigits =>
    have hlt : c.toNat < 0x80 := UInt8.lt_iff_toNat_lt.mp hc
    simp only [List.cons_append, List.nil_append]
    rw [scanStringFrom, if_neg (by decide), if_pos rfl, scanEscape, if_pos rfl, scanUnicode,
      hdigits]
    simp only
    rw [if_neg (by omega), if_neg (by omega), encodeCodepoint, if_pos hlt, UInt8.ofNat_toNat]

/-- **The round trip of a string**, from any place within a character on. -/
theorem scanStringFrom_escaped (rest s : Bytes) : ∀ state, Going state →
    s.foldl decode state = 0 →
    scanStringFrom (rangesOf state) (escaped s ++ 34 :: rest) = some (s, rest) := by
  induction s with
  | nil =>
    rintro state - rfl
    rw [show rangesOf 0 = [] from rfl, show escaped [] = [] from rfl, List.nil_append,
      scanStringFrom, if_pos rfl]
  | cons c s ih =>
    intro state hgoing hfold
    rw [List.foldl_cons] at hfold
    have hcons : escaped (c :: s) ++ 34 :: rest = escapeByte c ++ (escaped s ++ 34 :: rest) := by
      rw [escaped, List.flatMap_cons, List.append_assoc]
      rfl
    have hnext : decode state c ≠ 1 := by
      intro h
      rw [h, foldl_decode_one] at hfold
      exact absurd hfold (by decide)
    rw [hcons]
    rcases hgoing with rfl | ⟨hlo, hhi⟩
    · by_cases hc : c < 0x80
      · rw [decode_zero_of_ascii hc] at hfold
        rw [show rangesOf 0 = [] from rfl, scanStringFrom_escapeByte hc]
        exact congrArg (addFront [c]) (ih 0 (.inl rfl) hfold)
      · have hlarge : 0x80 ≤ c := UInt8.not_lt.mp hc
        have hread := ih (decode 0 c) (going_decode_zero hnext) hfold
        rw [show rangesOf 0 = [] from rfl, escapeByte_of_large (UInt8.le_iff_toNat_le.mp hlarge),
          List.singleton_append, scanStringFrom, if_neg, if_neg, if_neg, if_neg hc,
          followRanges_eq hc, if_neg hnext]
        · exact congrArg (addFront [c]) hread
        · exact fun h => hc (Std.lt_trans h (by decide))
        · rintro rfl
          exact hc (by decide)
        · rintro rfl
          exact hc (by decide)
    · obtain ⟨hranges, hgoing, hpos⟩ := rangesOf_eq_cons hlo hhi
      rw [decode_eq_window hlo hhi] at hfold hnext
      have hwindow : (window state).1 ≤ c.toNat ∧ c.toNat < (window state).2.1 := by
        by_contra h
        exact hnext (if_neg h)
      rw [if_pos hwindow] at hfold
      have hlow : 0x80 ≤ c.toNat := by
        have hwindows : ∀ q : Fin 9, 2 ≤ q.val → 0x80 ≤ (window q.val).1 := by decide
        exact (hwindows ⟨state, by omega⟩ hlo).trans hwindow.1
      rw [escapeByte_of_large hlow, hranges, List.singleton_append, scanStringFrom,
        if_pos ⟨hwindow.1, by omega⟩]
      exact congrArg (addFront [c]) (ih _ hgoing hfold)

/-- **What `dump_escaped` wrote is read back**, whatever follows the closing quote. -/
theorem scanString_escaped {s : Bytes} (hs : isValidUtf8 s = true) (rest : Bytes) :
    scanString (escaped s ++ 34 :: rest) = some (s, rest) := by
  rw [← accepts_eq_isValidUtf8] at hs
  exact scanStringFrom_escaped rest s 0 (.inl rfl) (of_decide_eq_true hs)

/-! ## What is read -/

/-- One character was read: its bytes are accepted, and the loop goes on behind it. -/
def ReadsOne (s out rest : Bytes) : Prop :=
  ∃ bytes out' s', out = bytes ++ out' ∧ bytes.foldl decode 0 = 0 ∧
    scanStringFrom [] s' = some (out', rest) ∧ s'.length < s.length

theorem readsOne_of_addFront {bytes s s' out rest : Bytes}
    (h : addFront bytes (scanStringFrom [] s') = some (out, rest))
    (hbytes : bytes.foldl decode 0 = 0) (hlength : s'.length < s.length) :
    ReadsOne s out rest := by
  obtain ⟨⟨out', rest'⟩, hscan, heq⟩ := Option.map_eq_some_iff.mp h
  obtain ⟨rfl, rfl⟩ := Prod.mk.inj heq
  exact ⟨bytes, out', s', rfl, hbytes, hscan, hlength⟩

theorem readsOne_of_scanLowSurrogate {codepoint₁ : ℕ} (hlo : 0xD800 ≤ codepoint₁)
    (hhi : codepoint₁ ≤ 0xDBFF) {s out rest : Bytes}
    (h : scanLowSurrogate codepoint₁ s = some (out, rest)) : ReadsOne s out rest := by
  unfold scanLowSurrogate at h
  split at h
  · split at h
    · split at h
      · cases h
      · split at h
        · refine readsOne_of_addFront h (foldl_encodeCodepoint ?_ ?_) ?_
          · omega
          · omega
          · simp only [List.length_cons]
            omega
        · cases h
    · cases h
  · cases h

theorem readsOne_of_scanUnicode {s out rest : Bytes}
    (h : scanUnicode s = some (out, rest)) : ReadsOne s out rest := by
  unfold scanUnicode at h
  split at h
  · rename_i c₁ c₂ c₃ c₄ s
    split at h
    · cases h
    · rename_i codepoint₁ hcodepoint
      have hlt := getCodepoint_lt hcodepoint
      split at h
      · rename_i hhigh
        obtain ⟨bytes, out', s', hout, hbytes, hscan, hlength⟩ :=
          readsOne_of_scanLowSurrogate hhigh.1 hhigh.2 h
        refine ⟨bytes, out', s', hout, hbytes, hscan, ?_⟩
        simp only [List.length_cons]
        omega
      · rename_i hhigh
        split at h
        · cases h
        · rename_i hlow
          refine readsOne_of_addFront h (foldl_encodeCodepoint ?_ ?_) ?_
          · omega
          · omega
          · simp only [List.length_cons]
            omega
  · cases h

theorem readsOne_of_scanEscape {s out rest : Bytes}
    (h : scanEscape s = some (out, rest)) : ReadsOne s out rest := by
  unfold scanEscape at h
  split at h
  · cases h
  · rename_i c s
    split at h
    · obtain ⟨bytes, out', s', hout, hbytes, hscan, hlength⟩ := readsOne_of_scanUnicode h
      exact ⟨bytes, out', s', hout, hbytes, hscan, by rw [List.length_cons]; omega⟩
    · split at h
      · cases h
      · rename_i b hsimple
        refine readsOne_of_addFront h ?_ (by rw [List.length_cons]; omega)
        have hall := forall_byte (P := fun c _ => ((simpleEscape c).all fun b =>
          [b].foldl decode 0 = 0) = true) (by decide +kernel) c
        rw [hsimple] at hall
        exact of_decide_eq_true hall

/-- **Whatever is read is well formed**, from any place within a character on, and some of
the input is used up. -/
theorem scanStringFrom_sound (s : Bytes) : ∀ state out rest, Going state →
    scanStringFrom (rangesOf state) s = some (out, rest) →
    out.foldl decode state = 0 ∧ rest.length < s.length := by
  -- by the length: an escape takes up several bytes
  induction hn : s.length using Nat.strong_induction_on generalizing s with
  | _ n ih =>
    subst hn
    intro state out rest hgoing h
    cases s with
    | nil =>
      rw [scanStringFrom.eq_def] at h
      split at h <;> simp_all
    | cons c s =>
      have hshorter : s.length < (c :: s).length := by simp
      -- one byte was read, into a state in which the string can go on
      have hbyte : ∀ state', Going state' → decode state c = state' →
          addFront [c] (scanStringFrom (rangesOf state') s) = some (out, rest) →
          out.foldl decode state = 0 ∧ rest.length < (c :: s).length := by
        intro state' hgoing' hstate' hread
        obtain ⟨⟨out', rest'⟩, hscan, heq⟩ := Option.map_eq_some_iff.mp hread
        obtain ⟨rfl, rfl⟩ := Prod.mk.inj heq
        obtain ⟨hfold, hlength⟩ := ih s.length hshorter s rfl state' out' rest' hgoing' hscan
        refine ⟨?_, hlength.trans hshorter⟩
        rw [List.singleton_append, List.foldl_cons, hstate', hfold]
      rcases hgoing with rfl | ⟨hlo, hhi⟩
      · rw [show rangesOf 0 = [] from rfl, scanStringFrom] at h
        split at h
        · obtain ⟨rfl, rfl⟩ := Prod.mk.inj (Option.some.inj h)
          exact ⟨rfl, hshorter⟩
        · split at h
          · obtain ⟨bytes, out', s', rfl, hbytes, hscan, hlength⟩ := readsOne_of_scanEscape h
            obtain ⟨hfold, hlength'⟩ :=
              ih s'.length (hlength.trans hshorter) s' rfl 0 out' rest (.inl rfl) hscan
            refine ⟨?_, by omega⟩
            rw [List.foldl_append, hbytes, hfold]
          · split at h
            · cases h
            · split at h
              · rename_i hc
                exact hbyte 0 (.inl rfl) (decode_zero_of_ascii hc) h
              · rename_i hc
                rw [followRanges_eq hc] at h
                split at h
                · cases h
                · rename_i ranges hranges
                  by_cases hdecode : decode 0 c = 1
                  · rw [if_pos hdecode] at hranges
                    cases hranges
                  · rw [if_neg hdecode] at hranges
                    obtain rfl := Option.some.inj hranges
                    exact hbyte _ (going_decode_zero hdecode) rfl h
      · obtain ⟨hranges, hgoing', hpos⟩ := rangesOf_eq_cons hlo hhi
        rw [hranges, scanStringFrom] at h
        split at h
        · rename_i hin
          refine hbyte _ hgoing' ?_ h
          rw [decode_eq_window hlo hhi, if_pos ⟨hin.1, by omega⟩]
        · cases h

/-- **What `scan_string` reads is well formed.** -/
theorem isValidUtf8_of_scanString {s out rest : Bytes} (h : scanString s = some (out, rest)) :
    isValidUtf8 out = true := by
  rw [← accepts_eq_isValidUtf8]
  exact decide_eq_true (scanStringFrom_sound s 0 out rest (.inl rfl) h).1

theorem length_of_scanString {s out rest : Bytes} (h : scanString s = some (out, rest)) :
    rest.length < s.length :=
  (scanStringFrom_sound s 0 out rest (.inl rfl) h).2

end Lexer
end HttpDataDiod
