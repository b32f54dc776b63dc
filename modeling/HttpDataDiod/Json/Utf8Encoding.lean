import HttpDataDiod.Json.Utf8Decoder

/-!
# Well-formed UTF-8 and the encoder

`Json.Utf8` models the scan of `utf8_utils.hpp` over the rest of the string.  Here the
scan meets the other side of the format: the encoder.  A `Char` of Lean is a Unicode
scalar value --- no surrogate, nothing above `U+10FFFF` --- and `String.utf8EncodeChar`
writes its one RFC 3629 form, so a string is UTF-8 when it is a concatenation of such
forms.

The functions of the source take the whole string and an index.  They are written once
more in that shape, with a byte access that has no answer past the end of the string;
that they always have an answer is that no read goes past the end.

* `sequenceLength_encode_append`, `exists_encode_of_sequenceLength`: a sequence is the
  form of a scalar value, and there are no others.
* `isValidUtf8_iff_exists_scalars`: the strings that `is_valid_utf8` accepts.
* `Scan`: the left-to-right scan, by the encoder alone, and `scan_unique`.
* `sanitizeInvalid_eq_repaired`: what `sanitize_invalid` makes of the pieces of the scan.
* `isValidUtf8At_eq`, `sanitizeInvalidAt_eq`: the functions with an index.
-/

namespace HttpDataDiod

open ByteText

namespace Utf8Encoding

open Utf8Decoder

/-! ## The forms of the scalar values are sequences -/

theorem toNat_ofNat_of_lt {n : ℕ} (h : n < 256) : (UInt8.ofNat n).toNat = n :=
  UInt8.toNat_ofNat_of_lt' h

theorem scalar_ne_surrogate (c : Char) :
    c.val.toNat ≤ 0x10FFFF ∧ (c.val.toNat < 0xD800 ∨ 0xDFFF < c.val.toNat) := by
  rcases c.valid with h | ⟨h, h'⟩
  · exact ⟨by omega, .inl h⟩
  · exact ⟨by omega, .inr h⟩

theorem sequenceLength_encode_append (c : Char) (s : Bytes) :
    sequenceLength (String.utf8EncodeChar c ++ s) = (String.utf8EncodeChar c).length := by
  obtain ⟨hmax, hsurrogate⟩ := scalar_ne_surrogate c
  simp only [String.utf8EncodeChar]
  generalize c.val.toNat = v at hmax hsurrogate
  split
  · rename_i h₁
    simp only [List.cons_append, List.nil_append, sequenceLength_cons, List.length_cons,
      List.length_nil, toNat_ofNat_of_lt (show v < 256 by omega)]
    rw [if_pos (by omega)]
  · split
    · rename_i h₁ h₂
      simp only [List.cons_append, List.nil_append, sequenceLength_cons, List.length_cons,
        List.length_nil]
      rw [toNat_ofNat_of_lt (by omega), if_neg (by omega), if_neg (by omega), if_pos (by omega)]
      refine multibyteLength_of_completes ?_
      simp only [completes_succ_cons, completes_zero, codepointAllowed_iff, minCodepoint]
      rw [toNat_ofNat_of_lt (by omega)]
      omega
    · split
      · rename_i h₁ h₂ h₃
        simp only [List.cons_append, List.nil_append, sequenceLength_cons, List.length_cons,
          List.length_nil]
        rw [toNat_ofNat_of_lt (by omega), if_neg (by omega), if_neg (by omega),
          if_neg (by omega), if_pos (by omega)]
        refine multibyteLength_of_completes ?_
        simp only [completes_succ_cons, completes_zero, codepointAllowed_iff, minCodepoint]
        rw [toNat_ofNat_of_lt (by omega), toNat_ofNat_of_lt (by omega)]
        omega
      · rename_i h₁ h₂ h₃
        simp only [List.cons_append, List.nil_append, sequenceLength_cons, List.length_cons,
          List.length_nil]
        rw [toNat_ofNat_of_lt (by omega), if_neg (by omega), if_neg (by omega),
          if_neg (by omega), if_neg (by omega), if_pos (by omega)]
        refine multibyteLength_of_completes ?_
        simp only [completes_succ_cons, completes_zero, codepointAllowed_iff, minCodepoint]
        rw [toNat_ofNat_of_lt (by omega), toNat_ofNat_of_lt (by omega),
          toNat_ofNat_of_lt (by omega)]
        omega

/-! ## Sequences are the forms of scalar values -/

/-- The scalar value of an allowed code point. -/
theorem exists_scalar_of_allowed {extra n : ℕ} (h : codepointAllowed extra n = true) :
    ∃ c : Char, c.val.toNat = n := by
  obtain ⟨-, hmax, hsurrogate⟩ := (codepointAllowed_iff extra n).mp h
  have hvalid : n.isValidChar := by
    rcases hsurrogate with hlow | hhigh
    · exact .inl hlow
    · exact .inr ⟨hhigh, by omega⟩
  have hsize : n < UInt32.size := by
    unfold UInt32.size
    omega
  exact ⟨⟨UInt32.ofNatLT n hsize, hvalid⟩, UInt32.toNat_ofNatLT⟩

theorem eq_ofNat_of_toNat_eq {d : UInt8} {n : ℕ} (h : d.toNat = n) : d = UInt8.ofNat n := by
  rw [← h, UInt8.ofNat_toNat]

/-- A list of bytes is given by their values. -/
theorem cons_eq_ofNat_cons {d : UInt8} {n : ℕ} {s t : Bytes} (h : d.toNat = n) (hs : s = t) :
    d :: s = UInt8.ofNat n :: t := by
  rw [eq_ofNat_of_toNat_eq h, hs]

theorem exists_encode_two {c : UInt8} {s : Bytes} (hc : 0xC0 ≤ c.toNat) (hc' : c.toNat < 0xE0)
    (h : Completes 1 1 (c.toNat - 0xC0) s) :
    ∃ scalar : Char, (c :: s).take 2 = String.utf8EncodeChar scalar := by
  cases s with
  | nil => exact absurd h (not_completes_nil _ _ _)
  | cons d₁ s =>
    rw [completes_succ_cons, completes_zero] at h
    obtain ⟨hd₁, hallowed⟩ := h
    obtain ⟨scalar, hscalar⟩ := exists_scalar_of_allowed hallowed
    obtain ⟨hmin, -, -⟩ := (codepointAllowed_iff _ _).mp hallowed
    rw [minCodepoint] at hmin
    refine ⟨scalar, ?_⟩
    simp only [String.utf8EncodeChar, hscalar, List.take_succ_cons, List.take_zero]
    rw [if_neg (by omega), if_pos (by omega)]
    exact cons_eq_ofNat_cons (by omega) (cons_eq_ofNat_cons (by omega) rfl)

theorem exists_encode_three {c : UInt8} {s : Bytes} (hc : 0xE0 ≤ c.toNat) (hc' : c.toNat < 0xF0)
    (h : Completes 2 2 (c.toNat - 0xE0) s) :
    ∃ scalar : Char, (c :: s).take 3 = String.utf8EncodeChar scalar := by
  cases s with
  | nil => exact absurd h (not_completes_nil _ _ _)
  | cons d₁ s =>
    obtain ⟨hd₁, h⟩ := (completes_succ_cons _ _ _ _ _).mp h
    cases s with
    | nil => exact absurd h (not_completes_nil _ _ _)
    | cons d₂ s =>
      rw [completes_succ_cons, completes_zero] at h
      obtain ⟨hd₂, hallowed⟩ := h
      obtain ⟨scalar, hscalar⟩ := exists_scalar_of_allowed hallowed
      obtain ⟨hmin, -, -⟩ := (codepointAllowed_iff _ _).mp hallowed
      rw [minCodepoint] at hmin
      refine ⟨scalar, ?_⟩
      simp only [String.utf8EncodeChar, hscalar, List.take_succ_cons, List.take_zero]
      rw [if_neg (by omega), if_neg (by omega), if_pos (by omega)]
      exact cons_eq_ofNat_cons (by omega)
        (cons_eq_ofNat_cons (by omega) (cons_eq_ofNat_cons (by omega) rfl))

theorem exists_encode_four {c : UInt8} {s : Bytes} (hc : 0xF0 ≤ c.toNat) (hc' : c.toNat < 0xF8)
    (h : Completes 3 3 (c.toNat - 0xF0) s) :
    ∃ scalar : Char, (c :: s).take 4 = String.utf8EncodeChar scalar := by
  cases s with
  | nil => exact absurd h (not_completes_nil _ _ _)
  | cons d₁ s =>
    obtain ⟨hd₁, h⟩ := (completes_succ_cons _ _ _ _ _).mp h
    cases s with
    | nil => exact absurd h (not_completes_nil _ _ _)
    | cons d₂ s =>
      obtain ⟨hd₂, h⟩ := (completes_succ_cons _ _ _ _ _).mp h
      cases s with
      | nil => exact absurd h (not_completes_nil _ _ _)
      | cons d₃ s =>
        rw [completes_succ_cons, completes_zero] at h
        obtain ⟨hd₃, hallowed⟩ := h
        obtain ⟨scalar, hscalar⟩ := exists_scalar_of_allowed hallowed
        obtain ⟨hmin, -, -⟩ := (codepointAllowed_iff _ _).mp hallowed
        rw [minCodepoint] at hmin
        · refine ⟨scalar, ?_⟩
          simp only [String.utf8EncodeChar, hscalar, List.take_succ_cons, List.take_zero]
          rw [if_neg (by omega), if_neg (by omega), if_neg (by omega)]
          exact cons_eq_ofNat_cons (by omega) (cons_eq_ofNat_cons (by omega)
            (cons_eq_ofNat_cons (by omega) (cons_eq_ofNat_cons (by omega) rfl)))
        all_goals decide

/-- **A sequence is the form of a scalar value.** -/
theorem exists_encode_of_sequenceLength {s : Bytes} (h : sequenceLength s ≠ 0) :
    ∃ scalar : Char, s.take (sequenceLength s) = String.utf8EncodeChar scalar := by
  cases s with
  | nil => exact absurd rfl h
  | cons c s =>
    rw [sequenceLength_cons] at h ⊢
    split at h
    · rename_i h₁
      have hallowed : codepointAllowed 0 c.toNat = true := by
        rw [codepointAllowed_iff, minCodepoint]
        omega
      obtain ⟨scalar, hscalar⟩ := exists_scalar_of_allowed hallowed
      refine ⟨scalar, ?_⟩
      simp only [String.utf8EncodeChar, hscalar, if_pos h₁, List.take_succ_cons, List.take_zero]
      rw [if_pos (by omega)]
      exact cons_eq_ofNat_cons rfl rfl
    · rename_i h₁
      rw [if_neg h₁]
      split at h
      · exact absurd rfl h
      · rename_i h₂
        rw [if_neg h₂]
        split at h
        · rename_i h₃
          have hcompletes := (multibyteLength_ne_zero_iff _ _ _).mp h
          rw [if_pos h₃, multibyteLength_of_completes hcompletes]
          exact exists_encode_two (by omega) h₃ hcompletes
        · rename_i h₃
          rw [if_neg h₃]
          split at h
          · rename_i h₄
            have hcompletes := (multibyteLength_ne_zero_iff _ _ _).mp h
            rw [if_pos h₄, multibyteLength_of_completes hcompletes]
            exact exists_encode_three (by omega) h₄ hcompletes
          · rename_i h₄
            rw [if_neg h₄]
            split at h
            · rename_i h₅
              have hcompletes := (multibyteLength_ne_zero_iff _ _ _).mp h
              rw [if_pos h₅, multibyteLength_of_completes hcompletes]
              exact exists_encode_four (by omega) h₅ hcompletes
            · exact absurd rfl h

/-- The first sequence of a string, with what follows it. -/
theorem eq_encode_append_of_sequenceLength {s : Bytes} (h : sequenceLength s ≠ 0) :
    ∃ (scalar : Char) (rest : Bytes), s = String.utf8EncodeChar scalar ++ rest := by
  obtain ⟨scalar, hscalar⟩ := exists_encode_of_sequenceLength h
  refine ⟨scalar, s.drop (sequenceLength s), ?_⟩
  rw [← hscalar, List.take_append_drop]

theorem encode_injective {c d : Char} (h : String.utf8EncodeChar c = String.utf8EncodeChar d) :
    c = d := by
  have hc := ByteArray.utf8DecodeChar?_utf8EncodeChar_append (b := ByteArray.empty) (c := c)
  have hd := ByteArray.utf8DecodeChar?_utf8EncodeChar_append (b := ByteArray.empty) (c := d)
  rw [h, hd] at hc
  exact (Option.some.inj hc).symm

/-- **No form is the beginning of another.** -/
theorem encode_append_inj {c d : Char} {s t : Bytes}
    (h : String.utf8EncodeChar c ++ s = String.utf8EncodeChar d ++ t) : c = d ∧ s = t := by
  have hlength : (String.utf8EncodeChar c).length = (String.utf8EncodeChar d).length := by
    rw [← sequenceLength_encode_append c s, h, sequenceLength_encode_append]
  obtain ⟨hencode, hrest⟩ := List.append_inj h hlength
  exact ⟨encode_injective hencode, hrest⟩

/-! ## The strings that are accepted -/

theorem encode_length_pos (c : Char) : 0 < (String.utf8EncodeChar c).length :=
  List.length_pos_of_ne_nil String.utf8EncodeChar_ne_nil

theorem isValidUtf8_encode_append (c : Char) (s : Bytes) :
    isValidUtf8 (String.utf8EncodeChar c ++ s) = isValidUtf8 s := by
  have hlength := sequenceLength_encode_append c s
  cases hs : String.utf8EncodeChar c ++ s with
  | nil => exact absurd (List.append_eq_nil_iff.mp hs).1 String.utf8EncodeChar_ne_nil
  | cons d t =>
    rw [isValidUtf8_cons, ← hs, hlength, List.drop_left]
    rw [decide_eq_true (encode_length_pos c).ne', Bool.true_and]

/-- **`is_valid_utf8` accepts the encoded strings.** -/
theorem isValidUtf8_iff_exists_scalars (b : Bytes) :
    isValidUtf8 b = true ↔ ∃ scalars : List Char, b = scalars.flatMap String.utf8EncodeChar := by
  constructor
  · intro h
    -- by the length: what follows the first sequence is shorter
    induction hn : b.length using Nat.strong_induction_on generalizing b with
    | _ n ih =>
      cases b with
      | nil => exact ⟨[], rfl⟩
      | cons c s =>
        rw [isValidUtf8_cons, Bool.and_eq_true, decide_eq_true_eq] at h
        obtain ⟨scalar, rest, hrest⟩ := eq_encode_append_of_sequenceLength h.1
        have hpos := encode_length_pos scalar
        rw [hrest] at hn h ⊢
        rw [List.length_append] at hn
        rw [sequenceLength_encode_append, List.drop_left] at h
        obtain ⟨scalars, hscalars⟩ := ih rest.length (by omega) rest h.2 rfl
        exact ⟨scalar :: scalars, by rw [List.flatMap_cons, ← hscalars]⟩
  · rintro ⟨scalars, rfl⟩
    induction scalars with
    | nil => rfl
    | cons scalar scalars ih => rw [List.flatMap_cons, isValidUtf8_encode_append, ih]

/-! ## The scan -/

/-- What the scan finds: the form of a scalar value, or a byte that starts none. -/
inductive Piece where
  | sequence (scalar : Char)
  | invalid (byte : UInt8)

/-- The bytes of a piece. -/
def Piece.bytes : Piece → Bytes
  | .sequence scalar => String.utf8EncodeChar scalar
  | .invalid byte => [byte]

/-- What a piece becomes: a sequence is kept, a byte that starts none becomes `U+FFFD`. -/
def Piece.repaired : Piece → Bytes
  | .sequence scalar => String.utf8EncodeChar scalar
  | .invalid _ => String.utf8EncodeChar (Char.ofNat 0xFFFD)

/-- The left-to-right scan of a string: a form of a scalar value that stands at the
front is taken whole, and a byte is taken alone only where no form stands. -/
inductive Scan : Bytes → List Piece → Prop
  | nil : Scan [] []
  | sequence (scalar : Char) {rest : Bytes} {pieces : List Piece} (h : Scan rest pieces) :
      Scan (String.utf8EncodeChar scalar ++ rest) (.sequence scalar :: pieces)
  | invalid (byte : UInt8) {rest : Bytes} {pieces : List Piece}
      (hnone : ∀ (scalar : Char) (after : Bytes),
        byte :: rest ≠ String.utf8EncodeChar scalar ++ after)
      (h : Scan rest pieces) : Scan (byte :: rest) (.invalid byte :: pieces)

/-- The pieces are the string, cut. -/
theorem Scan.flatMap_bytes {b : Bytes} {pieces : List Piece} (h : Scan b pieces) :
    pieces.flatMap Piece.bytes = b := by
  induction h with
  | nil => rfl
  | sequence scalar h ih => rw [List.flatMap_cons, ih, Piece.bytes]
  | invalid byte hnone h ih =>
    rw [List.flatMap_cons, ih]
    rfl

/-- **There is one scan of a string.** -/
theorem Scan.unique {b : Bytes} {pieces pieces' : List Piece} (h : Scan b pieces)
    (h' : Scan b pieces') : pieces = pieces' := by
  induction h generalizing pieces' with
  | nil =>
    generalize hb : ([] : Bytes) = b at h'
    cases h' with
    | nil => rfl
    | sequence scalar _ =>
      exact absurd (List.append_eq_nil_iff.mp hb.symm).1 String.utf8EncodeChar_ne_nil
    | invalid byte _ _ => exact absurd hb.symm (List.cons_ne_nil _ _)
  | @sequence scalar rest pieces h ih =>
    generalize hb : String.utf8EncodeChar scalar ++ rest = b at h'
    cases h' with
    | nil => exact absurd (List.append_eq_nil_iff.mp hb).1 String.utf8EncodeChar_ne_nil
    | sequence scalar' h' =>
      obtain ⟨rfl, rfl⟩ := encode_append_inj hb
      rw [ih h']
    | invalid byte hnone _ => exact absurd hb.symm (hnone _ _)
  | @invalid byte rest pieces hnone h ih =>
    generalize hb : byte :: rest = b at h'
    cases h' with
    | nil => exact absurd hb (List.cons_ne_nil _ _)
    | sequence scalar _ => exact absurd hb (hnone _ _)
    | invalid byte' _ h' =>
      obtain ⟨rfl, rfl⟩ := List.cons.inj hb
      rw [ih h']

/-- **What `sanitize_invalid` does to the scan of a string.** -/
theorem exists_scan (b : Bytes) :
    ∃ pieces, Scan b pieces ∧ sanitizeInvalid b = pieces.flatMap Piece.repaired := by
  induction hn : b.length using Nat.strong_induction_on generalizing b with
  | _ n ih =>
    cases b with
    | nil => exact ⟨[], .nil, rfl⟩
    | cons c s =>
      rw [List.length_cons] at hn
      rw [sanitizeInvalid_cons]
      by_cases hzero : sequenceLength (c :: s) = 0
      · obtain ⟨pieces, hscan, heq⟩ := ih s.length (by omega) s rfl
        refine ⟨.invalid c :: pieces, .invalid c (fun scalar after hform => ?_) hscan, ?_⟩
        · rw [hform, sequenceLength_encode_append] at hzero
          exact String.utf8EncodeChar_ne_nil (List.length_eq_zero_iff.mp hzero)
        · rw [if_pos hzero, heq]
          rfl
      · obtain ⟨scalar, rest, hrest⟩ := eq_encode_append_of_sequenceLength hzero
        have hpos := encode_length_pos scalar
        have hlength : (c :: s).length = (String.utf8EncodeChar scalar).length + rest.length := by
          rw [hrest, List.length_append]
        rw [List.length_cons] at hlength
        obtain ⟨pieces, hscan, heq⟩ := ih rest.length (by omega) rest rfl
        refine ⟨.sequence scalar :: pieces, hrest ▸ .sequence scalar hscan, ?_⟩
        rw [if_neg hzero, hrest, sequenceLength_encode_append, List.take_left, List.drop_left, heq]
        rfl

/-- Sanitised text is well formed, so no other text is left alone. -/
theorem isValidUtf8_of_sanitizeInvalid_eq {b : Bytes} (h : sanitizeInvalid b = b) :
    isValidUtf8 b = true := by
  rw [← h]
  exact isValidUtf8_sanitizeInvalid b

/-! ## The functions with an index -/

/-- The bits of a lead byte and the number of bytes to come after it. -/
def leadBits (first : UInt8) : Option (ℕ × ℕ) :=
  if first &&& 0xE0 = 0xC0 then some (1, (first &&& 0x1F).toNat)
  else if first &&& 0xF0 = 0xE0 then some (2, (first &&& 0x0F).toNat)
  else if first &&& 0xF8 = 0xF0 then some (3, (first &&& 0x07).toNat)
  else none

/-- The loop of `sequence_length` from a position on, with so many bytes to come.  There
is no answer when a read is past the end; a byte that continues nothing ends the loop
without a code point. -/
def readContinuation (input : Bytes) : ℕ → ℕ → ℕ → Option (Option ℕ)
  | _, 0, codepoint => some (some codepoint)
  | position, left + 1, codepoint => do
    let next ← input[position]?
    if next &&& 0xC0 = 0x80 then
      readContinuation input (position + 1) left (codepoint <<< 6 ||| (next &&& 0x3F).toNat)
    else some none

/-- `sequence_length` at an index, `none` when it reads past the end. -/
def sequenceLengthAt (input : Bytes) (index : ℕ) : Option ℕ := do
  let first ← input[index]?
  if first < 0x80 then return 1
  match leadBits first with
  | none => return 0
  | some (extra, lead) =>
    if index + extra ≥ input.length then return 0
    match ← readContinuation input (index + 1) extra lead with
    | none => return 0
    | some codepoint => return if codepointAllowed extra codepoint then extra + 1 else 0

/-- The loop of `is_valid_utf8` from an index on. -/
def validLoop (input : Bytes) (index : ℕ) : Option Bool :=
  if index < input.length then
    match sequenceLengthAt input index with
    | none => none
    | some 0 => some false
    | some (length + 1) => validLoop input (index + (length + 1))
  else some true
termination_by input.length - index

/-- `is_valid_utf8`, `none` when it reads past the end. -/
def isValidUtf8At (input : Bytes) : Option Bool := validLoop input 0

/-- The loop of `sanitize_invalid` from an index on, with the text written so far. -/
def sanitizeLoop (input : Bytes) (index : ℕ) (result : Bytes) : Option Bytes :=
  if index < input.length then
    match sequenceLengthAt input index with
    | none => none
    | some 0 => sanitizeLoop input (index + 1) (result ++ [0xEF, 0xBF, 0xBD])
    | some (length + 1) =>
      sanitizeLoop input (index + (length + 1))
        (result ++ (input.drop index).take (length + 1))
  else some result
termination_by input.length - index

/-- `sanitize_invalid`, `none` when it reads past the end. -/
def sanitizeInvalidAt (input : Bytes) : Option Bytes := sanitizeLoop input 0 []

theorem readContinuation_eq (input : Bytes) {position left : ℕ} (codepoint : ℕ)
    (h : position + left ≤ input.length) :
    readContinuation input position left codepoint =
      some (codepointFrom codepoint ((input.drop position).take left)) := by
  induction left generalizing position codepoint with
  | zero => simp [readContinuation, codepointFrom]
  | succ left ih =>
    have hposition : position < input.length := by omega
    rw [readContinuation, List.getElem?_eq_getElem hposition, List.drop_eq_getElem_cons hposition,
      List.take_succ_cons, codepointFrom]
    simp only [Option.bind_eq_bind, Option.bind_some]
    split
    · exact ih _ (by omega)
    · rfl

theorem sequenceLength_eq_leadBits (first : UInt8) (rest : Bytes) :
    sequenceLength (first :: rest) =
      if first < 0x80 then 1
      else match leadBits first with
        | none => 0
        | some (extra, lead) => multibyteLength extra lead rest := by
  simp only [sequenceLength, leadBits]
  by_cases h₁ : first &&& 0xE0 = 0xC0
  · simp only [if_pos h₁]
  by_cases h₂ : first &&& 0xF0 = 0xE0
  · simp only [if_neg h₁, if_pos h₂]
  by_cases h₃ : first &&& 0xF8 = 0xF0
  · simp only [if_neg h₁, if_neg h₂, if_pos h₃]
  · simp only [if_neg h₁, if_neg h₂, if_neg h₃]

/-- **No read of `sequence_length` is past the end**: at an index within the string it
has the length of the sequence that stands there. -/
theorem sequenceLengthAt_eq {input : Bytes} {index : ℕ} (h : index < input.length) :
    sequenceLengthAt input index = some (sequenceLength (input.drop index)) := by
  rw [List.drop_eq_getElem_cons h, sequenceLength_eq_leadBits, sequenceLengthAt,
    List.getElem?_eq_getElem h]
  simp only [Option.bind_eq_bind, Option.bind_some]
  split
  · rfl
  · cases hlead : leadBits input[index] with
    | none => rfl
    | some bits =>
      obtain ⟨extra, lead⟩ := bits
      simp only [multibyteLength, List.length_drop]
      by_cases hshort : index + extra ≥ input.length
      · rw [if_pos hshort, if_pos (by omega)]
        rfl
      · rw [if_neg hshort, if_neg (by omega), readContinuation_eq input lead (by omega)]
        cases codepointFrom lead ((input.drop (index + 1)).take extra) with
        | none => rfl
        | some codepoint => rfl

theorem validLoop_eq (input : Bytes) (index : ℕ) :
    validLoop input index = some (isValidUtf8 (input.drop index)) := by
  fun_induction validLoop input index with
  | case1 index h hnone => exact absurd hnone (by rw [sequenceLengthAt_eq h]; simp)
  | case2 index h hzero =>
    rw [sequenceLengthAt_eq h] at hzero
    rw [List.drop_eq_getElem_cons h] at hzero ⊢
    rw [isValidUtf8_cons, Option.some.inj hzero]
    rfl
  | case3 index h length hlength ih =>
    rw [sequenceLengthAt_eq h] at hlength
    rw [ih, ← List.drop_drop]
    rw [List.drop_eq_getElem_cons h] at hlength ⊢
    rw [isValidUtf8_cons, Option.some.inj hlength]
    simp
  | case4 index h => rw [List.drop_eq_nil_of_le (by omega), isValidUtf8_nil]

theorem sanitizeLoop_eq (input : Bytes) (index : ℕ) (result : Bytes) :
    sanitizeLoop input index result = some (result ++ sanitizeInvalid (input.drop index)) := by
  fun_induction sanitizeLoop input index result with
  | case1 index result h hnone => exact absurd hnone (by rw [sequenceLengthAt_eq h]; simp)
  | case2 index result h hzero ih =>
    rw [sequenceLengthAt_eq h] at hzero
    rw [ih]
    rw [List.drop_eq_getElem_cons h] at hzero ⊢
    rw [sanitizeInvalid_cons, if_pos (Option.some.inj hzero), List.append_assoc]
    rfl
  | case3 index result h length hlength ih =>
    rw [sequenceLengthAt_eq h] at hlength
    rw [ih, ← List.drop_drop]
    rw [List.drop_eq_getElem_cons h] at hlength ⊢
    rw [sanitizeInvalid_cons, Option.some.inj hlength, if_neg (by omega), List.append_assoc]
  | case4 index result h =>
    rw [List.drop_eq_nil_of_le (by omega)]
    simp [sanitizeInvalid, sanitizeFrom]

/-- **The functions of the source never read past the end**, and answer as the scan over
the rest of the string does. -/
theorem isValidUtf8At_eq (input : Bytes) : isValidUtf8At input = some (isValidUtf8 input) :=
  validLoop_eq input 0

theorem sanitizeInvalidAt_eq (input : Bytes) :
    sanitizeInvalidAt input = some (sanitizeInvalid input) :=
  sanitizeLoop_eq input 0 []

/-! ## Validation and repair -/

/-- **Validation and repair of UTF-8.**  `is_valid_utf8` accepts the concatenations of
forms of scalar values; `sanitize_invalid` gives one for every string, leaves alone
those and only those, changes nothing the second time, and keeps every form that the
scan finds, in order, with `U+FFFD` for each of the other bytes. -/
theorem utf8_validation_and_repair (b : Bytes) :
    isValidUtf8At b = some (isValidUtf8 b) ∧
    sanitizeInvalidAt b = some (sanitizeInvalid b) ∧
    (isValidUtf8 b = true ↔
      ∃ scalars : List Char, b = scalars.flatMap String.utf8EncodeChar) ∧
    isValidUtf8 (sanitizeInvalid b) = true ∧
    (sanitizeInvalid b = b ↔ isValidUtf8 b = true) ∧
    sanitizeInvalid (sanitizeInvalid b) = sanitizeInvalid b ∧
    ∃ pieces, Scan b pieces ∧ (∀ pieces', Scan b pieces' → pieces' = pieces) ∧
      pieces.flatMap Piece.bytes = b ∧ sanitizeInvalid b = pieces.flatMap Piece.repaired := by
  obtain ⟨pieces, hscan, hrepaired⟩ := exists_scan b
  refine ⟨isValidUtf8At_eq b, sanitizeInvalidAt_eq b, isValidUtf8_iff_exists_scalars b,
    isValidUtf8_sanitizeInvalid b, ?_, ?_, pieces, hscan, ?_, hscan.flatMap_bytes, hrepaired⟩
  · exact ⟨isValidUtf8_of_sanitizeInvalid_eq, sanitizeInvalid_of_isValidUtf8⟩
  · exact sanitizeInvalid_of_isValidUtf8 (isValidUtf8_sanitizeInvalid b)
  · intro pieces' hscan'
    exact hscan'.unique hscan

end Utf8Encoding

end HttpDataDiod
