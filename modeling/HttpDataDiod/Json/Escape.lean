import HttpDataDiod.Json.Utf8Decoder

/-!
# Writing a string

Model of `serializer::dump_escaped` of `nlohmann/json.hpp` in its strict mode, without
the escaping of characters outside ASCII, as `dump` calls it.  The loop decodes the string
byte by byte; a complete code point is escaped by a table or copied, the bytes of a
sequence that is not complete yet are copied, and a byte that leads to the reject state, or
an incomplete sequence at the end, is the exception `type_error.316`.

* `dumpEscaped`: the loop.
* `escapeByte`: what becomes of each byte of a well-formed string.
* `dumpEscaped_eq`: the loop throws on the strings that are not well formed, and escapes
  the others byte by byte.
-/

namespace HttpDataDiod

open ByteText Utf8Decoder

namespace Serializer

/-- The code point that `decode` has read after a byte. -/
def codepointAfter (state codepoint : ℕ) (byte : UInt8) : ℕ :=
  if state ≠ 0 then byte.toNat &&& 0x3F ||| codepoint <<< 6
  else 0xFF >>> byteType byte &&& byte.toNat

/-- A digit of `nibble_to_hex`. -/
def hexDigit (nibble : ℕ) : UInt8 :=
  if nibble < 10 then UInt8.ofNat (48 + nibble) else UInt8.ofNat (87 + nibble)

/-- `write_u_escape`. -/
def writeUEscape (codeunit : ℕ) : Bytes :=
  [92, 117, hexDigit (codeunit >>> 12 &&& 0x0F), hexDigit (codeunit >>> 8 &&& 0x0F),
    hexDigit (codeunit >>> 4 &&& 0x0F), hexDigit (codeunit &&& 0x0F)]

/-- What is written for a complete code point, of which the last byte is given. -/
def escapeCodepoint (codepoint : ℕ) (byte : UInt8) : Bytes :=
  match codepoint with
  | 0x08 => ascii "\\b"
  | 0x09 => ascii "\\t"
  | 0x0A => ascii "\\n"
  | 0x0C => ascii "\\f"
  | 0x0D => ascii "\\r"
  | 0x22 => ascii "\\\""
  | 0x5C => ascii "\\\\"
  | _ => if codepoint ≤ 0x1F then writeUEscape codepoint else [byte]

/-- The loop of `dump_escaped` from a state of the decoder on; `none` is the exception. -/
def dumpEscapedFrom (state codepoint : ℕ) : Bytes → Option Bytes
  | [] => if state = 0 then some [] else none
  | byte :: s =>
    let codepoint' := codepointAfter state codepoint byte
    match decode state byte with
    | 0 => (escapeCodepoint codepoint' byte ++ ·) <$> dumpEscapedFrom 0 codepoint' s
    | 1 => none
    | state' => (byte :: ·) <$> dumpEscapedFrom state' codepoint' s

/-- `dump_escaped`. -/
def dumpEscaped (s : Bytes) : Option Bytes := dumpEscapedFrom 0 0 s

/-! ## What it writes -/

/-- What becomes of a byte of a well-formed string. -/
def escapeByte (byte : UInt8) : Bytes :=
  if byte < 0x80 then escapeCodepoint byte.toNat byte else [byte]

/-- The escaped string. -/
def escaped (s : Bytes) : Bytes := s.flatMap escapeByte

/-- Within a sequence: what has been read makes the code point of the sequence at least
`0x80`, whatever comes. -/
def Large (state codepoint : ℕ) : Prop :=
  match state with
  | 2 => 2 ≤ codepoint
  | 3 => 1 ≤ codepoint
  | 5 => 1 ≤ codepoint
  | 7 => 1 ≤ codepoint
  | 8 => 1 ≤ codepoint
  | _ => True

theorem le_codepointAfter {state : ℕ} (hstate : state ≠ 0) (codepoint : ℕ) (byte : UInt8) :
    64 * codepoint ≤ codepointAfter state codepoint byte := by
  rw [codepointAfter, if_pos hstate, Nat.shiftLeft_eq]
  have hor : codepoint * 2 ^ 6 ≤ byte.toNat &&& 0x3F ||| codepoint * 2 ^ 6 := Nat.right_le_or
  omega

/-- The low bits of the byte are in the code point. -/
theorem mod_le_codepointAfter {state : ℕ} (hstate : state ≠ 0) (codepoint : ℕ) (byte : UInt8) :
    byte.toNat % 64 ≤ codepointAfter state codepoint byte := by
  rw [codepointAfter, if_pos hstate, Nat.and_two_pow_sub_one_eq_mod byte.toNat 6]
  exact Nat.left_le_or

/-- A lead byte of more than one byte. -/
theorem large_decode_zero (codepoint : ℕ) (byte : UInt8) (hstate : 2 ≤ decode 0 byte) :
    decode 0 byte ≤ 8 ∧ Large (decode 0 byte) (codepointAfter 0 codepoint byte) := by
  have h := forall_byte (P := fun c n => 2 ≤ decode 0 c → decode 0 c ≤ 8 ∧
    (decode 0 c = 2 → 2 ≤ 0xFF >>> byteType c &&& n) ∧
    (decode 0 c = 3 ∨ decode 0 c = 5 ∨ decode 0 c = 7 ∨ decode 0 c = 8 →
      1 ≤ 0xFF >>> byteType c &&& n)) (by decide +kernel) byte hstate
  refine ⟨h.1, ?_⟩
  have hcodepoint : codepointAfter 0 codepoint byte = 0xFF >>> byteType byte &&& byte.toNat :=
    if_neg (fun hne => hne rfl)
  rw [hcodepoint]
  unfold Large
  split
  · exact h.2.1 (by assumption)
  · exact h.2.2 (.inl (by assumption))
  · exact h.2.2 (.inr (.inl (by assumption)))
  · exact h.2.2 (.inr (.inr (.inl (by assumption))))
  · exact h.2.2 (.inr (.inr (.inr (by assumption))))
  · trivial

/-- A byte within a sequence. -/
theorem large_decode {state codepoint : ℕ} (hstate : 2 ≤ state) (hle : state ≤ 8)
    (hlarge : Large state codepoint) (byte : UInt8) (hok : decode state byte ≠ 1) :
    0x80 ≤ byte.toNat ∧
      (decode state byte = 0 ∧ 0x80 ≤ codepointAfter state codepoint byte ∨
        2 ≤ decode state byte ∧ decode state byte ≤ 8 ∧
          Large (decode state byte) (codepointAfter state codepoint byte)) := by
  have hbits := le_codepointAfter (show state ≠ 0 by omega) codepoint byte
  have hlow := mod_le_codepointAfter (show state ≠ 0 by omega) codepoint byte
  rw [decode_eq_window hstate hle] at hok ⊢
  by_cases hwindow : (window state).1 ≤ byte.toNat ∧ byte.toNat < (window state).2.1
  · rw [if_pos hwindow]
    obtain rfl | hmore : state = 2 ∨ 3 ≤ state := by omega
    · simp only [window, Large] at hwindow hlarge
      exact ⟨by omega, .inl ⟨rfl, by omega⟩⟩
    · obtain rfl | rfl | rfl | rfl | rfl | rfl : state = 3 ∨ state = 4 ∨ state = 5 ∨
          state = 6 ∨ state = 7 ∨ state = 8 := by omega
      all_goals
        simp only [window, Large] at hwindow hlarge ⊢
        exact ⟨by omega, .inr ⟨by omega, by omega, by omega⟩⟩
  · exact absurd (if_neg hwindow) hok

theorem escapeCodepoint_of_large {codepoint : ℕ} (h : 0x80 ≤ codepoint) (byte : UInt8) :
    escapeCodepoint codepoint byte = [byte] := by
  unfold escapeCodepoint
  split
  · omega
  · omega
  · omega
  · omega
  · omega
  · omega
  · omega
  · rw [if_neg (by omega)]

theorem escapeByte_of_large {byte : UInt8} (h : 0x80 ≤ byte.toNat) : escapeByte byte = [byte] :=
  if_neg (by rw [UInt8.lt_iff_toNat_lt]; exact Nat.not_lt.mpr h)

/-- A complete code point of one byte is that byte. -/
theorem codepointAfter_of_ascii (codepoint : ℕ) {byte : UInt8} (h : decode 0 byte = 0) :
    codepointAfter 0 codepoint byte = byte.toNat ∧ byte < 0x80 :=
  forall_byte (P := fun c n => decode 0 c = 0 →
    (0xFF >>> byteType c &&& n) = n ∧ c < 0x80) (by decide +kernel) byte h

/-- The decoder passes through the states of its table. -/
theorem decode_zero_cases (byte : UInt8) :
    decode 0 byte = 0 ∨ decode 0 byte = 1 ∨ 2 ≤ decode 0 byte := by omega

/-- **One loop.**  From a state of the decoder on, what is written is the escaped string,
when the rest completes it. -/
theorem dumpEscapedFrom_eq (s : Bytes) : ∀ state codepoint : ℕ,
    state = 0 ∨ 2 ≤ state ∧ state ≤ 8 ∧ Large state codepoint →
    dumpEscapedFrom state codepoint s =
      if s.foldl decode state = 0 then some (escaped s) else none := by
  induction s with
  | nil => exact fun _ _ _ => rfl
  | cons byte s ih =>
    intro state codepoint hstate
    rw [dumpEscapedFrom, List.foldl_cons]
    have hcons : escaped (byte :: s) = escapeByte byte ++ escaped s := List.flatMap_cons
    -- what a byte writes once the state after it is known
    have hstep : ∀ state' bytes,
        (state' = 0 ∨ 2 ≤ state' ∧ state' ≤ 8 ∧
          Large state' (codepointAfter state codepoint byte)) →
        escapeByte byte = bytes →
        (bytes ++ ·) <$> dumpEscapedFrom state' (codepointAfter state codepoint byte) s =
          if s.foldl decode state' = 0 then some (escaped (byte :: s)) else none := by
      intro state' bytes hstate' hbytes
      rw [ih state' _ hstate', hcons, hbytes]
      split
      · rfl
      · rfl
    rcases hstate with rfl | ⟨hlo, hhi, hlarge⟩
    · rcases decode_zero_cases byte with h | h | h
      · obtain ⟨hcodepoint, hascii⟩ := codepointAfter_of_ascii codepoint h
        simp only [h]
        exact hstep 0 _ (.inl rfl) (by rw [escapeByte, if_pos hascii, hcodepoint])
      · simp only [h, foldl_decode_one]
        rfl
      · obtain ⟨hhi, hlarge⟩ := large_decode_zero codepoint byte h
        have hbyte : 0x80 ≤ byte.toNat := by
          rw [decode_zero] at h
          by_contra hlt
          rw [if_pos (by omega)] at h
          omega
        have hwrite := hstep (decode 0 byte) [byte] (.inr ⟨h, hhi, hlarge⟩)
          (escapeByte_of_large hbyte)
        split
        · omega
        · omega
        · exact hwrite
    · by_cases hok : decode state byte = 1
      · simp only [hok, foldl_decode_one]
        rfl
      · obtain ⟨hbyte, hdone | ⟨hlo', hhi', hlarge'⟩⟩ := large_decode hlo hhi hlarge byte hok
        · simp only [hdone.1]
          exact hstep 0 _ (.inl rfl)
            (by rw [escapeByte_of_large hbyte, escapeCodepoint_of_large hdone.2])
        · have hwrite := hstep (decode state byte) [byte] (.inr ⟨hlo', hhi', hlarge'⟩)
            (escapeByte_of_large hbyte)
          split
          · omega
          · omega
          · exact hwrite

/-- **What `dump_escaped` writes.**  It throws on the strings that are not well formed; in
the others every byte is escaped on its own. -/
theorem dumpEscaped_eq (s : Bytes) :
    dumpEscaped s = if isValidUtf8 s then some (escaped s) else none := by
  rw [dumpEscaped, dumpEscapedFrom_eq s 0 0 (.inl rfl), ← accepts_eq_isValidUtf8, accepts]
  simp only [decide_eq_true_eq]

/-- Nothing that is written is a control character. -/
theorem le_of_mem_escaped {s : Bytes} {c : UInt8} (h : c ∈ escaped s) : 0x20 ≤ c := by
  obtain ⟨byte, -, hbyte⟩ := List.mem_flatMap.mp h
  have hall := forall_byte (P := fun b _ => (escapeByte b).all fun c => 0x20 ≤ c)
    (by decide +kernel) byte
  exact of_decide_eq_true (List.all_eq_true.mp hall c hbyte)

end Serializer
end HttpDataDiod
