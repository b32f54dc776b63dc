import HttpDataDiod.Json.ScanNumber
import HttpDataDiod.Json.ScanString

/-!
# Tokens

Model of `lexer::scan` of `nlohmann/json.hpp`, without comments.  The lexer is the rest of
its input.  A token that is no token of the language ends the parsing, so what is left of
the input behind it does not matter.  A zero byte counts as the end of the input, as the
source has it for the sake of string literals.

* `FloatText`: the conversions of floating-point numbers, taken from outside.
* `scan`: the next token; `length_scan_lt`: it uses up some of the input.
* `Lexes`: a sequence of tokens is read one after the other.
* `Token.Ok`, `ok_scan`: what a token that was read carries.
-/

namespace HttpDataDiod

open ByteText

namespace Lexer

/-- `to_chars` and `from_chars`, the conversions between a floating-point number and its
text. -/
structure FloatText where
  print : UInt64 → Bytes
  read : Bytes → UInt64
  print_lt : ∀ bits, ∀ c ∈ print bits, c < 0x80

/-- The text of the number is one floating-point number of the language, and it is read as
the number it was. -/
structure FloatText.Exact (fmt : FloatText) (bits : UInt64) : Prop where
  finite : Binary64.isFinite bits = true
  scan : scanNumber (fmt.print bits) = some (.float, fmt.print bits, [])
  read : fmt.read (fmt.print bits) = bits

/-- `token_type`, with the value of the token. -/
inductive Token where
  | literalTrue
  | literalFalse
  | literalNull
  | string (s : Bytes)
  | unsigned (n : ℕ)
  | integer (n : ℤ)
  | float (bits : UInt64)
  | beginArray
  | beginObject
  | endArray
  | endObject
  | nameSeparator
  | valueSeparator
  | parseError
  | endOfInput
  deriving DecidableEq

/-- `current_is_whitespace`. -/
def isWhitespace (c : UInt8) : Bool := c = 32 || c = 9 || c = 10 || c = 13

/-- `skip_whitespace`. -/
def skipWhitespace (s : Bytes) : Bytes := s.dropWhile isWhitespace

/-- `skip_bom`; `none` is an incomplete mark. -/
def skipBom : Bytes → Option Bytes
  | 0xEF :: 0xBB :: 0xBF :: s => some s
  | 0xEF :: _ => none
  | s => some s

/-- `scan_literal` behind the first letter of a literal. -/
def scanLiteral (literalText : Bytes) (token : Token) (s : Bytes) : Token × Bytes :=
  if literalText <+: s then (token, s.drop literalText.length) else (.parseError, s)

variable (fmt : FloatText)

/-- `convert_number`. -/
def convertNumber (type : NumberType) (text : Bytes) : Token :=
  match type with
  | .unsigned =>
    match parseIntegerUnsigned 0 text with
    | some n => .unsigned n
    | none => .float (fmt.read text)
  | .integer =>
    match parseIntegerSigned text with
    | some n => .integer n
    | none => .float (fmt.read text)
  | .float => .float (fmt.read text)

/-- The structural characters. -/
def structural (c : UInt8) : Option Token :=
  if c = 91 then some .beginArray
  else if c = 93 then some .endArray
  else if c = 123 then some .beginObject
  else if c = 125 then some .endObject
  else if c = 58 then some .nameSeparator
  else if c = 44 then some .valueSeparator
  else none

/-- `scan` from a byte on that is no white space. -/
def scanToken (c : UInt8) (s : Bytes) : Token × Bytes :=
  match structural c with
  | some token => (token, s)
  | none =>
    if c = 116 then scanLiteral (ascii "rue") .literalTrue s
    else if c = 102 then scanLiteral (ascii "alse") .literalFalse s
    else if c = 110 then scanLiteral (ascii "ull") .literalNull s
    else if c = 34 then
      match scanString s with
      | some (value, rest) => (.string value, rest)
      | none => (.parseError, s)
    else if c = 45 ∨ isDigit c = true then
      match scanNumber (c :: s) with
      | some (type, text, rest) => (convertNumber fmt type text, rest)
      | none => (.parseError, s)
    else if c = 0 then (.endOfInput, s)
    else (.parseError, s)

/-- `scan`. -/
def scan (s : Bytes) : Token × Bytes :=
  match skipWhitespace s with
  | [] => (.endOfInput, [])
  | c :: s => scanToken fmt c s

/-- The input of `scan` stands behind white space. -/
theorem scan_cons {c : UInt8} (hc : isWhitespace c = false) (s : Bytes) :
    scan fmt (c :: s) = scanToken fmt c s := by
  rw [scan, skipWhitespace, List.dropWhile_cons_of_neg (by simp [hc])]

/-- A token without a value. -/
def Token.Plain : Token → Prop
  | .string _ | .unsigned _ | .integer _ | .float _ => False
  | _ => True

theorem scanLiteral_cases (literalText : Bytes) {token : Token} (htoken : token.Plain)
    (s : Bytes) : ∃ t k, t.Plain ∧ scanLiteral literalText token s = (t, s.drop k) := by
  unfold scanLiteral
  split
  · exact ⟨token, _, htoken, rfl⟩
  · exact ⟨.parseError, 0, trivial, rfl⟩

theorem plain_of_structural {c : UInt8} {token : Token} (h : structural c = some token) :
    token.Plain := by
  unfold structural at h
  split_ifs at h
  all_goals
    rw [← Option.some.inj h]
    trivial

/-- **The kinds of tokens**: one without a value, a string or a number. -/
theorem scanToken_cases (c : UInt8) (s : Bytes) :
    (∃ t k, t.Plain ∧ scanToken fmt c s = (t, s.drop k)) ∨
    (∃ value rest, scanString s = some (value, rest) ∧
      scanToken fmt c s = (.string value, rest)) ∨
    (∃ type text rest, scanNumber (c :: s) = some (type, text, rest) ∧
      scanToken fmt c s = (convertNumber fmt type text, rest)) := by
  have hplain : ∀ {t : Token}, t.Plain → ∃ t' k, t'.Plain ∧ (t, s) = (t', s.drop k) :=
    fun ht => ⟨_, 0, ht, rfl⟩
  unfold scanToken
  split
  · rename_i token h
    exact .inl (hplain (plain_of_structural h))
  · split
    · exact .inl (scanLiteral_cases _ (show Token.literalTrue.Plain from trivial) s)
    · split
      · exact .inl (scanLiteral_cases _ (show Token.literalFalse.Plain from trivial) s)
      · split
        · exact .inl (scanLiteral_cases _ (show Token.literalNull.Plain from trivial) s)
        · split
          · split
            · rename_i value rest h
              exact .inr (.inl ⟨value, rest, h, rfl⟩)
            · exact .inl (hplain trivial)
          · split
            · split
              · rename_i type text rest h
                exact .inr (.inr ⟨type, text, rest, h, rfl⟩)
              · exact .inl (hplain trivial)
            · split
              · exact .inl (hplain trivial)
              · exact .inl (hplain trivial)

theorem length_scanToken_le (c : UInt8) (s : Bytes) :
    (scanToken fmt c s).2.length ≤ s.length := by
  rcases scanToken_cases fmt c s with ⟨t, k, -, h⟩ | ⟨value, rest, hstring, h⟩ |
    ⟨type, text, rest, hnumber, h⟩
  · rw [h]
    exact (List.length_drop ▸ Nat.sub_le _ _)
  · rw [h]
    exact (length_of_scanString hstring).le
  · obtain ⟨happend, hne⟩ := append_of_scanNumber hnumber
    have hlength := congrArg List.length happend
    have hpos := List.length_pos_of_ne_nil hne
    rw [List.length_cons, List.length_append] at hlength
    rw [h]
    simp only
    omega

/-- **A token uses up some of the input**; only the end of the input does not. -/
theorem length_scan_lt {s : Bytes} (h : (scan fmt s).1 ≠ .endOfInput) :
    (scan fmt s).2.length < s.length := by
  unfold scan at h ⊢
  cases hskip : skipWhitespace s with
  | nil =>
    rw [hskip] at h
    exact absurd rfl h
  | cons c t =>
    have hlength : (c :: t).length ≤ s.length := by
      rw [← hskip, skipWhitespace]
      exact (List.dropWhile_suffix _).length_le
    exact lt_of_le_of_lt (length_scanToken_le fmt c t) (lt_of_lt_of_le (by simp) hlength)

theorem length_scan_le (s : Bytes) : (scan fmt s).2.length ≤ s.length := by
  by_cases h : (scan fmt s).1 = .endOfInput
  · unfold scan
    cases hskip : skipWhitespace s with
    | nil => exact Nat.zero_le _
    | cons c t =>
      have hlength : (c :: t).length ≤ s.length := by
        rw [← hskip, skipWhitespace]
        exact (List.dropWhile_suffix _).length_le
      exact (length_scanToken_le fmt c t).trans ((Nat.le_succ _).trans hlength)
  · exact (length_scan_lt fmt h).le

/-! ## What a token carries -/

/-- The range of what a token carries. -/
def Token.Ok : Token → Prop
  | .string s => isValidUtf8 s = true
  | .unsigned n => n < 2 ^ 64
  | .integer n => -2 ^ 63 ≤ n ∧ n ≤ 0
  | _ => True

theorem ok_convertNumber {s text rest : Bytes} {type : NumberType}
    (h : scanNumber s = some (type, text, rest)) : (convertNumber fmt type text).Ok := by
  obtain ⟨hunsigned, hinteger⟩ := isDigit_of_scanNumber h
  unfold convertNumber
  split
  · have hparse := parseIntegerUnsigned_eq (x := 0) (by decide) (hunsigned rfl)
    split
    · rename_i n hn
      rw [hn] at hparse
      split_ifs at hparse with hlt
      rw [Option.some.inj hparse]
      exact hlt
    · trivial
  · split
    · rename_i n hn
      obtain ⟨magnitude, hmagnitude, rfl⟩ := Option.map_eq_some_iff.mp hn
      have hparse := parseMagnitude_eq (x := 0) (by decide) (hinteger rfl)
      rw [hmagnitude] at hparse
      split_ifs at hparse with hle
      have hvalue := Option.some.inj hparse
      simp only [Token.Ok]
      split
      · exact ⟨le_rfl, by decide⟩
      · omega
    · trivial
  · trivial

theorem Token.Plain.ok {t : Token} (h : t.Plain) : t.Ok := by
  cases t <;> trivial

/-- **What a token carries**: strings are well formed and integers fit 64 bits. -/
theorem ok_scan (s : Bytes) : (scan fmt s).1.Ok := by
  unfold scan
  split
  · trivial
  · rename_i c t hskip
    rcases scanToken_cases fmt c t with ⟨token, k, hplain, h⟩ | ⟨value, rest, hstring, h⟩ |
      ⟨type, text, rest, hnumber, h⟩
    · rw [h]
      exact hplain.ok
    · rw [h]
      exact isValidUtf8_of_scanString hstring
    · rw [h]
      exact ok_convertNumber fmt hnumber

/-! ## Sequences of tokens -/

/-- The tokens are read one after the other, and the second text is what is left then. -/
inductive Lexes : Bytes → List Token → Bytes → Prop where
  | nil (s : Bytes) : Lexes s [] s
  | cons {s s' rest : Bytes} {t : Token} {ts : List Token} :
      scan fmt s = (t, s') → Lexes s' ts rest → Lexes s (t :: ts) rest

variable {fmt}

theorem Lexes.append {s mid rest : Bytes} {ts ts' : List Token} (h : Lexes fmt s ts mid)
    (h' : Lexes fmt mid ts' rest) : Lexes fmt s (ts ++ ts') rest := by
  induction h with
  | nil s => exact h'
  | cons hscan _ ih => exact .cons hscan (ih h')

theorem Lexes.concat {s mid rest : Bytes} {ts : List Token} {t : Token} (h : Lexes fmt s ts mid)
    (hscan : scan fmt mid = (t, rest)) : Lexes fmt s (ts ++ [t]) rest :=
  h.append (.cons hscan (.nil rest))

theorem Lexes.ok {s rest : Bytes} {ts : List Token} (h : Lexes fmt s ts rest) :
    ∀ t ∈ ts, t.Ok := by
  induction h with
  | nil s => exact fun t ht => absurd ht List.not_mem_nil
  | @cons s s' rest t ts hscan _ ih =>
    have ht := ok_scan fmt s
    rw [hscan] at ht
    exact List.forall_mem_cons.mpr ⟨ht, ih⟩

theorem Lexes.exists_of_append {s rest : Bytes} {ts ts' : List Token} :
    Lexes fmt s (ts ++ ts') rest → ∃ mid, Lexes fmt s ts mid ∧ Lexes fmt mid ts' rest := by
  induction ts generalizing s with
  | nil => exact fun h => ⟨s, .nil s, h⟩
  | cons t ts ih =>
    intro h
    cases h with
    | cons hscan h =>
      obtain ⟨mid, hleft, hright⟩ := ih h
      exact ⟨mid, .cons hscan hleft, hright⟩

end Lexer
end HttpDataDiod
