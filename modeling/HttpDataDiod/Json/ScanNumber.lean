import HttpDataDiod.Lib.Binary64
import HttpDataDiod.Lib.Decimal

/-!
# Writing and reading a number

Models of `serializer::dump_integer`, of the automaton of `lexer::scan_number`, and of the
integer parsers of `nlohmann/json.hpp`.  An integer that does not fit 64 bits is read as a
floating-point number; the conversion between floating-point numbers and their texts is
taken from outside, as a `FloatText`.

* `dumpInteger`, `dumpInteger_eq_decimalInt`: two digits at a time, from the back.
* `scanNumber`: the automaton, `scanNumber_decimalInt`: it reads an integer up to the first
  byte that cannot go on with it.
* `parseIntegerUnsigned_eq`, `parseIntegerSigned_eq`: the integers that fit.
-/

namespace HttpDataDiod

open ByteText

namespace Serializer

/-! ## Writing -/

/-- `count_digits`, with the count so far. -/
def countDigitsFrom (digits x : ℕ) : ℕ :=
  if x < 10 then digits
  else if x < 100 then digits + 1
  else if x < 1000 then digits + 2
  else if x < 10000 then digits + 3
  else countDigitsFrom (digits + 4) (x / 10000)
termination_by x
decreasing_by omega

def countDigits (x : ℕ) : ℕ := countDigitsFrom 1 x

/-- An entry of `digits_to_99`. -/
def digitsTo99 (v : ℕ) : Bytes := [UInt8.ofNat (48 + v / 10), UInt8.ofNat (48 + v % 10)]

/-- The loop of `dump_integer`, which fills the buffer from the back, in front of what has
been written. -/
def writeDigits (absValue : ℕ) (written : Bytes) : Bytes :=
  if 100 ≤ absValue then writeDigits (absValue / 100) (digitsTo99 (absValue % 100) ++ written)
  else if 10 ≤ absValue then digitsTo99 absValue ++ written
  else UInt8.ofNat (48 + absValue) :: written
termination_by absValue
decreasing_by omega

/-- `dump_integer`.  The buffer has `count_digits` places for the digits, which
`length_writeDigits` shows to be all filled. -/
def dumpInteger (x : ℤ) : Bytes :=
  if x = 0 then [48]
  else if x < 0 then 45 :: writeDigits x.natAbs []
  else writeDigits x.toNat []

theorem decimal_of_lt_ten {n : ℕ} (h : n < 10) : decimal n = [UInt8.ofNat (48 + n)] := by
  have hall : ∀ m : Fin 10, decimal m.val = [UInt8.ofNat (48 + m.val)] := by decide
  exact hall ⟨n, h⟩

theorem decimal_of_ten_le {n : ℕ} (h : 10 ≤ n) :
    decimal n = decimal (n / 10) ++ [UInt8.ofNat (48 + n % 10)] := by
  have hdigit : decimal (n % 10) = [UInt8.ofNat (48 + n % 10)] :=
    decimal_of_lt_ten (Nat.mod_lt n (by decide))
  rw [← hdigit, decimal, decimal, decimal, Nat.toDigits_of_base_le (by decide) h, List.map_append,
    Nat.toDigits_of_lt_base (Nat.mod_lt n (by decide))]

theorem writeDigits_eq (absValue : ℕ) (written : Bytes) :
    writeDigits absValue written = decimal absValue ++ written := by
  induction absValue using Nat.strong_induction_on generalizing written with
  | _ n ih =>
    rw [writeDigits]
    split
    · have htens : n / 10 / 10 = n / 100 := Nat.div_div_eq_div_mul n 10 10
      have htwo : digitsTo99 (n % 100) =
          [UInt8.ofNat (48 + n / 10 % 10), UInt8.ofNat (48 + n % 10)] := by
        rw [digitsTo99, show n % 100 / 10 = n / 10 % 10 by omega,
          show n % 100 % 10 = n % 10 by omega]
      rw [ih (n / 100) (by omega), decimal_of_ten_le (show 10 ≤ n by omega),
        decimal_of_ten_le (show 10 ≤ n / 10 by omega), htens, htwo, List.append_assoc,
        List.append_assoc]
      rfl
    · split
      · rw [decimal_of_ten_le (by assumption), decimal_of_lt_ten (show n / 10 < 10 by omega)]
        rfl
      · rw [decimal_of_lt_ten (by omega)]
        rfl

theorem countDigitsFrom_eq (digits x : ℕ) :
    countDigitsFrom digits x + 1 = digits + (decimal x).length := by
  induction x using Nat.strong_induction_on generalizing digits with
  | _ x ih =>
    have hten : ∀ {n : ℕ}, 10 ≤ n → (decimal n).length = (decimal (n / 10)).length + 1 := by
      intro n hn
      rw [decimal_of_ten_le hn, List.length_append]
      rfl
    have hone : ∀ {n : ℕ}, n < 10 → (decimal n).length = 1 := by
      intro n hn
      rw [decimal_of_lt_ten hn]
      rfl
    rw [countDigitsFrom]
    split
    · rw [hone (by assumption)]
    · rw [hten (by omega)]
      split
      · rw [hone (by omega)]
      · rw [hten (by omega)]
        split
        · rw [hone (by omega)]
        · rw [hten (by omega)]
          split
          · rw [hone (by omega)]
          · rw [hten (by omega), ih (x / 10000) (by omega),
              show x / 10 / 10 / 10 / 10 = x / 10000 by omega]
            omega

/-- The digits fill the places that `count_digits` counted. -/
theorem length_writeDigits (absValue : ℕ) :
    (writeDigits absValue []).length = countDigits absValue := by
  have h := countDigitsFrom_eq 1 absValue
  rw [writeDigits_eq, List.append_nil, countDigits]
  omega

/-- **`dump_integer` writes the decimal numeral.** -/
theorem dumpInteger_eq_decimalInt (x : ℤ) : dumpInteger x = decimalInt x := by
  rw [dumpInteger, decimalInt]
  split
  · rename_i hx
    rw [hx]
    rfl
  · split
    · rw [writeDigits_eq, List.append_nil]
    · rw [writeDigits_eq, List.append_nil, show x.toNat = x.natAbs by omega]

end Serializer

namespace Lexer

open Serializer

/-! ## The automaton -/

/-- The states of `scan_number`, by its labels. -/
inductive NumberState where
  | minus
  | zero
  | any1
  | decimal1
  | decimal2
  | exponent
  | sign
  | any2
  deriving DecidableEq

/-- `number_type`. -/
inductive NumberType where
  | unsigned
  | integer
  | float
  deriving DecidableEq

namespace NumberState

/-- The state after a byte; `none` is the default branch. -/
def next : NumberState → UInt8 → Option NumberState
  | minus, c => if c = 48 then some zero else if isDigit c then some any1 else none
  | zero, c =>
    if c = 46 then some decimal1 else if c = 101 ∨ c = 69 then some exponent else none
  | any1, c =>
    if isDigit c then some any1
    else if c = 46 then some decimal1
    else if c = 101 ∨ c = 69 then some exponent
    else none
  | decimal1, c => if isDigit c then some decimal2 else none
  | decimal2, c =>
    if isDigit c then some decimal2 else if c = 101 ∨ c = 69 then some exponent else none
  | exponent, c =>
    if c = 43 ∨ c = 45 then some sign else if isDigit c then some any2 else none
  | sign, c => if isDigit c then some any2 else none
  | any2, c => if isDigit c then some any2 else none

/-- The default branch goes to `scan_number_done`. -/
def accepting : NumberState → Bool
  | zero | any1 | decimal2 | any2 => true
  | _ => false

/-- The number type on entering a state. -/
def typeAfter (type : NumberType) : NumberState → NumberType
  | minus => .integer
  | decimal1 | exponent => .float
  | _ => type

end NumberState

/-- The states of `scan_number` from one on: the type of the number, the bytes that belong
to it, and the input behind it; `none` is a parse error. -/
def scanNumberFrom (state : NumberState) (type : NumberType) :
    Bytes → Option (NumberType × Bytes × Bytes)
  | [] => if state.accepting then some (type, [], []) else none
  | c :: s =>
    match state.next c with
    | some state' =>
      (scanNumberFrom state' (state'.typeAfter type) s).map fun r => (r.1, c :: r.2.1, r.2.2)
    | none => if state.accepting then some (type, [], c :: s) else none

/-- The state after the first byte of a number. -/
def numberStart (c : UInt8) : Option NumberState :=
  if c = 45 then some .minus
  else if c = 48 then some .zero
  else if isDigit c then some .any1
  else none

/-- `scan_number`, from the byte on that `scan` has read. -/
def scanNumber : Bytes → Option (NumberType × Bytes × Bytes)
  | [] => none
  | c :: s =>
    match numberStart c with
    | some state =>
      (scanNumberFrom state (state.typeAfter .unsigned) s).map fun r => (r.1, c :: r.2.1, r.2.2)
    | none => none

/-- The input cannot go on with a number. -/
def EndsNumber (s : Bytes) : Prop :=
  ∀ c, s.head? = some c → isDigit c = false ∧ c ≠ 46 ∧ c ≠ 101 ∧ c ≠ 69

theorem endsNumber_nil : EndsNumber [] := by simp [EndsNumber]

theorem endsNumber_cons {c : UInt8} (s : Bytes)
    (h : isDigit c = false ∧ c ≠ 46 ∧ c ≠ 101 ∧ c ≠ 69) : EndsNumber (c :: s) := by
  rintro d hd
  obtain rfl := Option.some.inj hd
  exact h

theorem next_of_ends {state : NumberState} (haccept : state.accepting = true) {c : UInt8}
    (h : isDigit c = false ∧ c ≠ 46 ∧ c ≠ 101 ∧ c ≠ 69) : state.next c = none := by
  obtain ⟨hdigit, hpoint, he, hE⟩ := h
  cases state <;> simp_all [NumberState.next, NumberState.accepting]

theorem scanNumberFrom_of_ends {state : NumberState} (haccept : state.accepting = true)
    (type : NumberType) {s : Bytes} (h : EndsNumber s) :
    scanNumberFrom state type s = some (type, [], s) := by
  cases s with
  | nil => rw [scanNumberFrom, if_pos haccept]
  | cons c s => rw [scanNumberFrom, next_of_ends haccept (h c rfl), if_pos haccept]

/-- **A number stays the same number** in front of anything that cannot go on with it. -/
theorem scanNumberFrom_append {rest : Bytes} (hrest : EndsNumber rest) (text : Bytes) :
    ∀ {state : NumberState} {type type' : NumberType},
      scanNumberFrom state type text = some (type', text, []) →
      scanNumberFrom state type (text ++ rest) = some (type', text, rest) := by
  induction text with
  | nil =>
    intro state type type' h
    rw [scanNumberFrom] at h
    split at h
    · rename_i haccept
      rw [List.nil_append, scanNumberFrom_of_ends haccept type hrest,
        (Prod.mk.inj (Option.some.inj h)).1]
    · cases h
  | cons c text ih =>
    intro state type type' h
    rw [scanNumberFrom] at h
    rw [List.cons_append, scanNumberFrom]
    cases hnext : state.next c with
    | some state' =>
      simp only [hnext] at h
      obtain ⟨⟨type'', text', rest'⟩, hscan, heq⟩ := Option.map_eq_some_iff.mp h
      simp only [Prod.mk.injEq, List.cons.injEq, true_and] at heq
      obtain ⟨rfl, rfl, rfl⟩ := heq
      simp only [ih hscan, Option.map_some]
    | none =>
      simp only [hnext] at h
      split at h
      · cases h
      · cases h

theorem scanNumber_append {rest : Bytes} (hrest : EndsNumber rest) {text : Bytes}
    {type : NumberType} (h : scanNumber text = some (type, text, [])) :
    scanNumber (text ++ rest) = some (type, text, rest) := by
  cases text with
  | nil => cases h
  | cons c text =>
    rw [scanNumber] at h
    rw [List.cons_append, scanNumber]
    cases hstart : numberStart c with
    | none =>
      simp only [hstart] at h
      cases h
    | some state =>
      simp only [hstart] at h
      obtain ⟨⟨type', text', rest'⟩, hscan, heq⟩ := Option.map_eq_some_iff.mp h
      simp only [Prod.mk.injEq, List.cons.injEq, true_and] at heq
      obtain ⟨rfl, rfl, rfl⟩ := heq
      simp only [scanNumberFrom_append hrest text' hscan, Option.map_some]

/-! ## Integers -/

theorem scanNumberFrom_digits {digits : Bytes} (hdigits : ∀ d ∈ digits, isDigit d = true)
    (type : NumberType) : scanNumberFrom .any1 type digits = some (type, digits, []) := by
  induction digits with
  | nil => rfl
  | cons d digits ih =>
    obtain ⟨hd, hdigits⟩ := List.forall_mem_cons.mp hdigits
    rw [scanNumberFrom, NumberState.next, if_pos hd]
    simp only [NumberState.typeAfter, ih hdigits, Option.map_some]

/-- The numeral of a positive number starts with a digit that is not zero. -/
theorem exists_decimal_eq_cons {n : ℕ} (hn : 0 < n) :
    ∃ d digits, decimal n = d :: digits ∧ isDigit d = true ∧ d ≠ 48 ∧
      ∀ d' ∈ digits, isDigit d' = true := by
  have hhead : ∀ n, 0 < n → (decimal n).head? ≠ some 48 := by
    intro n
    induction n using Nat.strong_induction_on with
    | _ n ih =>
      intro hn
      by_cases hten : 10 ≤ n
      · rw [decimal_of_ten_le hten, List.head?_append_of_ne_nil _ (decimal_ne_nil _)]
        exact ih (n / 10) (by omega) (by omega)
      · have hall : ∀ m : Fin 10, 0 < m.val → (decimal m.val).head? ≠ some 48 := by decide
        exact hall ⟨n, by omega⟩ hn
  cases hdecimal : decimal n with
  | nil => exact absurd hdecimal (decimal_ne_nil n)
  | cons d digits =>
    have hall : ∀ d' ∈ d :: digits, isDigit d' = true := fun d' hd' =>
      isDigit_of_mem_decimal (hdecimal ▸ hd')
    refine ⟨d, digits, rfl, hall d List.mem_cons_self, ?_, fun d' hd' =>
      hall d' (List.mem_cons_of_mem d hd')⟩
    have h := hhead n hn
    rw [hdecimal] at h
    exact fun heq => h (congrArg some heq)

/-- The whole numeral of a natural number is one number. -/
theorem scanNumber_decimal (n : ℕ) : scanNumber (decimal n) = some (.unsigned, decimal n, []) := by
  rcases Nat.eq_zero_or_pos n with rfl | hn
  · decide
  · obtain ⟨d, digits, hdecimal, hd, hzero, hdigits⟩ := exists_decimal_eq_cons hn
    have hminus : d ≠ 45 := by
      rintro rfl
      exact absurd hd (by decide)
    rw [hdecimal, scanNumber, numberStart, if_neg hminus, if_neg hzero, if_pos hd]
    simp only [NumberState.typeAfter, scanNumberFrom_digits hdigits, Option.map_some]

/-- The whole numeral of a negative number is one number. -/
theorem scanNumber_minus_decimal {n : ℕ} (hn : 0 < n) :
    scanNumber (45 :: decimal n) = some (.integer, 45 :: decimal n, []) := by
  obtain ⟨d, digits, hdecimal, hd, hzero, hdigits⟩ := exists_decimal_eq_cons hn
  rw [hdecimal, scanNumber, numberStart, if_pos rfl]
  simp only [NumberState.typeAfter]
  rw [scanNumberFrom, NumberState.next, if_neg hzero, if_pos hd]
  simp only [NumberState.typeAfter, scanNumberFrom_digits hdigits, Option.map_some]

/-- No state leads back to the sign. -/
theorem next_ne_minus (state : NumberState) (c : UInt8) : state.next c ≠ some .minus := by
  cases state <;> (simp only [NumberState.next]; split_ifs <;> simp)

/-- One byte of a number was read. -/
theorem scanNumberFrom_cons {state : NumberState} {type type' : NumberType} {c : UInt8}
    {s text rest : Bytes} (h : scanNumberFrom state type (c :: s) = some (type', text, rest)) :
    (∃ state' text', state.next c = some state' ∧ text = c :: text' ∧
        scanNumberFrom state' (state'.typeAfter type) s = some (type', text', rest)) ∨
      state.next c = none ∧ state.accepting = true ∧ type' = type ∧ text = [] ∧ rest = c :: s := by
  rw [scanNumberFrom] at h
  cases hnext : state.next c with
  | some state' =>
    simp only [hnext] at h
    obtain ⟨⟨type'', text', rest'⟩, hscan, heq⟩ := Option.map_eq_some_iff.mp h
    obtain ⟨rfl, hrest⟩ := Prod.mk.inj heq
    obtain ⟨rfl, rfl⟩ := Prod.mk.inj hrest
    exact .inl ⟨state', text', rfl, rfl, hscan⟩
  | none =>
    simp only [hnext] at h
    split at h
    · rename_i haccept
      obtain ⟨rfl, hrest⟩ := Prod.mk.inj (Option.some.inj h)
      obtain ⟨rfl, rfl⟩ := Prod.mk.inj hrest
      exact .inr ⟨rfl, haccept, rfl, rfl, rfl⟩
    · cases h

theorem scanNumberFrom_nil {state : NumberState} {type type' : NumberType} {text rest : Bytes}
    (h : scanNumberFrom state type [] = some (type', text, rest)) :
    state.accepting = true ∧ type' = type ∧ text = [] ∧ rest = [] := by
  rw [scanNumberFrom] at h
  split at h
  · rename_i haccept
    obtain ⟨rfl, hrest⟩ := Prod.mk.inj (Option.some.inj h)
    obtain ⟨rfl, rfl⟩ := Prod.mk.inj hrest
    exact ⟨haccept, rfl, rfl, rfl⟩
  · cases h

/-- The text of a number and what is behind it are the input. -/
theorem append_of_scanNumberFrom (s : Bytes) : ∀ {state type type' text rest},
    scanNumberFrom state type s = some (type', text, rest) → s = text ++ rest := by
  induction s with
  | nil =>
    intro state type type' text rest h
    obtain ⟨-, -, rfl, rfl⟩ := scanNumberFrom_nil h
    rfl
  | cons c s ih =>
    intro state type type' text rest h
    rcases scanNumberFrom_cons h with ⟨state', text', -, rfl, hscan⟩ | ⟨-, -, -, rfl, rfl⟩
    · rw [ih hscan, List.cons_append]
    · rfl

/-- The bytes a number goes on with are printable. -/
theorem le_of_next {state state' : NumberState} {c : UInt8} (h : state.next c = some state') :
    0x20 ≤ c := by
  have hall := forall_byte (P := fun c _ => (state.next c).isSome = true → 0x20 ≤ c)
    (by cases state <;> decide +kernel) c
  exact hall (by rw [h]; rfl)

/-- The text of a number is printable. -/
theorem le_of_mem_scanNumberFrom (s : Bytes) : ∀ {state type type' text rest},
    scanNumberFrom state type s = some (type', text, rest) → ∀ c ∈ text, 0x20 ≤ c := by
  induction s with
  | nil =>
    intro state type type' text rest h
    obtain ⟨-, -, rfl, rfl⟩ := scanNumberFrom_nil h
    exact List.forall_mem_nil _
  | cons c s ih =>
    intro state type type' text rest h
    rcases scanNumberFrom_cons h with ⟨state', text', hnext, rfl, hscan⟩ | ⟨-, -, -, rfl, rfl⟩
    · exact List.forall_mem_cons.mpr ⟨le_of_next hnext, ih hscan⟩
    · exact List.forall_mem_nil _

/-- What has become a floating-point number stays one. -/
theorem scanNumberFrom_float (s : Bytes) : ∀ {state type text rest}, state ≠ .minus →
    scanNumberFrom state .float s = some (type, text, rest) → type = .float := by
  induction s with
  | nil =>
    intro state type text rest _ h
    exact (scanNumberFrom_nil h).2.1
  | cons c s ih =>
    intro state type text rest _ h
    rcases scanNumberFrom_cons h with ⟨state', text', hnext, -, hscan⟩ | ⟨-, -, htype, -⟩
    · have hne : state' ≠ .minus := by
        rintro rfl
        exact next_ne_minus state c hnext
      have htype : state'.typeAfter .float = .float := by
        cases state' with
        | minus => exact absurd rfl hne
        | _ => rfl
      rw [htype] at hscan
      exact ih hne hscan
    · exact htype

/-- The integer states: the next state is one of them, or the number is no integer. -/
theorem next_of_integer {state state' : NumberState} (hstate : state = .zero ∨ state = .any1)
    {c : UInt8} (h : state.next c = some state') :
    state' = .any1 ∧ isDigit c = true ∨ ∀ type, state'.typeAfter type = .float := by
  rcases hstate with rfl | rfl
  · simp only [NumberState.next] at h
    split_ifs at h
    · exact .inr fun type => by rw [← Option.some.inj h]; rfl
    · exact .inr fun type => by rw [← Option.some.inj h]; rfl
  · simp only [NumberState.next] at h
    split_ifs at h with hdigit
    · exact .inl ⟨(Option.some.inj h).symm, hdigit⟩
    · exact .inr fun type => by rw [← Option.some.inj h]; rfl
    · exact .inr fun type => by rw [← Option.some.inj h]; rfl

/-- **The text of an integer** has digits only. -/
theorem isDigit_of_scanNumberFrom (s : Bytes) : ∀ {state type type' text rest},
    state = .zero ∨ state = .any1 → scanNumberFrom state type s = some (type', text, rest) →
    type' ≠ .float → type' = type ∧ ∀ d ∈ text, isDigit d = true := by
  induction s with
  | nil =>
    intro state type type' text rest _ h _
    obtain ⟨-, rfl, rfl, -⟩ := scanNumberFrom_nil h
    exact ⟨rfl, fun d hd => absurd hd List.not_mem_nil⟩
  | cons c s ih =>
    intro state type type' text rest hstate h htype
    rcases scanNumberFrom_cons h with ⟨state', text', hnext, rfl, hscan⟩ | ⟨-, -, rfl, rfl, -⟩
    · rcases next_of_integer hstate hnext with ⟨rfl, hdigit⟩ | hfloat
      · obtain ⟨rfl, hall⟩ := ih (.inr rfl) hscan htype
        exact ⟨rfl, List.forall_mem_cons.mpr ⟨hdigit, hall⟩⟩
      · rw [hfloat] at hscan
        have hne : state' ≠ .minus := by
          rintro rfl
          exact next_ne_minus state c hnext
        exact absurd (scanNumberFrom_float s hne hscan) htype
    · exact ⟨rfl, fun d hd => absurd hd List.not_mem_nil⟩

/-- The first byte of a number was read. -/
theorem exists_of_scanNumber {s text rest : Bytes} {type : NumberType}
    (h : scanNumber s = some (type, text, rest)) :
    ∃ c s' text' state, s = c :: s' ∧ text = c :: text' ∧ numberStart c = some state ∧
      scanNumberFrom state (state.typeAfter .unsigned) s' = some (type, text', rest) := by
  cases s with
  | nil => cases h
  | cons c s =>
    rw [scanNumber] at h
    cases hstart : numberStart c with
    | none =>
      simp only [hstart] at h
      cases h
    | some state =>
      simp only [hstart] at h
      obtain ⟨⟨type'', text', rest'⟩, hscan, heq⟩ := Option.map_eq_some_iff.mp h
      obtain ⟨rfl, hrest⟩ := Prod.mk.inj heq
      obtain ⟨rfl, rfl⟩ := Prod.mk.inj hrest
      exact ⟨c, s, text', state, rfl, rfl, hstart, hscan⟩

theorem append_of_scanNumber {s text rest : Bytes} {type : NumberType}
    (h : scanNumber s = some (type, text, rest)) : s = text ++ rest ∧ text ≠ [] := by
  obtain ⟨c, s', text', state, rfl, rfl, -, hscan⟩ := exists_of_scanNumber h
  exact ⟨by rw [append_of_scanNumberFrom s' hscan, List.cons_append], List.cons_ne_nil _ _⟩

theorem le_of_mem_scanNumber {s text rest : Bytes} {type : NumberType}
    (h : scanNumber s = some (type, text, rest)) : ∀ c ∈ text, 0x20 ≤ c := by
  obtain ⟨c, s', text', state, rfl, rfl, hstart, hscan⟩ := exists_of_scanNumber h
  refine List.forall_mem_cons.mpr ⟨?_, le_of_mem_scanNumberFrom s' hscan⟩
  have hall := forall_byte (P := fun c _ => (numberStart c).isSome = true → 0x20 ≤ c)
    (by decide +kernel) c
  exact hall (by rw [hstart]; rfl)

/-- The text of an unsigned integer is its digits, that of a signed one a minus sign and its
digits. -/
theorem isDigit_of_scanNumber {s text rest : Bytes} {type : NumberType}
    (h : scanNumber s = some (type, text, rest)) :
    (type = .unsigned → ∀ d ∈ text, isDigit d = true) ∧
      (type = .integer → ∀ d ∈ text.drop 1, isDigit d = true) := by
  obtain ⟨c, s', text', state, rfl, rfl, hstart, hscan⟩ := exists_of_scanNumber h
  unfold numberStart at hstart
  split_ifs at hstart with hminus hzero hdigit
  · obtain rfl := Option.some.inj hstart
    cases s' with
    | nil => exact absurd (scanNumberFrom_nil hscan).1 (by decide)
    | cons d s' =>
      rcases scanNumberFrom_cons hscan with ⟨state', text'', hnext, rfl, hread⟩ | ⟨-, haccept, -⟩
      · have hstate : (state' = .zero ∨ state' = .any1) ∧ isDigit d = true ∧
            state'.typeAfter .integer = .integer := by
          simp only [NumberState.next] at hnext
          split_ifs at hnext with hd hd
          · exact ⟨.inl (Option.some.inj hnext).symm, by rw [hd]; decide,
              by rw [← Option.some.inj hnext]; rfl⟩
          · exact ⟨.inr (Option.some.inj hnext).symm, hd, by rw [← Option.some.inj hnext]; rfl⟩
        have htype : NumberState.minus.typeAfter .unsigned = .integer := rfl
        rw [htype, hstate.2.2] at hread
        refine ⟨fun hunsigned => ?_, fun hinteger => ?_⟩
        · have heq := (isDigit_of_scanNumberFrom s' hstate.1 hread (by rw [hunsigned]; decide)).1
          rw [hunsigned] at heq
          cases heq
        · have hall := (isDigit_of_scanNumberFrom s' hstate.1 hread (by rw [hinteger]; decide)).2
          exact List.forall_mem_cons.mpr ⟨hstate.2.1, hall⟩
      · exact absurd haccept (by decide)
  · obtain rfl := Option.some.inj hstart
    have hc : isDigit c = true := by
      rw [hzero]
      decide
    refine ⟨fun hunsigned => ?_, fun hinteger => ?_⟩
    · have hall := (isDigit_of_scanNumberFrom s' (.inl rfl) hscan (by rw [hunsigned]; decide)).2
      exact List.forall_mem_cons.mpr ⟨hc, hall⟩
    · exact (isDigit_of_scanNumberFrom s' (.inl rfl) hscan (by rw [hinteger]; decide)).2
  · obtain rfl := Option.some.inj hstart
    refine ⟨fun hunsigned => ?_, fun hinteger => ?_⟩
    · have hall := (isDigit_of_scanNumberFrom s' (.inr rfl) hscan (by rw [hunsigned]; decide)).2
      exact List.forall_mem_cons.mpr ⟨hdigit, hall⟩
    · exact (isDigit_of_scanNumberFrom s' (.inr rfl) hscan (by rw [hinteger]; decide)).2

/-- `parse_integer_unsigned` from a value on. -/
def parseIntegerUnsigned (x : ℕ) : Bytes → Option ℕ
  | [] => some x
  | c :: s =>
    let digit := c.toNat - 48
    if (2 ^ 64 - 1) / 10 < x ∨ x = (2 ^ 64 - 1) / 10 ∧ (2 ^ 64 - 1) % 10 < digit then none
    else parseIntegerUnsigned (x * 10 + digit) s

/-- `parse_integer_signed` behind the minus sign, from a magnitude on. -/
def parseMagnitude (magnitude : ℕ) : Bytes → Option ℕ
  | [] => some magnitude
  | c :: s =>
    let digit := c.toNat - 48
    if (2 ^ 63 - digit) / 10 < magnitude then none else parseMagnitude (magnitude * 10 + digit) s

/-- `parse_integer_signed`. -/
def parseIntegerSigned (s : Bytes) : Option ℤ :=
  (parseMagnitude 0 (s.drop 1)).map fun magnitude : ℕ =>
    if magnitude = 2 ^ 63 then -2 ^ 63 else -(magnitude : ℤ)

/-- The value of digits behind a value. -/
def digitsFrom (x : ℕ) (s : Bytes) : ℕ := s.foldl (fun acc d => 10 * acc + (d.toNat - 48)) x

theorem le_digitsFrom (x : ℕ) (s : Bytes) : x ≤ digitsFrom x s := by
  induction s generalizing x with
  | nil => exact le_rfl
  | cons c s ih =>
    have h := ih (10 * x + (c.toNat - 48))
    rw [digitsFrom, List.foldl_cons]
    exact le_trans (by omega) h

/-- **The unsigned integers that fit**: the digits are read when their value is below
`2 ^ 64`, and no step overflows. -/
theorem parseIntegerUnsigned_eq {x : ℕ} (hx : x < 2 ^ 64) {s : Bytes}
    (hs : ∀ d ∈ s, isDigit d = true) :
    parseIntegerUnsigned x s =
      if digitsFrom x s < 2 ^ 64 then some (digitsFrom x s) else none := by
  induction s generalizing x with
  | nil => exact (if_pos hx).symm
  | cons c s ih =>
    obtain ⟨hc, hs⟩ := List.forall_mem_cons.mp hs
    obtain ⟨hlo, hhi⟩ := isDigit_iff.mp hc
    have hcons : digitsFrom x (c :: s) = digitsFrom (x * 10 + (c.toNat - 48)) s := by
      rw [digitsFrom, List.foldl_cons, Nat.mul_comm]
      rfl
    rw [parseIntegerUnsigned, hcons]
    split
    · have hle := le_digitsFrom (x * 10 + (c.toNat - 48)) s
      rw [if_neg (by omega)]
    · exact ih (by omega) hs

/-- **The negative integers that fit**: those with a magnitude of at most `2 ^ 63`. -/
theorem parseMagnitude_eq {x : ℕ} (hx : x ≤ 2 ^ 63) {s : Bytes}
    (hs : ∀ d ∈ s, isDigit d = true) :
    parseMagnitude x s = if digitsFrom x s ≤ 2 ^ 63 then some (digitsFrom x s) else none := by
  induction s generalizing x with
  | nil => exact (if_pos hx).symm
  | cons c s ih =>
    obtain ⟨hc, hs⟩ := List.forall_mem_cons.mp hs
    obtain ⟨hlo, hhi⟩ := isDigit_iff.mp hc
    have hcons : digitsFrom x (c :: s) = digitsFrom (x * 10 + (c.toNat - 48)) s := by
      rw [digitsFrom, List.foldl_cons, Nat.mul_comm]
      rfl
    rw [parseMagnitude, hcons]
    split
    · have hle := le_digitsFrom (x * 10 + (c.toNat - 48)) s
      rw [if_neg (by omega)]
    · exact ih (by omega) hs

theorem parseIntegerUnsigned_decimal {n : ℕ} (hn : n < 2 ^ 64) :
    parseIntegerUnsigned 0 (decimal n) = some n := by
  have hvalue : digitsFrom 0 (decimal n) = n := natOfDigits_decimal n
  rw [parseIntegerUnsigned_eq (by decide) fun d => isDigit_of_mem_decimal, hvalue, if_pos hn]

theorem parseIntegerSigned_decimal {n : ℕ} (hn : n ≤ 2 ^ 63) :
    parseIntegerSigned (45 :: decimal n) = some (-(n : ℤ)) := by
  have hvalue : digitsFrom 0 (decimal n) = n := natOfDigits_decimal n
  rw [parseIntegerSigned, List.drop_one, List.tail_cons,
    parseMagnitude_eq (by decide) fun d => isDigit_of_mem_decimal, hvalue, if_pos hn,
    Option.map_some]
  split
  · rename_i hlimit
    rw [hlimit]
    rfl
  · rfl

end Lexer
end HttpDataDiod
