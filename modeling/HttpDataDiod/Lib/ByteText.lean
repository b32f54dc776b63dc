import Mathlib.Data.List.Basic
import Mathlib.Data.List.Infix
import Mathlib.Data.List.TakeWhile

/-!
# Byte strings

A byte string is a list of `UInt8`; every byte is allowed and no encoding is
assumed.  This file has what a text-processing program asks of such strings and
the library of lists does not name: ASCII literals, the character classes of the
C locale, and the search for a substring.

* `ascii`: the bytes of an ASCII literal.
* `isSpace`, `isDigit`, `isUpper`, `toLower`: the C-locale classes.
* `findSub`: the first occurrence of a pattern, as an index, with
  `findSub_append_left` (a pattern that the left part cannot reach is found in
  the right part, at an offset) and `findSub_eq_none_iff`.
* `findIdx_eq_some_iff`, `rfind_eq_some_iff`: the first and the last occurrence of
  a byte cut a text in two.
-/

namespace ByteText

/-- A string of bytes, as a C++ `std::string` holds them. -/
abbrev Bytes := List UInt8

-- One constant for the lawfulness keeps the membership tests of the definitions alike.
instance : LawfulBEq Bytes := inferInstance

/-- The bytes of an ASCII literal. -/
def ascii (s : String) : Bytes := s.toList.map fun c => UInt8.ofNat c.toNat

/-- A property of bytes and their values, checked byte by byte. -/
theorem forall_byte {P : UInt8 → ℕ → Prop} (h : ∀ b : Fin 256, P (UInt8.ofNat b.val) b.val)
    (c : UInt8) : P c c.toNat := by
  have hc := h ⟨c.toNat, c.toNat_lt⟩
  rwa [UInt8.ofNat_toNat] at hc

/-! ## Character classes of the C locale -/

/-- `isspace`: blank, tab, line feed, vertical tab, form feed, carriage return. -/
def isSpace (c : UInt8) : Bool :=
  c = 32 || c = 9 || c = 10 || c = 11 || c = 12 || c = 13

/-- `isdigit`. -/
def isDigit (c : UInt8) : Bool := 48 ≤ c && c ≤ 57

theorem isDigit_iff {c : UInt8} : isDigit c = true ↔ 48 ≤ c.toNat ∧ c.toNat ≤ 57 := by
  simp [isDigit, UInt8.le_iff_toNat_le]

/-- `isupper`. -/
def isUpper (c : UInt8) : Bool := 65 ≤ c && c ≤ 90

/-- `tolower` on one byte. -/
def toLowerByte (c : UInt8) : UInt8 := if isUpper c then c + 32 else c

/-- Byte-wise `tolower`. -/
def toLower (s : Bytes) : Bytes := s.map toLowerByte

@[simp] theorem toLower_nil : toLower [] = [] := rfl

@[simp] theorem toLower_cons (c : UInt8) (s : Bytes) :
    toLower (c :: s) = toLowerByte c :: toLower s := rfl

@[simp] theorem toLower_append (s t : Bytes) :
    toLower (s ++ t) = toLower s ++ toLower t := List.map_append

@[simp] theorem length_toLower (s : Bytes) : (toLower s).length = s.length :=
  List.length_map _

/-! ## Searching -/

/-- The index of the first occurrence of `pat`, as `std::string_view::find`
gives it. -/
def findSub (pat : Bytes) : Bytes → Option ℕ
  | [] => if pat = [] then some 0 else none
  | c :: s => if pat <+: c :: s then some 0 else (findSub pat s).map (· + 1)

theorem findSub_of_isPrefix {pat s : Bytes} (h : pat <+: s) : findSub pat s = some 0 := by
  cases s with
  | nil => simp [findSub, List.prefix_nil.mp h]
  | cons c s => simp [findSub, h]

theorem findSub_cons_of_not_isPrefix {pat : Bytes} {c : UInt8} {s : Bytes}
    (h : ¬ pat <+: c :: s) : findSub pat (c :: s) = (findSub pat s).map (· + 1) := by
  simp [findSub, h]

/-- **Searching past a part the pattern does not start in.**  If no suffix of
`l`, continued by `r`, starts with the pattern, the pattern is found in `r`, at
the offset of `r`. -/
theorem findSub_append_left {pat l r : Bytes}
    (h : ∀ x y, l = x ++ y → y ≠ [] → ¬ pat <+: y ++ r) :
    findSub pat (l ++ r) = (findSub pat r).map (· + l.length) := by
  induction l with
  | nil => simp
  | cons c l ih =>
    have hc : ¬ pat <+: c :: (l ++ r) := h [] (c :: l) rfl (List.cons_ne_nil _ _)
    have hl : ∀ x y, l = x ++ y → y ≠ [] → ¬ pat <+: y ++ r := fun x y hxy hy =>
      h (c :: x) y (by rw [hxy, List.cons_append]) hy
    rw [List.cons_append, findSub_cons_of_not_isPrefix hc, ih hl, Option.map_map]
    rfl

/-- A pattern is found exactly when it occurs. -/
theorem findSub_eq_none_iff {pat s : Bytes} : findSub pat s = none ↔ ¬ pat <:+: s := by
  induction s with
  | nil =>
    rw [List.infix_nil]
    by_cases hpat : pat = []
    · simp [findSub, hpat]
    · simp [findSub, hpat]
  | cons c s ih =>
    rw [List.infix_cons_iff]
    by_cases hc : pat <+: c :: s
    · simp [findSub_of_isPrefix hc, hc]
    · rw [findSub_cons_of_not_isPrefix hc, Option.map_eq_none_iff, ih]
      simp [hc]

/-- Where a pattern is found it stands. -/
theorem isPrefix_drop_of_findSub {pat s : Bytes} {i : ℕ} (h : findSub pat s = some i) :
    pat <+: s.drop i := by
  induction s generalizing i with
  | nil =>
    obtain ⟨rfl, rfl⟩ : pat = [] ∧ 0 = i := by simpa [findSub] using h
    exact List.nil_prefix
  | cons c s ih =>
    by_cases hc : pat <+: c :: s
    · obtain rfl : 0 = i := by simpa [findSub_of_isPrefix hc] using h
      exact hc
    · rw [findSub_cons_of_not_isPrefix hc] at h
      obtain ⟨j, hj, rfl⟩ := Option.map_eq_some_iff.mp h
      exact ih hj

/-! ## Searching for a byte -/

theorem findIdx_eq_none_iff {c : UInt8} {s : Bytes} :
    s.findIdx? (· = c) = none ↔ c ∉ s := by
  rw [List.findIdx?_eq_none_iff]
  constructor
  · intro h hmem
    exact of_decide_eq_false (h c hmem) rfl
  · intro h x hx
    exact decide_eq_false fun hxc => h (hxc ▸ hx)

/-- A byte that is not in the left part is found where the right part starts. -/
theorem findIdx_append_cons {c : UInt8} {l : Bytes} (h : c ∉ l) (r : Bytes) :
    (l ++ c :: r).findIdx? (· = c) = some l.length := by
  rw [List.findIdx?_append, findIdx_eq_none_iff.mpr h, List.findIdx?_cons]
  simp

/-- Searching for a byte cuts the text at its first occurrence. -/
theorem findIdx_eq_some_iff {c : UInt8} {s : Bytes} {i : ℕ} :
    s.findIdx? (· = c) = some i ↔ ∃ l r, s = l ++ c :: r ∧ c ∉ l ∧ l.length = i := by
  constructor
  · intro h
    obtain ⟨hi, hc, hbefore⟩ := List.findIdx?_eq_some_iff_getElem.mp h
    have hcut : s = s.take i ++ c :: s.drop (i + 1) := by
      have hget : s[i] = c := of_decide_eq_true hc
      rw [← hget, ← List.drop_eq_getElem_cons hi, List.take_append_drop]
    refine ⟨s.take i, s.drop (i + 1), hcut, ?_, List.length_take_of_le hi.le⟩
    intro hmem
    obtain ⟨n, hn, hget⟩ := List.mem_take_iff_getElem.mp hmem
    exact hbefore n (by omega) (decide_eq_true hget)
  · rintro ⟨l, r, rfl, hl, rfl⟩
    exact findIdx_append_cons hl r

/-- Before the first place of a byte the byte does not occur. -/
theorem not_mem_take_of_findIdx {c : UInt8} {s : Bytes} {j : ℕ}
    (h : ∀ i, s.findIdx? (· = c) = some i → j ≤ i) : c ∉ s.take j := by
  intro hmem
  cases hfind : s.findIdx? (· = c) with
  | none => exact findIdx_eq_none_iff.mp hfind (List.mem_of_mem_take hmem)
  | some i =>
    have hji := h i hfind
    obtain ⟨l, r, rfl, hl, rfl⟩ := findIdx_eq_some_iff.mp hfind
    rw [List.take_append_of_le_length hji] at hmem
    exact hl (List.mem_of_mem_take hmem)

/-- The index of the last occurrence of a byte, as `rfind` gives it. -/
def rfind (c : UInt8) : Bytes → Option ℕ
  | [] => none
  | b :: s =>
    match rfind c s with
    | some i => some (i + 1)
    | none => if b = c then some 0 else none

theorem rfind_eq_none_iff {c : UInt8} {s : Bytes} : rfind c s = none ↔ c ∉ s := by
  induction s with
  | nil => simp [rfind]
  | cons b s ih =>
    rw [List.mem_cons, not_or, ← ih, rfind]
    cases hs : rfind c s with
    | some i => simp
    | none => simp [eq_comm]

/-- A byte that is not in the right part is last found where the right part starts. -/
theorem rfind_append_cons {c : UInt8} {r : Bytes} (h : c ∉ r) (l : Bytes) :
    rfind c (l ++ c :: r) = some l.length := by
  induction l with
  | nil => simp [rfind, rfind_eq_none_iff.mpr h]
  | cons b l ih => simp [rfind, ih]

/-- Searching from the right cuts the text at the last occurrence of the byte. -/
theorem rfind_eq_some_iff {c : UInt8} {s : Bytes} {i : ℕ} :
    rfind c s = some i ↔ ∃ l r, s = l ++ c :: r ∧ c ∉ r ∧ l.length = i := by
  constructor
  · intro h
    induction s generalizing i with
    | nil => exact absurd h (by simp [rfind])
    | cons b s ih =>
      cases hs : rfind c s with
      | some j =>
        obtain ⟨l, r, rfl, hr, rfl⟩ := ih hs
        exact ⟨b :: l, r, rfl, hr, by simpa [rfind, hs] using h⟩
      | none =>
        obtain ⟨rfl, rfl⟩ : b = c ∧ 0 = i := by simpa [rfind, hs] using h
        exact ⟨[], s, rfl, rfind_eq_none_iff.mp hs, rfl⟩
  · rintro ⟨l, r, rfl, hr, rfl⟩
    exact rfind_append_cons hr l

end ByteText
