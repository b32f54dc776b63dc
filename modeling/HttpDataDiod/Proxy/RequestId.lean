import HttpDataDiod.Lib.Decimal
import Mathlib.Algebra.Group.Nat.Defs
import Mathlib.Data.List.Basic
import Mathlib.Logic.Function.Basic

/-!
# Request ids

Model of `RequestIdGenerator`.  An id is a date, a counter and six random digits, joined by
tildes.  The counter belongs to the process and starts at 0; the date is kept by each thread
for an hour; the digits are drawn anew each time.

* `generateUuid`: the id of a request.
* `RequestId.text_injective`: two ids read alike only when all three parts are equal.
* `apart_of_counterValue_eq`: within a process the counter comes back after `2 ^ 64` ids.
-/

namespace HttpDataDiod
namespace Proxy

open ByteText

/-- A date as it stands in an id: it has no tilde. -/
structure DateText where
  bytes : Bytes
  not_mem : 126 ∉ bytes

/-- The fields of `std::tm` that are read, as a calendar date. -/
structure Date where
  year : ℤ
  month : ℕ
  day : ℕ

/-- `{:04d}-{:02d}-{:02d}`. -/
def Date.bytes (d : Date) : Bytes :=
  zeroPadded 4 d.year ++ ascii "-" ++ zeroPadded 2 d.month ++ ascii "-" ++ zeroPadded 2 d.day

theorem tilde_not_mem_zeroPadded (width : ℕ) (n : ℤ) : 126 ∉ zeroPadded width n := by
  intro h
  rcases isDigit_of_mem_zeroPadded h with h | h
  · exact absurd h (by decide)
  · exact absurd h (by decide)

theorem tilde_not_mem_decimalInt (n : ℤ) : 126 ∉ decimalInt n := by
  intro h
  rcases isDigit_of_mem_decimalInt h with h | h
  · exact absurd h (by decide)
  · exact absurd h (by decide)

theorem Date.tilde_not_mem_bytes (d : Date) : 126 ∉ d.bytes := by
  have hdash : (126 : UInt8) ∉ ascii "-" := by decide
  simp only [Date.bytes, List.mem_append, not_or]
  exact ⟨⟨⟨⟨tilde_not_mem_zeroPadded _ _, hdash⟩, tilde_not_mem_zeroPadded _ _⟩, hdash⟩,
    tilde_not_mem_zeroPadded _ _⟩

/-- The text of a date. -/
def Date.text (d : Date) : DateText := ⟨d.bytes, d.tilde_not_mem_bytes⟩

/-- The parts of an id. -/
@[ext]
structure RequestId where
  date : DateText
  counter : ℤ
  suffix : Fin 1000000

/-- `{}~{}~{:06d}`. -/
def RequestId.text (id : RequestId) : Bytes :=
  id.date.bytes ++ ascii "~" ++ decimalInt id.counter ++ ascii "~" ++ zeroPadded 6 id.suffix.val

/-- The two thread-local variables: `cached_date_str`, absent before the first id, and
`last_date_update`, in nanoseconds. -/
structure DateCache where
  date : Option DateText
  lastUpdate : ℤ

/-- `RequestIdGenerator` of a process, with the variables of its threads.  The counter is the
number of ids so far; `m_counter` holds its low 64 bits. -/
structure RequestIdGenerator where
  counter : ℕ
  cached : ℕ → DateCache

/-- The generator of a process that has just started. -/
def RequestIdGenerator.initial : RequestIdGenerator :=
  { counter := 0, cached := fun _ => { date := none, lastUpdate := 0 } }

/-- `std::chrono::hours(1)`. -/
def hourNs : ℤ := 3600000000000

/-- The value of the `long long`. -/
def counterValue (n : ℕ) : ℤ := (n : ℤ).bmod (2 ^ 64)

/-- The date that a thread puts into its next id. -/
def DateCache.refresh (c : DateCache) (steadyNow : ℤ) (today : Date) : DateText × DateCache :=
  match c.date with
  | some date =>
    if hourNs < steadyNow - c.lastUpdate then
      (today.text, { date := some today.text, lastUpdate := steadyNow })
    else (date, c)
  | none => (today.text, { date := some today.text, lastUpdate := steadyNow })

/-- `generate_uuid` on a thread: the clock, the local date and the random number are given. -/
def generateUuid (g : RequestIdGenerator) (thread : ℕ) (steadyNow : ℤ) (today : Date)
    (suffix : Fin 1000000) : RequestId × RequestIdGenerator :=
  let r := (g.cached thread).refresh steadyNow today
  ({ date := r.1, counter := counterValue g.counter, suffix },
    { counter := g.counter + 1, cached := Function.update g.cached thread r.2 })

theorem counter_generateUuid (g : RequestIdGenerator) (thread : ℕ) (steadyNow : ℤ) (today : Date)
    (suffix : Fin 1000000) :
    (generateUuid g thread steadyNow today suffix).1.counter = counterValue g.counter := by
  rw [generateUuid]

/-! ## When two ids are equal -/

theorem DateText.ext {a b : DateText} (h : a.bytes = b.bytes) : a = b := by
  cases a
  cases b
  simp only at h
  subst h
  rfl

/-- Two texts with a first tilde have the same part before it and the same part behind. -/
theorem split_at_tilde {s s' t t' : Bytes} (hs : 126 ∉ s) (hs' : 126 ∉ s')
    (h : s ++ 126 :: t = s' ++ 126 :: t') : s = s' ∧ t = t' := by
  have htake : ∀ {u v : Bytes}, 126 ∉ u → (u ++ 126 :: v).takeWhile (fun c => c ≠ 126) = u := by
    intro u v hu
    rw [List.takeWhile_append_of_pos fun c hc => by simpa using fun heq : c = 126 => hu (heq ▸ hc),
      List.takeWhile_cons_of_neg (by decide), List.append_nil]
  have heq : s = s' := by rw [← htake hs, h, htake hs']
  subst heq
  exact ⟨rfl, (List.cons.inj (List.append_cancel_left h)).2⟩

/-- **An id can be read back**: the tildes show where its parts begin. -/
theorem RequestId.text_injective {a b : RequestId} (h : a.text = b.text) : a = b := by
  have htilde : ascii "~" = [126] := rfl
  simp only [RequestId.text, htilde, List.append_assoc, List.cons_append] at h
  obtain ⟨hdate, h⟩ := split_at_tilde a.date.not_mem b.date.not_mem h
  obtain ⟨hcounter, hsuffix⟩ :=
    split_at_tilde (tilde_not_mem_decimalInt _) (tilde_not_mem_decimalInt _) h
  obtain ⟨date, counter, suffix⟩ := a
  obtain ⟨date', counter', suffix'⟩ := b
  obtain rfl : date = date' := DateText.ext hdate
  obtain rfl : counter = counter' := decimalInt_injective hcounter
  obtain rfl : suffix = suffix' := Fin.ext (zeroPadded_inj hsuffix)
  rfl

/-- Two ids of a process carry the same counter only `2 ^ 64` ids apart. -/
theorem apart_of_counterValue_eq {m n : ℕ} (h : counterValue m = counterValue n) (hne : m ≠ n) :
    m + 2 ^ 64 ≤ n ∨ n + 2 ^ 64 ≤ m := by
  have hmod : (m : ℤ) % 2 ^ 64 = (n : ℤ) % 2 ^ 64 := by
    have hm : ((m : ℤ).bmod (2 ^ 64)) % (2 ^ 64 : ℕ) = (m : ℤ) % (2 ^ 64 : ℕ) := Int.bmod_emod
    have hn : ((n : ℤ).bmod (2 ^ 64)) % (2 ^ 64 : ℕ) = (n : ℤ) % (2 ^ 64 : ℕ) := Int.bmod_emod
    unfold counterValue at h
    rw [h] at hm
    exact_mod_cast hm.symm.trans hn
  omega

end Proxy
end HttpDataDiod
