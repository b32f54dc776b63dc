import Mathlib.Data.Nat.Basic
import Mathlib.Order.Lattice
import Mathlib.Tactic.Linarith

/-!
# Token buckets

A bucket holds at most `cap` tokens.  It is filled when it is looked at: for every whole
period since the last filling it gets `rate` tokens, and the time of the last filling moves
on by these whole periods, so that the rest of a period is not lost.

* `refill`, `take`: the two operations.
* `lt_refill_last`: less than a period has passed since the last filling.
* `refill_refill`: filling twice is filling once.
* `fill`, `fill_foldl`: filling with any numbers; and filling on the way is filling once, at
  the end.
* `Supplied`: an account of what was taken since the bucket stood at some time, kept by
  filling and by taking.
* `le_of_supplied`: within a time the bucket supplies its capacity and its rate for every
  period that began.
-/

namespace TokenBucket

/-- A positive capacity, a positive rate for each period, and the length of a period. -/
structure Params where
  cap : ℕ
  rate : ℕ
  period : ℕ
  cap_pos : 0 < cap
  rate_pos : 0 < rate
  period_pos : 0 < period

/-- The tokens and the time of the last filling. -/
@[ext] structure Bucket where
  tokens : ℕ
  last : ℕ
  deriving DecidableEq

variable (p : Params)

/-- The whole periods since the last filling. -/
def ticks (now : ℕ) (b : Bucket) : ℕ := (now - b.last) / p.period

/-- Filling a bucket. -/
def refill (now : ℕ) (b : Bucket) : Bucket where
  tokens := min (b.tokens + ticks p now b * p.rate) p.cap
  last := b.last + ticks p now b * p.period

/-- Filling, whatever the capacity, the rate and the period are. -/
def fill (cap rate period now : ℕ) (b : Bucket) : Bucket where
  tokens := min (b.tokens + (now - b.last) / period * rate) cap
  last := b.last + (now - b.last) / period * period

/-- A full bucket. -/
def full (now : ℕ) : Bucket := ⟨p.cap, now⟩

/-- Taking one token. -/
def take (b : Bucket) : Bucket := { b with tokens := b.tokens - 1 }

/-- A request: the bucket is filled, and a token is taken if there is one. -/
def request (now : ℕ) (b : Bucket) : Bool × Bucket :=
  if 0 < (refill p now b).tokens then (true, take (refill p now b)) else (false, refill p now b)

variable {p} {b : Bucket} {now later : ℕ}

/-! ## Filling -/

theorem refill_tokens_le (now : ℕ) (b : Bucket) : (refill p now b).tokens ≤ p.cap :=
  Nat.min_le_right _ _

theorem ticks_mul_le (now : ℕ) (b : Bucket) : ticks p now b * p.period ≤ now - b.last :=
  Nat.div_mul_le_self _ _

theorem lt_ticks_succ_mul (now : ℕ) (b : Bucket) :
    now - b.last < (ticks p now b + 1) * p.period := by
  have hlt := Nat.lt_div_mul_add (a := now - b.last) p.period_pos
  have hsucc : (ticks p now b + 1) * p.period = (now - b.last) / p.period * p.period + p.period :=
    Nat.succ_mul _ _
  omega

theorem refill_last_le (h : b.last ≤ now) : (refill p now b).last ≤ now := by
  have hle := ticks_mul_le (p := p) now b
  show b.last + ticks p now b * p.period ≤ now
  omega

/-- **Less than a period has passed** since the last filling. -/
theorem lt_refill_last (now : ℕ) (b : Bucket) : now < (refill p now b).last + p.period := by
  have hlt := lt_ticks_succ_mul (p := p) now b
  have hsucc : (ticks p now b + 1) * p.period = ticks p now b * p.period + p.period :=
    Nat.succ_mul _ _
  show now < b.last + ticks p now b * p.period + p.period
  omega

/-- A bucket that was filled less than a period ago is left as it is. -/
theorem refill_eq_self (hcap : b.tokens ≤ p.cap) (h : now < b.last + p.period) :
    refill p now b = b := by
  have hpos := p.period_pos
  have hticks : ticks p now b = 0 := Nat.div_eq_of_lt (by omega)
  rw [refill, hticks, Nat.zero_mul, Nat.zero_mul, Nat.add_zero, Nat.add_zero, Nat.min_eq_left hcap]

/-! ## Filling on the way -/

theorem refill_eq_fill (now : ℕ) (b : Bucket) :
    refill p now b = fill p.cap p.rate p.period now b := rfl

section Fill

variable {cap rate period : ℕ}

/-- Filling goes by the whole periods. -/
theorem fill_of_periods {b : Bucket} {now k : ℕ} (h : (now - b.last) / period = k) :
    fill cap rate period now b = ⟨min (b.tokens + k * rate) cap, b.last + k * period⟩ := by
  rw [fill, h]

theorem fill_last_le {b : Bucket} {now : ℕ} (h : b.last ≤ now) :
    (fill cap rate period now b).last ≤ now := by
  have hle : (now - b.last) / period * period ≤ now - b.last := Nat.div_mul_le_self _ _
  show b.last + (now - b.last) / period * period ≤ now
  omega

/-- The periods of two fillings add up. -/
theorem periods_add {last now later : ℕ} (hperiod : 0 < period) (hlast : last ≤ now)
    (h : now ≤ later) :
    (now - last) / period + (later - (last + (now - last) / period * period)) / period =
      (later - last) / period := by
  have hle : (now - last) / period * period ≤ now - last := Nat.div_mul_le_self _ _
  have hsplit : later - last = later - (last + (now - last) / period * period) +
      (now - last) / period * period := by omega
  rw [Nat.add_comm, ← Nat.add_mul_div_right _ _ hperiod, ← hsplit]

/-- **Filling twice is filling once.** -/
theorem fill_fill {b : Bucket} {now later : ℕ} (hperiod : 0 < period) (hlast : b.last ≤ now)
    (h : now ≤ later) :
    fill cap rate period later (fill cap rate period now b) = fill cap rate period later b := by
  obtain ⟨k, hk⟩ : ∃ k, (now - b.last) / period = k := ⟨_, rfl⟩
  obtain ⟨l, hl⟩ : ∃ l, (later - (b.last + k * period)) / period = l := ⟨_, rfl⟩
  have hadd : (later - b.last) / period = k + l := by
    rw [← periods_add hperiod hlast h, hk, hl]
  rw [fill_of_periods hk, fill_of_periods hl, fill_of_periods hadd]
  ext
  · show min (min (b.tokens + k * rate) cap + l * rate) cap = min (b.tokens + (k + l) * rate) cap
    rw [Nat.add_mul]
    omega
  · show b.last + k * period + l * period = b.last + (k + l) * period
    rw [Nat.add_mul, Nat.add_assoc]

/-- **Filling at any times on the way** is filling once, at the end. -/
theorem fill_foldl {times : List ℕ} {b : Bucket} {later : ℕ} (hperiod : 0 < period)
    (hsorted : times.Pairwise (· ≤ ·)) (hlast : ∀ t ∈ times, b.last ≤ t)
    (hlater : ∀ t ∈ times, t ≤ later) :
    fill cap rate period later (times.foldl (fun b t => fill cap rate period t b) b) =
      fill cap rate period later b := by
  induction times generalizing b with
  | nil => rfl
  | cons t times ih =>
    obtain ⟨hle, hsorted⟩ := List.pairwise_cons.mp hsorted
    have ht : b.last ≤ t := hlast t List.mem_cons_self
    have hfilled : (fill cap rate period t b).last ≤ t := fill_last_le ht
    rw [List.foldl_cons, ih hsorted (fun u hu => hfilled.trans (hle u hu))
      fun u hu => hlater u (List.mem_cons_of_mem t hu)]
    exact fill_fill hperiod ht (hlater t List.mem_cons_self)

end Fill

theorem refill_refill (hlast : b.last ≤ now) (h : now ≤ later) :
    refill p later (refill p now b) = refill p later b := by
  rw [refill_eq_fill, refill_eq_fill, refill_eq_fill]
  exact fill_fill p.period_pos hlast h

/-! ## What a bucket supplies -/

/-- Since the bucket stood with its last filling at `base`, `taken` tokens were taken from
it, out of a full bucket and the rate of every period that was filled in since. -/
def Supplied (p : Params) (base taken : ℕ) (b : Bucket) : Prop :=
  ∃ k, b.last = base + k * p.period ∧ taken + b.tokens ≤ p.cap + k * p.rate

theorem supplied_zero (hcap : b.tokens ≤ p.cap) : Supplied p b.last 0 b :=
  ⟨0, by omega, by omega⟩

variable {base taken : ℕ}

theorem Supplied.refill (h : Supplied p base taken b) (now : ℕ) :
    Supplied p base taken (refill p now b) := by
  obtain ⟨k, hlast, htaken⟩ := h
  refine ⟨k + ticks p now b, ?_, ?_⟩
  · show b.last + ticks p now b * p.period = _
    rw [hlast, Nat.add_mul, Nat.add_assoc]
  · have hle : (TokenBucket.refill p now b).tokens ≤ b.tokens + ticks p now b * p.rate :=
      Nat.min_le_left _ _
    rw [Nat.add_mul]
    omega

/-- A token that is taken is accounted for. -/
theorem Supplied.take (h : Supplied p base taken b) (hpos : 0 < b.tokens) :
    Supplied p base (taken + 1) (take b) := by
  obtain ⟨k, hlast, htaken⟩ := h
  refine ⟨k, hlast, ?_⟩
  show taken + 1 + (b.tokens - 1) ≤ _
  omega

/-- And so is less than what was taken. -/
theorem Supplied.mono {taken' tokens' : ℕ} (h : Supplied p base taken b)
    (hle : taken' + tokens' ≤ taken + b.tokens) :
    Supplied p base taken' { b with tokens := tokens' } := by
  obtain ⟨k, hlast, htaken⟩ := h
  exact ⟨k, hlast, Nat.le_trans hle htaken⟩

/-- **The bound on the supply.**  From a bucket that was filled less than a period before
`start`, up to `start + length`, at most the capacity is taken, and the rate of all whole
periods and of one more. -/
theorem le_of_supplied {start length : ℕ} (h : Supplied p base taken b)
    (hbase : start < base + p.period) (hlast : b.last ≤ start + length) :
    taken ≤ p.cap + p.rate * (length / p.period + 1) := by
  obtain ⟨k, hk, htaken⟩ := h
  have hperiods : k ≤ length / p.period + 1 := by
    rcases Nat.eq_zero_or_pos k with rfl | hpos
    · exact Nat.zero_le _
    · have hlt : (k - 1) * p.period < length + 1 := by
        have hsucc : k * p.period = (k - 1) * p.period + p.period := by
          rw [← Nat.succ_mul]
          congr 1
          omega
        omega
      have := (Nat.le_div_iff_mul_le p.period_pos).mpr (Nat.lt_succ_iff.mp hlt)
      omega
  calc taken ≤ taken + b.tokens := Nat.le_add_right _ _
    _ ≤ p.cap + k * p.rate := htaken
    _ ≤ p.cap + (length / p.period + 1) * p.rate :=
      Nat.add_le_add_left (Nat.mul_le_mul_right _ hperiods) _
    _ = p.cap + p.rate * (length / p.period + 1) := by rw [Nat.mul_comm]

end TokenBucket
