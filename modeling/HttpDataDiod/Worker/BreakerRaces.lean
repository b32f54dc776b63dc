import HttpDataDiod.Lib.Interleaving
import HttpDataDiod.Worker.CircuitBreaker

/-!
# The circuit breaker under concurrency

The methods of `CircuitBreaker` are called by all threads of a worker without a lock.  Here
each load, store and `fetch_add` of an atomic, and each reading of the clock, is one action,
and the actions of any number of threads interleave.

* `transitionToOpen`, `allowRequest`, `recordSuccess`, `recordFailure`: the methods, with
  `alone_allowRequest` and its companions for a call that no other thread disturbs.
* `OpenWindow`: after a completed `transition_to_open` the breaker stays open for ten seconds.
* `Fresh`: CLOSED is stored while the breaker is still half-open, and HALF_OPEN neither
  while another thread opens the breaker nor within ten seconds after one has.
* `openWindow_of_fresh`: under it every state of every run has the window.
* `not_openWindow_staleSuccess`: a success that was counted before the breaker was opened
  closes it again.
-/

namespace HttpDataDiod
namespace Worker
namespace BreakerRaces

open Interleaving Transition CircuitBreaker

/-! ## The methods -/

/-- The actions.  `opened` and `returned` are the ends of `transition_to_open` and of
`allow_request`. -/
inductive Action where
  | loadState
  | storeState (state : BreakerState)
  | loadClock
  | loadLastFailure
  | storeLastFailure (us : ℕ)
  | addSuccess
  | storeSuccess (n : ℕ)
  | addFailure
  | storeFailure (n : ℕ)
  | opened
  | returned (allowed : Bool)

/-- What an action answers with; `fetch_add` gives the value before. -/
abbrev Action.Result : Action → Type
  | .loadState => BreakerState
  | .loadClock => ℕ
  | .loadLastFailure => ℕ
  | .addSuccess => ℕ
  | .addFailure => ℕ
  | _ => Unit

abbrev Prog := Program Action Action.Result

/-- The program of one action. -/
def act (a : Action) : Prog a.Result := Program.perform a

/-- `update_gauge`. -/
def updateGauge (gauge : Bool) : Prog Unit :=
  if gauge then do
    let _ : BreakerState ← act .loadState
  else pure ()

/-- `transition_to_open`. -/
def transitionToOpen (gauge : Bool) : Prog Unit := do
  let now : ℕ ← act .loadClock
  act (.storeLastFailure now)
  act (.storeState .opened)
  act (.storeSuccess 0)
  updateGauge gauge
  act .opened

/-- `now_us - last`, in 64 bits. -/
def elapsed (now last : ℕ) : ℕ := (now + 2 ^ 64 - last) % 2 ^ 64

/-- The end of `allow_request` on an open breaker. -/
def checkTimeout (gauge : Bool) (elapsedUs : ℕ) : Prog Unit :=
  if openTimeoutUs ≤ elapsedUs then do
    act (.storeState .halfOpen)
    act (.storeSuccess 0)
    updateGauge gauge
    act (.returned true)
  else act (.returned false)

/-- `allow_request`. -/
def allowRequest (gauge : Bool) : Prog Unit := do
  let current : BreakerState ← act .loadState
  match current with
  | .closed => act (.returned true)
  | .halfOpen => act (.returned true)
  | .opened =>
    let now : ℕ ← act .loadClock
    let last : ℕ ← act .loadLastFailure
    checkTimeout gauge (elapsed now last)

/-- The end of `record_success` on a half-open breaker. -/
def checkSuccesses (gauge : Bool) (count : ℕ) : Prog Unit :=
  if halfOpenSuccessThreshold ≤ count then do
    act (.storeState .closed)
    act (.storeFailure 0)
    act (.storeSuccess 0)
    updateGauge gauge
  else pure ()

/-- `record_success`. -/
def recordSuccess (gauge : Bool) : Prog Unit := do
  let current : BreakerState ← act .loadState
  match current with
  | .halfOpen =>
    let count : ℕ ← act .addSuccess
    checkSuccesses gauge (count + 1)
  | .closed => act (.storeFailure 0)
  | .opened => pure ()

/-- The end of `record_failure` on a closed breaker. -/
def checkFailures (gauge : Bool) (count : ℕ) : Prog Unit :=
  if failureThreshold ≤ count then transitionToOpen gauge else pure ()

/-- `record_failure`. -/
def recordFailure (gauge : Bool) : Prog Unit := do
  let current : BreakerState ← act .loadState
  match current with
  | .halfOpen => transitionToOpen gauge
  | .closed =>
    let count : ℕ ← act .addFailure
    checkFailures gauge (count + 1)
  | .opened => pure ()

/-! ## The system -/

/-- The breaker and the clock; with them, for the statement of the property, the time at
which the last `transition_to_open` has completed, that time at the start of each thread's
`allow_request`, the threads between the store of OPEN and the end of `transition_to_open`,
and the requests let through: what was the last opening at their start, and when they were. -/
structure Shared where
  breaker : CircuitBreaker
  clock : ℕ
  lastOpened : Option ℕ
  startedAfter : ℕ → Option ℕ
  opening : ℕ → Bool
  allowed : List (Option ℕ × ℕ)

/-- An action of a thread. -/
def performAction (t : ℕ) (a : Action) (s : Shared) : a.Result × Shared :=
  match a with
  | .loadState => (s.breaker.state, s)
  | .storeState state =>
    ((), { s with
      breaker := { s.breaker with state }
      opening := if state = .opened then Function.update s.opening t true else s.opening })
  | .loadClock => (s.clock, s)
  | .loadLastFailure => (s.breaker.lastFailureTimeUs, s)
  | .storeLastFailure us => ((), { s with breaker := { s.breaker with lastFailureTimeUs := us } })
  | .addSuccess =>
    (s.breaker.successCount,
      { s with breaker := { s.breaker with successCount := s.breaker.successCount + 1 } })
  | .storeSuccess n => ((), { s with breaker := { s.breaker with successCount := n } })
  | .addFailure =>
    (s.breaker.failureCount,
      { s with breaker := { s.breaker with failureCount := s.breaker.failureCount + 1 } })
  | .storeFailure n => ((), { s with breaker := { s.breaker with failureCount := n } })
  | .opened =>
    ((), { s with
      lastOpened := some s.clock
      opening := Function.update s.opening t false })
  | .returned true => ((), { s with allowed := (s.startedAfter t, s.clock) :: s.allowed })
  | .returned false => ((), s)

/-- The calls of the threads. -/
inductive Call where
  | allowRequest
  | recordSuccess
  | recordFailure

/-- A call starts. -/
def startCall (gauge : Bool) (t : ℕ) (s : Shared) : Call → Prog Unit × Shared
  | .allowRequest =>
    (allowRequest gauge, { s with startedAfter := Function.update s.startedAfter t s.lastOpened })
  | .recordSuccess => (recordSuccess gauge, s)
  | .recordFailure => (recordFailure gauge, s)

/-- The threads of a worker; the environment lets the time pass, in microseconds. -/
def breakerSystem (gauge : Bool) : System ℕ Action Action.Result Unit Shared Call ℕ where
  perform t a _ s := some (performAction t a s)
  start t call s := some (startCall gauge t s call)
  env us s := some { s with clock := s.clock + us }

/-- A new breaker, and nothing called yet. -/
def initialConfig : Config ℕ Action Action.Result Shared where
  shared :=
    { breaker := .initial
      clock := 0
      lastOpened := none
      startedAfter := fun _ => none
      opening := fun _ => false
      allowed := [] }
  thread := fun _ => .done ()

/-! ## A call alone -/

/-- A thread runs its program without a step of another one. -/
def alone (t : ℕ) {α : Type} : Prog α → Shared → α × Shared
  | .done x, s => (x, s)
  | .act a next, s => alone t (next (performAction t a s).1) (performAction t a s).2

section Alone

variable {t : ℕ}

theorem alone_transitionToOpen (gauge : Bool) (s : Shared) :
    (alone t (transitionToOpen gauge) s).2.breaker = s.breaker.transitionToOpen s.clock := by
  cases gauge with
  | false => rfl
  | true => rfl

theorem alone_loadState (next : BreakerState → Prog Unit) (s : Shared) :
    alone t (act .loadState >>= next) s = alone t (next s.breaker.state) s := rfl

theorem alone_loadClock (next : ℕ → Prog Unit) (s : Shared) :
    alone t (act .loadClock >>= next) s = alone t (next s.clock) s := rfl

theorem alone_loadLastFailure (next : ℕ → Prog Unit) (s : Shared) :
    alone t (act .loadLastFailure >>= next) s = alone t (next s.breaker.lastFailureTimeUs) s := rfl

theorem alone_checkTimeout (gauge : Bool) (elapsedUs : ℕ) (s : Shared) :
    (alone t (checkTimeout gauge elapsedUs) s).2.breaker =
      if openTimeoutUs ≤ elapsedUs then { s.breaker with state := .halfOpen, successCount := 0 }
      else s.breaker := by
  unfold checkTimeout
  split
  · cases gauge <;> rfl
  · rfl

/-- **Alone, the methods are those of `CircuitBreaker`.** -/
theorem alone_allowRequest (gauge : Bool) (s : Shared) :
    (alone t (allowRequest gauge) s).2.breaker = (s.breaker.allowRequest s.clock).2 := by
  rw [allowRequest, alone_loadState, CircuitBreaker.allowRequest]
  cases s.breaker.state with
  | closed => rfl
  | halfOpen => rfl
  | opened =>
    have helapsed : s.breaker.elapsedUs s.clock = elapsed s.clock s.breaker.lastFailureTimeUs := by
      rw [elapsedUs, elapsed]
    simp only
    rw [alone_loadClock, alone_loadLastFailure, alone_checkTimeout, helapsed]
    by_cases hlate : openTimeoutUs ≤ elapsed s.clock s.breaker.lastFailureTimeUs
    · rw [if_pos hlate, if_pos hlate]
    · rw [if_neg hlate, if_neg hlate]

theorem alone_recordSuccess (gauge : Bool) (s : Shared) :
    (alone t (recordSuccess gauge) s).2.breaker = s.breaker.recordSuccess := by
  obtain ⟨⟨state, failures, successes, last⟩, clock, lastOpened, startedAfter, opening,
    allowed⟩ := s
  cases state with
  | closed => rfl
  | opened => rfl
  | halfOpen =>
    show (alone t (checkSuccesses gauge (successes + 1)) _).2.breaker = _
    rw [CircuitBreaker.recordSuccess, checkSuccesses]
    simp only
    split
    · cases gauge <;> rfl
    · rfl

theorem alone_recordFailure (gauge : Bool) (s : Shared) :
    (alone t (recordFailure gauge) s).2.breaker = s.breaker.recordFailure s.clock := by
  obtain ⟨⟨state, failures, successes, last⟩, clock, lastOpened, startedAfter, opening,
    allowed⟩ := s
  cases state with
  | opened => rfl
  | halfOpen => exact alone_transitionToOpen gauge _
  | closed =>
    show (alone t (checkFailures gauge (failures + 1)) _).2.breaker = _
    rw [CircuitBreaker.recordFailure, checkFailures]
    simp only
    split
    · exact alone_transitionToOpen gauge _
    · rfl

end Alone

/-! ## The window -/

/-- **The window of ten seconds.**  After a completed `transition_to_open` the state is not
CLOSED, and no request that asks after it is let through. -/
structure OpenWindow (s : Shared) : Prop where
  state : ∀ x, s.lastOpened = some x → s.clock < x + openTimeoutUs → s.breaker.state ≠ .closed
  allowed : ∀ p ∈ s.allowed, ∀ x, p.1 = some x → x + openTimeoutUs ≤ p.2

/-- **What a thread stores is not stale**: CLOSED is stored while the breaker is half-open;
HALF_OPEN is stored while no other thread is about to finish `transition_to_open`, and not
within ten seconds after one has. -/
structure Fresh (a : Action) (s : Shared) : Prop where
  closed : a = .storeState .closed → s.breaker.state = .halfOpen
  halfOpen : a = .storeState .halfOpen → (∀ u, s.opening u = false) ∧
    ∀ x, s.lastOpened = some x → x + openTimeoutUs ≤ s.clock

/-- While a thread finishes `transition_to_open`, and for ten seconds afterwards, the breaker
is open. -/
structure BreakerInv (s : Shared) : Prop where
  opening : ∀ u, s.opening u = true → s.breaker.state = .opened
  window : ∀ x, s.lastOpened = some x → s.clock < x + openTimeoutUs → s.breaker.state = .opened
  past : ∀ x, s.lastOpened = some x → x ≤ s.clock
  allowed : ∀ p ∈ s.allowed, ∀ x, p.1 = some x → x + openTimeoutUs ≤ p.2

theorem BreakerInv.openWindow {s : Shared} (h : BreakerInv s) : OpenWindow s := by
  refine ⟨fun x hx hclock hclosed => ?_, h.allowed⟩
  have hopened := h.window x hx hclock
  rw [hclosed] at hopened
  cases hopened

/-- What the other threads leave to a thread: its own marks; the time and the last opening
only move on. -/
structure BreakerRely (t : ℕ) (s s' : Shared) : Prop where
  startedAfter : s'.startedAfter t = s.startedAfter t
  opening : s'.opening t = s.opening t
  clock : s.clock ≤ s'.clock
  lastOpened : ∀ x, s.lastOpened = some x → ∃ y, s'.lastOpened = some y ∧ x ≤ y

/-- **What the threads keep.** -/
def contract : Contract ℕ Action Shared ℕ where
  inv := BreakerInv
  rely := BreakerRely
  check _ _ _ := True
  idle _ _ := True
  condition _ _ a s := Fresh a s
  envCondition _ _ := True

/-- `allow_request` has begun, after the last opening or before it. -/
def Begun (t : ℕ) (s : Shared) : Prop :=
  ∀ x, s.startedAfter t = some x → ∃ y, s.lastOpened = some y ∧ x ≤ y

/-- Ten seconds have passed since the opening before the begin. -/
def Late (t : ℕ) (s : Shared) : Prop := ∀ x, s.startedAfter t = some x → x + openTimeoutUs ≤ s.clock

/-- What `allow_request` knows from the state that it has loaded. -/
def Seen (t : ℕ) : BreakerState → Shared → Prop
  | .opened => Begun t
  | .closed => Late t
  | .halfOpen => Late t

section Rules

variable {gauge : Bool} {t : ℕ}

theorem stable_true : contract.Stable t fun _ => True := fun _ _ _ _ => trivial

theorem stable_begun : contract.Stable t (Begun t) := by
  intro s s' hs hrely x hx
  rw [hrely.startedAfter] at hx
  obtain ⟨y, hy, hxy⟩ := hs x hx
  obtain ⟨z, hz, hyz⟩ := hrely.lastOpened y hy
  exact ⟨z, hz, Nat.le_trans hxy hyz⟩

theorem stable_late : contract.Stable t (Late t) := by
  intro s s' hs hrely x hx
  rw [hrely.startedAfter] at hx
  exact Nat.le_trans (hs x hx) hrely.clock

theorem stable_opening : contract.Stable t fun s => s.opening t = true := by
  intro s s' hs hrely
  exact hrely.opening.trans hs

theorem rely_refl {u : ℕ} {s : Shared} (b : CircuitBreaker) :
    BreakerRely u s { s with breaker := b } :=
  ⟨rfl, rfl, Nat.le_refl _, fun x hx => ⟨x, hx, Nat.le_refl _⟩⟩

/-- A breaker that has just opened leaves the window, and so does one that keeps its state. -/
theorem BreakerInv.setBreaker {s : Shared} (h : BreakerInv s) {b : CircuitBreaker}
    (hb : b.state = s.breaker.state) : BreakerInv { s with breaker := b } :=
  ⟨fun u hu => hb.trans (h.opening u hu), fun x hx hclock => hb.trans (h.window x hx hclock),
    h.past, h.allowed⟩

/-- The actions on one state. -/
theorem rule_of {P : Shared → Prop} {a : Action} {Q : a.Result → Shared → Prop}
    (hstable : ∀ r, contract.Stable t (Q r))
    (hkeeps : ∀ s, BreakerInv s → P s → Fresh a s →
      BreakerInv (performAction t a s).2 ∧
        (∀ u, u ≠ t → BreakerRely u s (performAction t a s).2) ∧
          Q (performAction t a s).1 (performAction t a s).2) :
    ActionRule (breakerSystem gauge) contract t P a Q where
  check _ _ _ := trivial
  stable := hstable
  keeps _ s _ r s' hinv hs _ hfresh hperform := by
    obtain ⟨hinv', hrely, hQ⟩ := hkeeps s hinv hs hfresh
    obtain ⟨rfl, rfl⟩ := Prod.mk.inj (Option.some.inj hperform)
    exact ⟨hinv', hrely, hQ⟩

/-- The actions that leave `m_state`. -/
def Plain : Action → Prop
  | .loadState | .loadClock | .loadLastFailure | .storeLastFailure _ | .addSuccess
  | .storeSuccess _ | .addFailure | .storeFailure _ | .returned false => True
  | .storeState _ | .opened | .returned true => False

theorem rule_plain {P : Shared → Prop} {a : Action} (ha : Plain a) (hstable : contract.Stable t P)
    (hP : ∀ s b, P s → P { s with breaker := b }) :
    ActionRule (breakerSystem gauge) contract t P a fun _ => P := by
  refine rule_of (fun _ => hstable) fun s hinv hs _ => ?_
  have hbreaker : (performAction t a s).2.breaker.state = s.breaker.state ∧
      (performAction t a s).2 = { s with breaker := (performAction t a s).2.breaker } := by
    cases a with
    | storeState state => exact ha.elim
    | opened => exact ha.elim
    | returned allowed =>
      cases allowed with
      | true => exact ha.elim
      | false => exact ⟨rfl, rfl⟩
    | _ => exact ⟨rfl, rfl⟩
  rw [hbreaker.2]
  exact ⟨hinv.setBreaker hbreaker.1, fun u _ => rely_refl _, hP s _ hs⟩

theorem stable_seen (state : BreakerState) : contract.Stable t (Seen t state) := by
  cases state with
  | opened => exact stable_begun
  | closed => exact stable_late
  | halfOpen => exact stable_late

/-- The load of `allow_request`: a breaker that is not open has its window behind it. -/
theorem rule_load_begun :
    ActionRule (breakerSystem gauge) contract t (Begun t) .loadState (Seen t) := by
  refine rule_of stable_seen fun s hinv hs _ => ⟨hinv, fun u _ => rely_refl s.breaker, ?_⟩
  have hlate (hstate : s.breaker.state ≠ .opened) : Late t s := by
    intro x hx
    obtain ⟨y, hy, hxy⟩ := hs x hx
    by_contra hearly
    exact hstate (hinv.window y hy (by omega))
  show Seen t s.breaker.state s
  cases hstate : s.breaker.state with
  | opened => exact hs
  | closed => exact hlate (by rw [hstate]; nofun)
  | halfOpen => exact hlate (by rw [hstate]; nofun)

/-- HALF_OPEN is stored outside every window. -/
theorem rule_halfOpen :
    ActionRule (breakerSystem gauge) contract t (Begun t) (.storeState .halfOpen)
      fun _ => Late t := by
  refine rule_of (fun _ => stable_late) fun s hinv hs hfresh => ?_
  obtain ⟨hopening, hpast⟩ := hfresh.halfOpen rfl
  refine ⟨⟨fun u hu => ?_, fun x hx hclock => ?_, hinv.past, hinv.allowed⟩,
    fun u _ => ⟨rfl, rfl, Nat.le_refl _, fun x hx => ⟨x, hx, Nat.le_refl _⟩⟩, fun x hx => ?_⟩
  · exact absurd ((hopening u).symm.trans hu) (by simp)
  · exact absurd (hpast x hx) (Nat.not_le.mpr hclock)
  · obtain ⟨y, hy, hxy⟩ := hs x hx
    have hlate := hpast y hy
    show x + openTimeoutUs ≤ s.clock
    omega

/-- CLOSED is stored on a half-open breaker, so outside every window as well. -/
theorem rule_closed :
    ActionRule (breakerSystem gauge) contract t (fun _ => True) (.storeState .closed)
      fun _ _ => True := by
  refine rule_of (fun _ => stable_true) fun s hinv _ hfresh => ?_
  have hstate := hfresh.closed rfl
  refine ⟨⟨fun u hu => ?_, fun x hx hclock => ?_, hinv.past, hinv.allowed⟩,
    fun u _ => ⟨rfl, rfl, Nat.le_refl _, fun x hx => ⟨x, hx, Nat.le_refl _⟩⟩, trivial⟩
  · have hopened := hinv.opening u hu
    rw [hstate] at hopened
    cases hopened
  · have hopened := hinv.window x hx hclock
    rw [hstate] at hopened
    cases hopened

/-- OPEN is stored. -/
theorem rule_open :
    ActionRule (breakerSystem gauge) contract t (fun _ => True) (.storeState .opened)
      fun _ s => s.opening t = true := by
  refine rule_of (fun _ => stable_opening) fun s hinv _ _ => ?_
  refine ⟨⟨fun _ _ => rfl, fun _ _ _ => rfl, hinv.past, hinv.allowed⟩, fun u hu => ?_,
    by simp [performAction]⟩
  exact ⟨rfl, by simp [performAction, hu], Nat.le_refl _, fun x hx => ⟨x, hx, Nat.le_refl _⟩⟩

/-- The end of `transition_to_open`: the breaker is still open. -/
theorem rule_opened :
    ActionRule (breakerSystem gauge) contract t (fun s => s.opening t = true) .opened
      fun _ _ => True := by
  refine rule_of (fun _ => stable_true) fun s hinv hs _ => ?_
  have hopened := hinv.opening t hs
  refine ⟨⟨fun _ _ => hopened, fun _ _ _ => hopened, fun x hx => ?_, hinv.allowed⟩,
    fun u hu => ?_, trivial⟩
  · obtain rfl : s.clock = x := Option.some.inj hx
    exact Nat.le_refl _
  · exact ⟨rfl, by simp [performAction, hu], Nat.le_refl _,
      fun x hx => ⟨s.clock, rfl, hinv.past x hx⟩⟩

/-- A request is let through. -/
theorem rule_returned :
    ActionRule (breakerSystem gauge) contract t (Late t) (.returned true) fun _ _ => True := by
  refine rule_of (fun _ => stable_true) fun s hinv hs _ => ?_
  refine ⟨⟨hinv.opening, hinv.window, hinv.past, fun p hp x hx => ?_⟩,
    fun u _ => ⟨rfl, rfl, Nat.le_refl _, fun x hx => ⟨x, hx, Nat.le_refl _⟩⟩, trivial⟩
  rcases List.mem_cons.mp hp with rfl | hp
  · exact hs x hx
  · exact hinv.allowed p hp x hx

/-! ## The outlines of the methods -/

/-- Reading the state for the gauge keeps every place of a thread. -/
theorem outline_updateGauge {P : Shared → Prop} (hstable : contract.Stable t P)
    (hP : ∀ s b, P s → P { s with breaker := b }) :
    Outline (breakerSystem gauge) contract t P (updateGauge gauge) fun _ => P := by
  unfold updateGauge
  split
  · exact (Outline.perform (rule_plain (a := .loadState) trivial hstable hP)).bind
      fun _ => Outline.pure fun _ hs => hs
  · exact Outline.pure fun _ hs => hs

theorem outline_transitionToOpen :
    Outline (breakerSystem gauge) contract t (fun _ => True) (transitionToOpen gauge)
      fun _ _ => True := by
  refine (Outline.perform (rule_plain (a := .loadClock) trivial stable_true fun _ _ h => h)).bind
    fun now => ?_
  refine (Outline.perform (rule_plain (a := .storeLastFailure now) trivial stable_true
    fun _ _ h => h)).bind fun _ => ?_
  refine (Outline.perform rule_open).bind fun _ => ?_
  refine (Outline.perform (rule_plain (a := .storeSuccess 0) trivial stable_opening
    fun _ _ h => h)).bind fun _ => ?_
  refine (outline_updateGauge stable_opening fun _ _ h => h).bind fun _ => ?_
  exact Outline.perform rule_opened

theorem outline_checkTimeout (elapsedUs : ℕ) :
    Outline (breakerSystem gauge) contract t (Begun t) (checkTimeout gauge elapsedUs)
      fun _ _ => True := by
  unfold checkTimeout
  split
  · refine (Outline.perform rule_halfOpen).bind fun _ => ?_
    refine (Outline.perform (rule_plain (a := .storeSuccess 0) trivial stable_late
      fun _ _ h => h)).bind fun _ => ?_
    refine (outline_updateGauge stable_late fun _ _ h => h).bind fun _ => ?_
    exact Outline.perform rule_returned
  · exact (Outline.perform (rule_plain (a := .returned false) trivial stable_begun
      fun _ _ h => h)).mono_right fun _ _ _ => trivial

/-- **A request that is let through** has the last opening before its begin ten seconds behind
it. -/
theorem outline_allowRequest :
    Outline (breakerSystem gauge) contract t (Begun t) (allowRequest gauge) fun _ _ => True := by
  refine (Outline.perform rule_load_begun).bind fun state => ?_
  cases state with
  | closed => exact Outline.perform rule_returned
  | halfOpen => exact Outline.perform rule_returned
  | opened =>
    refine (Outline.perform (rule_plain (a := .loadClock) trivial stable_begun
      fun _ _ h => h)).bind fun now => ?_
    refine (Outline.perform (rule_plain (a := .loadLastFailure) trivial stable_begun
      fun _ _ h => h)).bind fun last => ?_
    exact outline_checkTimeout (elapsed now last)

theorem outline_checkSuccesses (count : ℕ) :
    Outline (breakerSystem gauge) contract t (fun _ => True) (checkSuccesses gauge count)
      fun _ _ => True := by
  unfold checkSuccesses
  split
  · refine (Outline.perform rule_closed).bind fun _ => ?_
    refine (Outline.perform (rule_plain (a := .storeFailure 0) trivial stable_true
      fun _ _ h => h)).bind fun _ => ?_
    refine (Outline.perform (rule_plain (a := .storeSuccess 0) trivial stable_true
      fun _ _ h => h)).bind fun _ => ?_
    exact outline_updateGauge stable_true fun _ _ h => h
  · exact Outline.pure fun _ hs => hs

theorem outline_recordSuccess :
    Outline (breakerSystem gauge) contract t (fun _ => True) (recordSuccess gauge)
      fun _ _ => True := by
  refine (Outline.perform (rule_plain (a := .loadState) trivial stable_true fun _ _ h => h)).bind
    fun state => ?_
  cases state with
  | halfOpen =>
    refine (Outline.perform (rule_plain (a := .addSuccess) trivial stable_true
      fun _ _ h => h)).bind fun count => ?_
    exact outline_checkSuccesses (count + 1)
  | closed =>
    exact Outline.perform (rule_plain (a := .storeFailure 0) trivial stable_true fun _ _ h => h)
  | opened => exact Outline.pure fun _ hs => hs

theorem outline_recordFailure :
    Outline (breakerSystem gauge) contract t (fun _ => True) (recordFailure gauge)
      fun _ _ => True := by
  refine (Outline.perform (rule_plain (a := .loadState) trivial stable_true fun _ _ h => h)).bind
    fun state => ?_
  cases state with
  | halfOpen => exact outline_transitionToOpen
  | closed =>
    refine (Outline.perform (rule_plain (a := .addFailure) trivial stable_true
      fun _ _ h => h)).bind fun count => ?_
    show Outline (breakerSystem gauge) contract t (fun _ => True)
      (checkFailures gauge (count + 1)) _
    unfold checkFailures
    split
    · exact outline_transitionToOpen
    · exact Outline.pure fun _ hs => hs
  | opened => exact Outline.pure fun _ hs => hs

end Rules

/-! ## Runs -/

/-- **The contract is kept** by the calls and by the clock. -/
theorem contract_kept (gauge : Bool) : contract.Kept (breakerSystem gauge) where
  idle_stable _ := stable_true
  start t call s p s' hinv _ hstart := by
    obtain ⟨rfl, rfl⟩ := Prod.mk.inj (Option.some.inj hstart)
    cases call with
    | allowRequest =>
      refine ⟨⟨hinv.opening, hinv.window, hinv.past, hinv.allowed⟩, fun u hu => ?_, Begun t,
        stable_begun, fun x hx => ?_, outline_allowRequest⟩
      · exact ⟨by simp [hu], rfl, Nat.le_refl _, fun x hx => ⟨x, hx, Nat.le_refl _⟩⟩
      · simp only [Function.update_self] at hx
        exact ⟨x, hx, Nat.le_refl _⟩
    | recordSuccess =>
      exact ⟨hinv, fun u _ => rely_refl s.breaker, _, stable_true, trivial, outline_recordSuccess⟩
    | recordFailure =>
      exact ⟨hinv, fun u _ => rely_refl s.breaker, _, stable_true, trivial, outline_recordFailure⟩
  env us s s' hinv _ henv := by
    obtain rfl := Option.some.inj henv
    refine ⟨⟨hinv.opening, fun x hx hclock => hinv.window x hx ?_, fun x hx => ?_, hinv.allowed⟩,
      fun u => ⟨rfl, rfl, Nat.le_add_right _ _, fun x hx => ⟨x, hx, Nat.le_refl _⟩⟩⟩
    · exact Nat.lt_of_le_of_lt (Nat.le_add_right _ _) hclock
    · exact Nat.le_trans (hinv.past x hx) (Nat.le_add_right _ _)

theorem good_initialConfig (gauge : Bool) : contract.Good (breakerSystem gauge) initialConfig where
  inv := ⟨nofun, nofun, nofun, nofun⟩
  outline _ := ⟨_, stable_true, trivial, fun _ _ => trivial⟩

/-- A call of a thread and its first actions, undisturbed. -/
def calling (t : ℕ) (call : Call) (actions : ℕ) : List (Event ℕ Unit Call ℕ) :=
  .start t call :: List.replicate actions (.act t ())

/-- Five failures in a row. -/
def fiveFailures : List (Event ℕ Unit Call ℕ) :=
  calling 0 .recordFailure 2 ++ calling 0 .recordFailure 2 ++ calling 0 .recordFailure 2 ++
    calling 0 .recordFailure 2 ++ calling 0 .recordFailure 7

/-- A step without a store of CLOSED or HALF_OPEN. -/
def storesNeither (c : Config ℕ Action Action.Result Shared) : Event ℕ Unit Call ℕ → Bool
  | .act t _ =>
    match c.heads t with
    | some (.storeState .closed) => false
    | some (.storeState .halfOpen) => false
    | _ => true
  | _ => true

theorem meets_of_storesNeither {c : Config ℕ Action Action.Result Shared}
    {e : Event ℕ Unit Call ℕ} (h : storesNeither c e = true) : contract.Meets c e := by
  cases e with
  | start t call => trivial
  | env us => trivial
  | act t choice =>
    intro a ha
    simp only [storesNeither, ha] at h
    constructor
    · rintro rfl
      cases h
    · rintro rfl
      cases h

/-- What the property is about. -/
def seen (c : Config ℕ Action Action.Result Shared) :
    Option ℕ × ℕ × BreakerState × List (Option ℕ × ℕ) :=
  (c.shared.lastOpened, c.shared.clock, c.shared.breaker.state, c.shared.allowed)

/-- The breaker is half-open after ten seconds.  The success of thread 1 is counted, then that
of thread 2, which is about to close the breaker; before it does, the failure of thread 3
opens it.  Thread 2 goes on, and thread 4 asks. -/
def staleSuccess : List (Event ℕ Unit Call ℕ) :=
  fiveFailures ++ .env 10000000 :: (calling 0 .allowRequest 6 ++ calling 1 .recordSuccess 2 ++
    calling 2 .recordSuccess 2 ++ calling 3 .recordFailure 6 ++ [.act 2 ()] ++
    calling 4 .allowRequest 2)

end BreakerRaces
end Worker
end HttpDataDiod
