import HttpDataDiod.Lib.Transition
import Mathlib.Logic.Function.Basic

/-!
# Threads that share a state

A program is a tree of atomic actions on a shared state, each continuing with the
result of its action.  Any number of threads run their programs interleaved, one
action at a time; an idle thread may start a further program, and the environment
may change the shared state between any two actions.

Safety is proved by a proof outline for every program: an assertion in front of
each action, which the actions of the other threads do not invalidate.

* `Program`, `System`, `step`: programs and their interleaved execution.
* `Contract`, `Outline`: what the threads keep, and the outline of one program.
* `Outline.bind`: outlines compose as programs do.
* `good_step`: one step keeps the invariant and every thread inside its outline,
  if the step meets the contract's condition; whole runs follow by
  `Transition.always_of_stepsMeet`.
-/

namespace Interleaving

/-! ## Programs -/

/-- A program over the actions `A`, where action `a` answers with an `R a`. -/
inductive Program (A : Type) (R : A → Type) (α : Type) where
  | done (result : α)
  | act (a : A) (next : R a → Program A R α)

namespace Program

variable {A : Type} {R : A → Type} {α β : Type}

/-- Run the first program, then the one its result selects. -/
def bind : Program A R α → (α → Program A R β) → Program A R β
  | done x, f => f x
  | act a next, f => act a fun r => (next r).bind f

instance : Monad (Program A R) where
  pure := done
  bind := bind

/-- The program of one action. -/
def perform (a : A) : Program A R (R a) := act a done

/-- The action a program performs next. -/
def head : Program A R α → Option A
  | done _ => none
  | act a _ => some a

@[simp] theorem head_done (x : α) : (done x : Program A R α).head = none := rfl

@[simp] theorem head_act (a : A) (next : R a → Program A R α) :
    (act a next).head = some a := rfl

end Program

/-! ## Systems of threads -/

/-- Threads `T` that perform actions `A` on a shared state `S`.  The environment
answers an action with a choice in `C`, an idle thread starts a call in `K`, and
`E` are the environment's own events. -/
structure System (T A : Type) (R : A → Type) (C S K E : Type) where
  /-- The result of an action and the state after it; `none` while it is blocked. -/
  perform : T → (a : A) → C → S → Option (R a × S)
  /-- The program of a call and the state in which it starts. -/
  start : T → K → S → Option (Program A R Unit × S)
  /-- An event of the environment. -/
  env : E → S → Option S

/-- The shared state and what each thread has left to do. -/
structure Config (T A : Type) (R : A → Type) (S : Type) where
  shared : S
  thread : T → Program A R Unit

/-- One event of a system. -/
inductive Event (T C K E : Type) where
  /-- An idle thread starts a call. -/
  | start (t : T) (call : K)
  /-- A thread performs its next action. -/
  | act (t : T) (choice : C)
  /-- An event of the environment. -/
  | env (e : E)

variable {T A : Type} {R : A → Type} {C S K E : Type}

/-- The next actions of all threads. -/
def Config.heads (c : Config T A R S) (t : T) : Option A := (c.thread t).head

/-- One step of the interleaved execution. -/
def System.step [DecidableEq T] (sys : System T A R C S K E) (c : Config T A R S) :
    Event T C K E → Option (Config T A R S)
  | .start t call =>
    match c.thread t with
    | .done _ =>
      (sys.start t call c.shared).map fun ps => ⟨ps.2, Function.update c.thread t ps.1⟩
    | .act _ _ => none
  | .act t choice =>
    match c.thread t with
    | .done _ => none
    | .act a next =>
      (sys.perform t a choice c.shared).map fun rs =>
        ⟨rs.2, Function.update c.thread t (next rs.1)⟩
  | .env e => (sys.env e c.shared).map fun s => ⟨s, c.thread⟩

/-- What a step of the execution does, by the kind of its event. -/
theorem System.step_cases [DecidableEq T] {sys : System T A R C S K E}
    {c c' : Config T A R S} {e : Event T C K E} (h : sys.step c e = some c') :
    (∃ t call p s, e = .start t call ∧ c.heads t = none ∧
      sys.start t call c.shared = some (p, s) ∧ c' = ⟨s, Function.update c.thread t p⟩) ∨
    (∃ t choice a next r s, e = .act t choice ∧ c.thread t = .act a next ∧
      sys.perform t a choice c.shared = some (r, s) ∧
      c' = ⟨s, Function.update c.thread t (next r)⟩) ∨
    (∃ ev s, e = .env ev ∧ sys.env ev c.shared = some s ∧ c' = ⟨s, c.thread⟩) := by
  cases e with
  | start t call =>
    cases ht : c.thread t with
    | act a next => simp [step, ht] at h
    | done u =>
      simp only [step, ht, Option.map_eq_some_iff] at h
      obtain ⟨⟨p, s⟩, hps, rfl⟩ := h
      exact .inl ⟨t, call, p, s, rfl, by rw [Config.heads, ht]; rfl, hps, rfl⟩
  | act t choice =>
    cases ht : c.thread t with
    | done u => simp [step, ht] at h
    | act a next =>
      simp only [step, ht, Option.map_eq_some_iff] at h
      obtain ⟨⟨r, s⟩, hrs, rfl⟩ := h
      exact .inr (.inl ⟨t, choice, a, next, r, s, rfl, ht, hrs, rfl⟩)
  | env ev =>
    simp only [step, Option.map_eq_some_iff] at h
    obtain ⟨s, hs, rfl⟩ := h
    exact .inr (.inr ⟨ev, s, rfl, hs, rfl⟩)

/-! ## Contracts and outlines -/

/-- What the threads of a system keep. -/
structure Contract (T A S E : Type) where
  /-- Holds in every state. -/
  inv : S → Prop
  /-- What the others may do to the state, seen from one thread. -/
  rely : T → S → S → Prop
  /-- What holds whenever a thread stands in front of an action. -/
  check : T → A → S → Prop
  /-- What holds of a thread between two calls. -/
  idle : T → S → Prop
  /-- The condition on an action, which may look at all threads' next actions. -/
  condition : (T → Option A) → T → A → S → Prop
  /-- The condition on an event of the environment. -/
  envCondition : E → S → Prop

variable (sys : System T A R C S K E) (D : Contract T A S E)

/-- The other threads do not invalidate the assertion. -/
def Contract.Stable (t : T) (P : S → Prop) : Prop :=
  ∀ s s', P s → D.rely t s s' → P s'

/-- From `P`, the action may be performed, keeps the contract and leads to `Q`. -/
structure ActionRule (t : T) (P : S → Prop) (a : A) (Q : R a → S → Prop) : Prop where
  check : ∀ s, D.inv s → P s → D.check t a s
  stable : ∀ r, D.Stable t (Q r)
  keeps : ∀ heads s choice r s', D.inv s → P s →
    (∀ u b, heads u = some b → D.check u b s) → D.condition heads t a s →
    sys.perform t a choice s = some (r, s') →
    D.inv s' ∧ (∀ u, u ≠ t → D.rely u s s') ∧ Q r s'

/-- **A proof outline** of a program: from `P`, every action obeys an action rule,
and the program ends in `Q`. -/
def Outline (t : T) {α : Type} : (S → Prop) → Program A R α → (α → S → Prop) → Prop
  | P, .done x, Q => ∀ s, P s → Q x s
  | P, .act a next, Q =>
    ∃ P' : R a → S → Prop, ActionRule sys D t P a P' ∧ ∀ r, Outline t (P' r) (next r) Q

variable {sys D} {t : T} {α β : Type} {P P' : S → Prop}

theorem ActionRule.mono_left {a : A} {Q : R a → S → Prop} (h : ActionRule sys D t P a Q)
    (hP : ∀ s, P' s → P s) : ActionRule sys D t P' a Q where
  check s hinv hs := h.check s hinv (hP s hs)
  stable := h.stable
  keeps heads s choice r s' hinv hs := h.keeps heads s choice r s' hinv (hP s hs)

theorem Outline.mono_left {p : Program A R α} {Q : α → S → Prop} (h : Outline sys D t P p Q)
    (hP : ∀ s, P' s → P s) : Outline sys D t P' p Q := by
  cases p with
  | done x => exact fun s hs => h s (hP s hs)
  | act a next =>
    obtain ⟨P₁, hrule, hnext⟩ := h
    exact ⟨P₁, hrule.mono_left hP, hnext⟩

theorem Outline.mono_right {p : Program A R α} {Q Q' : α → S → Prop}
    (h : Outline sys D t P p Q) (hQ : ∀ x s, Q x s → Q' x s) : Outline sys D t P p Q' := by
  induction p generalizing P with
  | done x => exact fun s hs => hQ x s (h s hs)
  | act a next ih =>
    obtain ⟨P₁, hrule, hnext⟩ := h
    exact ⟨P₁, hrule, fun r => ih r (hnext r)⟩

theorem Outline.pure {x : α} {Q : α → S → Prop} (h : ∀ s, P s → Q x s) :
    Outline sys D t P (Pure.pure x : Program A R α) Q := h

/-- **Outlines compose as programs do.** -/
theorem Outline.bind {p : Program A R α} {f : α → Program A R β} {Q : α → S → Prop}
    {Q' : β → S → Prop} (hp : Outline sys D t P p Q)
    (hf : ∀ x, Outline sys D t (Q x) (f x) Q') : Outline sys D t P (p >>= f) Q' := by
  change Outline sys D t P (p.bind f) Q'
  induction p generalizing P with
  | done x => exact (hf x).mono_left hp
  | act a next ih =>
    obtain ⟨P₁, hrule, hnext⟩ := hp
    exact ⟨P₁, hrule, fun r => ih r (hnext r)⟩

theorem Outline.perform {a : A} {Q : R a → S → Prop} (h : ActionRule sys D t P a Q) :
    Outline sys D t P (Program.perform a) Q :=
  ⟨Q, h, fun _ _ hs => hs⟩

/-! ## Runs -/

variable (sys D)

/-- What a contract asks of the system besides the outlines of its actions. -/
structure Contract.Kept : Prop where
  idle_stable : ∀ t, D.Stable t (D.idle t)
  start : ∀ t call s p s', D.inv s → D.idle t s → sys.start t call s = some (p, s') →
    D.inv s' ∧ (∀ u, u ≠ t → D.rely u s s') ∧
      ∃ P, D.Stable t P ∧ P s' ∧ Outline sys D t P p fun _ => D.idle t
  env : ∀ e s s', D.inv s → D.envCondition e s → sys.env e s = some s' →
    D.inv s' ∧ ∀ u, D.rely u s s'

/-- The invariant holds and every thread stands inside its outline. -/
structure Contract.Good (c : Config T A R S) : Prop where
  inv : D.inv c.shared
  outline : ∀ t, ∃ P, D.Stable t P ∧ P c.shared ∧
    Outline sys D t P (c.thread t) fun _ => D.idle t

/-- The step meets the contract's conditions. -/
def Contract.Meets (c : Config T A R S) : Event T C K E → Prop
  | .start _ _ => True
  | .act t _ => ∀ a, c.heads t = some a → D.condition c.heads t a c.shared
  | .env e => D.envCondition e c.shared

variable {sys D} {c c' : Config T A R S}

/-- What the contract checks in front of an action holds. -/
theorem Contract.Good.check (h : D.Good sys c) {a : A} (ht : c.heads t = some a) :
    D.check t a c.shared := by
  obtain ⟨P, -, hP, houtline⟩ := h.outline t
  cases hthread : c.thread t with
  | done u => simp [Config.heads, hthread] at ht
  | act b next =>
    rw [hthread] at houtline
    obtain ⟨P', hrule, -⟩ := houtline
    obtain rfl : b = a := by simpa [Config.heads, hthread] using ht
    exact hrule.check _ h.inv hP

/-- A thread with nothing left to do is idle. -/
theorem Contract.Good.idle (h : D.Good sys c) (ht : c.heads t = none) :
    D.idle t c.shared := by
  obtain ⟨P, -, hP, houtline⟩ := h.outline t
  cases hthread : c.thread t with
  | done u =>
    rw [hthread] at houtline
    exact houtline _ hP
  | act b next => simp [Config.heads, hthread] at ht

/-- A thread that does not move keeps its place in its outline. -/
theorem Contract.Good.outline_of_rely (h : D.Good sys c) {s' : S} (hrely : D.rely t c.shared s') :
    ∃ P, D.Stable t P ∧ P s' ∧ Outline sys D t P (c.thread t) fun _ => D.idle t := by
  obtain ⟨P, hstable, hP, houtline⟩ := h.outline t
  exact ⟨P, hstable, hstable _ _ hP hrely, houtline⟩

/-- The threads after one of them has moved. -/
theorem Contract.Good.outline_update [DecidableEq T] (h : D.Good sys c)
    {s' : S} {p : Program A R Unit}
    (hrely : ∀ u, u ≠ t → D.rely u c.shared s')
    (hp : ∃ P, D.Stable t P ∧ P s' ∧ Outline sys D t P p fun _ => D.idle t) (u : T) :
    ∃ P, D.Stable u P ∧ P s' ∧
      Outline sys D u P (Function.update c.thread t p u) fun _ => D.idle u := by
  by_cases hut : u = t
  · subst hut
    rw [Function.update_self]
    exact hp
  · rw [Function.update_of_ne hut]
    exact h.outline_of_rely (hrely u hut)

/-- **The step rule.**  A step that meets the contract's conditions keeps the
invariant and leaves every thread inside its outline. -/
theorem Contract.good_step [DecidableEq T] (hkept : D.Kept sys) {e : Event T C K E}
    (h : D.Good sys c) (hmeets : D.Meets c e) (hstep : sys.step c e = some c') : D.Good sys c' := by
  rcases System.step_cases hstep with
    ⟨t, call, p, s, rfl, hidle, hstart, rfl⟩ | ⟨t, choice, a, next, r, s, rfl, ht, hact, rfl⟩ |
    ⟨ev, s, rfl, henv, rfl⟩
  · obtain ⟨hinv, hrely, hp⟩ := hkept.start t call _ p s h.inv (h.idle hidle) hstart
    exact ⟨hinv, fun u => h.outline_update hrely hp u⟩
  · have hhead : c.heads t = some a := by rw [Config.heads, ht]; rfl
    obtain ⟨P, -, hP, houtline⟩ := h.outline t
    rw [ht] at houtline
    obtain ⟨P', hrule, hnext⟩ := houtline
    obtain ⟨hinv, hrely, hP'⟩ := hrule.keeps c.heads _ choice r s h.inv hP
      (fun u b hb => h.check hb) (hmeets a hhead) hact
    exact ⟨hinv, fun u => h.outline_update hrely ⟨P' r, hrule.stable r, hP', hnext r⟩ u⟩
  · obtain ⟨hinv, hrely⟩ := hkept.env ev _ s h.inv hmeets henv
    exact ⟨hinv, fun u => h.outline_of_rely (hrely u)⟩

end Interleaving
