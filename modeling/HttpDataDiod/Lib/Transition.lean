import Mathlib.Data.List.Basic

/-!
# Event systems and their runs

A system is a partial step function on states: an event either is not possible
in a state (`none`) or leads to the next state.  A run is a list of events.

* `run`: the state a list of events leads to.
* `StepsMeet`: every step of a run is taken in a state that meets a condition.
* `Always`: a property holds in every state of a run.
* `run_invariant`: what every step keeps holds after a run.
* `always_of_step`: and throughout the run.
* `always_of_stepsMeet`: what the steps that meet a condition keep holds
  throughout the runs all of whose steps meet it.
* `stepsMeet_of_stepsMeet`: and so do the properties of steps that follow from it.
* `stepsMeet_of_always`: the converse.
* `stepsCheck`: the decidable test of a condition along a concrete run.
-/

namespace Transition

variable {σ ε : Type*}

/-- The state after a list of events, if each of them is possible in its turn. -/
def run (step : σ → ε → Option σ) : σ → List ε → Option σ
  | s, [] => some s
  | s, e :: es => (step s e).bind fun s' => run step s' es

/-- Along the run every event is met by the condition, in the state it happens in. -/
def StepsMeet (step : σ → ε → Option σ) (condition : σ → ε → Prop) : σ → List ε → Prop
  | _, [] => True
  | s, e :: es => condition s e ∧ ∀ s', step s e = some s' → StepsMeet step condition s' es

/-- The property holds before the first event and after each one. -/
def Always (step : σ → ε → Option σ) (P : σ → Prop) : σ → List ε → Prop
  | s, [] => P s
  | s, e :: es => P s ∧ ∀ s', step s e = some s' → Always step P s' es

variable {step : σ → ε → Option σ}

@[simp] theorem run_nil (s : σ) : run step s [] = some s := rfl

theorem run_cons (s : σ) (e : ε) (es : List ε) :
    run step s (e :: es) = (step s e).bind fun s' => run step s' es := rfl

theorem run_cons_of_step {s s' : σ} {e : ε} (h : step s e = some s') (es : List ε) :
    run step s (e :: es) = run step s' es := by
  rw [run_cons, h]
  rfl

theorem run_append (s : σ) (es₁ es₂ : List ε) :
    run step s (es₁ ++ es₂) = (run step s es₁).bind fun t => run step t es₂ := by
  induction es₁ generalizing s with
  | nil => rfl
  | cons e es₁ ih =>
    rw [List.cons_append, run_cons, run_cons, Option.bind_assoc]
    exact Option.bind_congr fun s' _ => ih s'

theorem stepsMeet_cons_of_step {condition : σ → ε → Prop} {s s' : σ} {e : ε} {es : List ε}
    (hcondition : condition s e) (h : step s e = some s')
    (hrest : StepsMeet step condition s' es) : StepsMeet step condition s (e :: es) := by
  refine ⟨hcondition, fun t ht => ?_⟩
  obtain rfl : s' = t := Option.some.inj (h.symm.trans ht)
  exact hrest

/-- What holds in every state of a run holds in its first. -/
theorem Always.head {P : σ → Prop} {s : σ} {es : List ε} (h : Always step P s es) : P s := by
  cases es with
  | nil => exact h
  | cons e es => exact h.1

theorem always_cons_of_step {P : σ → Prop} {s s' : σ} {e : ε} (h : step s e = some s')
    (es : List ε) : Always step P s (e :: es) ↔ P s ∧ Always step P s' es := by
  constructor
  · intro hall
    exact ⟨hall.1, hall.2 s' h⟩
  · rintro ⟨hs, hall⟩
    refine ⟨hs, fun t ht => ?_⟩
    obtain rfl : s' = t := Option.some.inj (h.symm.trans ht)
    exact hall

/-- `Always` speaks of every state a beginning of the run leads to. -/
theorem always_iff {P : σ → Prop} {s : σ} {es : List ε} :
    Always step P s es ↔
      ∀ es₁ es₂ t, es = es₁ ++ es₂ → run step s es₁ = some t → P t := by
  induction es generalizing s with
  | nil =>
    constructor
    · intro h es₁ es₂ t hes hrun
      obtain ⟨rfl, -⟩ := List.append_eq_nil_iff.mp hes.symm
      obtain rfl : s = t := Option.some.inj hrun
      exact h
    · intro h
      exact h [] [] s rfl rfl
  | cons e es ih =>
    constructor
    · intro h es₁ es₂ t hes hrun
      cases es₁ with
      | nil =>
        obtain rfl : s = t := Option.some.inj hrun
        exact h.1
      | cons e' es₁ =>
        obtain ⟨rfl, rfl⟩ := List.cons.inj hes
        obtain ⟨s', hs', hrest⟩ := Option.bind_eq_some_iff.mp hrun
        exact ih.mp (h.2 s' hs') es₁ es₂ t rfl hrest
    · intro h
      refine ⟨h [] (e :: es) s rfl rfl, fun s' hs' => ih.mpr fun es₁ es₂ t hes hrun => ?_⟩
      exact h (e :: es₁) es₂ t (by rw [hes]; rfl) (by rw [run_cons_of_step hs', hrun])

/-- **The invariant rule, with a condition on the steps.**  What every step that
meets the condition keeps, and what follows from it, holds in every state of a
run whose steps meet the condition. -/
theorem always_of_stepsMeet {condition : σ → ε → Prop} {P Q : σ → Prop}
    (hstep : ∀ s e s', P s → condition s e → step s e = some s' → P s') (hPQ : ∀ s, P s → Q s)
    {s : σ} {es : List ε} (hs : P s) (hmeet : StepsMeet step condition s es) :
    Always step Q s es := by
  induction es generalizing s with
  | nil => exact hPQ s hs
  | cons e es ih =>
    exact ⟨hPQ s hs, fun s' hs' => ih (hstep s e s' hs hmeet.1 hs') (hmeet.2 s' hs')⟩

/-- **The invariant rule for whole runs.**  What every step keeps, and what follows from it,
holds in every state of a run. -/
theorem always_of_step {P Q : σ → Prop}
    (hstep : ∀ s e s', P s → step s e = some s' → P s') (hPQ : ∀ s, P s → Q s)
    {s : σ} (hs : P s) (es : List ε) : Always step Q s es := by
  induction es generalizing s with
  | nil => exact hPQ s hs
  | cons e es ih => exact ⟨hPQ s hs, fun s' hs' => ih (hstep s e s' hs hs')⟩

/-- **The step rule, with a condition on the steps.**  If the steps that meet the
condition keep an invariant and have a property where it holds, then all steps of
a run that meet the condition have the property. -/
theorem stepsMeet_of_stepsMeet {condition good : σ → ε → Prop} {P : σ → Prop}
    (hstep : ∀ s e s', P s → condition s e → step s e = some s' → P s')
    (hgood : ∀ s e, P s → condition s e → good s e) {s : σ} {es : List ε} (hs : P s)
    (hmeet : StepsMeet step condition s es) : StepsMeet step good s es := by
  induction es generalizing s with
  | nil => trivial
  | cons e es ih =>
    exact ⟨hgood s e hs hmeet.1, fun s' hs' => ih (hstep s e s' hs hmeet.1 hs') (hmeet.2 s' hs')⟩

/-- **The converse rule.**  If the steps that meet the condition keep an invariant, and a step
into a state with the property has met it, then the runs that have the property throughout
meet the condition throughout. -/
theorem stepsMeet_of_always {condition : σ → ε → Prop} {P Q : σ → Prop}
    (hstep : ∀ s e s', P s → condition s e → step s e = some s' → P s')
    (hmet : ∀ s e s', P s → step s e = some s' → Q s' → condition s e)
    (hnone : ∀ s e, step s e = none → condition s e) {s : σ} {es : List ε} (hs : P s)
    (hall : Always step Q s es) : StepsMeet step condition s es := by
  induction es generalizing s with
  | nil => trivial
  | cons e es ih =>
    have hcondition : condition s e := by
      cases h : step s e with
      | none => exact hnone s e h
      | some s' => exact hmet s e s' hs h (hall.2 s' h).head
    exact ⟨hcondition, fun s' hs' => ih (hstep s e s' hs hcondition hs') (hall.2 s' hs')⟩

/-- In a run whose steps meet a condition, the step behind any beginning meets it. -/
theorem StepsMeet.of_run {condition : σ → ε → Prop} {s t : σ} {es₁ es₂ : List ε} {e : ε}
    (h : StepsMeet step condition s (es₁ ++ e :: es₂)) (hrun : run step s es₁ = some t) :
    condition t e := by
  induction es₁ generalizing s with
  | nil =>
    obtain rfl : s = t := Option.some.inj hrun
    exact h.1
  | cons e' es₁ ih =>
    obtain ⟨s', hs', hrest⟩ := Option.bind_eq_some_iff.mp hrun
    exact ih (h.2 s' hs') hrest

/-- Testing every step of a run. -/
def stepsCheck (step : σ → ε → Option σ) (test : σ → ε → Bool) : σ → List ε → Bool
  | _, [] => true
  | s, e :: es => test s e && (step s e).all fun s' => stepsCheck step test s' es

theorem stepsMeet_of_stepsCheck {condition : σ → ε → Prop} {test : σ → ε → Bool}
    (htest : ∀ s e, test s e = true → condition s e) {s : σ} {es : List ε}
    (h : stepsCheck step test s es = true) : StepsMeet step condition s es := by
  induction es generalizing s with
  | nil => trivial
  | cons e es ih =>
    obtain ⟨hhead, hrest⟩ := Bool.and_eq_true_iff.mp h
    refine ⟨htest s e hhead, fun s' hs' => ih ?_⟩
    rw [hs'] at hrest
    exact hrest

/-- **The invariant rule.** -/
theorem run_invariant {P : σ → Prop} (hstep : ∀ s e s', P s → step s e = some s' → P s')
    {s s' : σ} {es : List ε} (hs : P s) (hrun : run step s es = some s') : P s' := by
  induction es generalizing s with
  | nil =>
    obtain rfl : s = s' := Option.some.inj hrun
    exact hs
  | cons e es ih =>
    obtain ⟨t, ht, hrest⟩ := Option.bind_eq_some_iff.mp hrun
    exact ih (hstep s e t hs ht) hrest

/-! ## Calls in progress -/

/-- Of a list of calls, one moves on. -/
theorem countP_set {α : Type*} (p : α → Bool) {l : List α} {i : ℕ} {a : α} (h : l[i]? = some a)
    (b : α) : (l.set i b).countP p + (p a).toNat = l.countP p + (p b).toNat := by
  induction l generalizing i with
  | nil => cases h
  | cons c l ih =>
    cases i with
    | zero =>
      obtain rfl : c = a := Option.some.inj h
      rw [List.set_cons_zero, List.countP_cons, List.countP_cons]
      cases p c <;> cases p b <;> simp
    | succ i =>
      have hrest := ih h
      rw [List.set_cons_succ, List.countP_cons, List.countP_cons]
      omega

end Transition
