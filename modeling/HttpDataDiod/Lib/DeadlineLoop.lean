import Mathlib.Data.List.Basic

/-!
# Loops that run until a deadline

A loop reads the clock, and while the deadline is ahead it takes a turn.  A turn leaves effects
and either goes on, in a state whose clock is later by some least time, or ends the loop.  The
least time is what makes such a loop end in every environment.

* `Loop`: the clock, the turns and the least time.
* `Loop.run`: the effects of the turns, turn by turn, and how the loop ended.
* `Loop.run_induction`: what holds of a run, by its turns.
* `Loop.length_run_mul_least_le`: there are no more turns than the least time leaves room for.
* `Loop.forall_mem_run`: what every turn keeps, its effects and the loop's end have.
-/

namespace DeadlineLoop

variable {σ ε ρ : Type*}

/-- A loop: a turn in a state leaves effects and goes on (`inl`) or ends the loop (`inr`). -/
structure Loop (σ ε ρ : Type*) where
  clock : σ → ℕ
  turn : σ → List ε × (σ ⊕ ρ)
  least : ℕ
  least_pos : 0 < least
  /-- A turn that goes on takes the least time. -/
  clock_turn : ∀ s es s', turn s = (es, .inl s') → clock s + least ≤ clock s'

namespace Loop

variable (L : Loop σ ε ρ)

/-- The effects of each turn up to the deadline, and the state at the deadline or the result of
the turn that ended the loop. -/
def run (deadline : ℕ) (s : σ) : List (List ε) × (σ ⊕ ρ) :=
  if hbefore : L.clock s < deadline then
    match h : L.turn s with
    | (es, .inl s') =>
      have : deadline - L.clock s' < deadline - L.clock s := by
        have hclock := L.clock_turn s es s' h
        have hleast := L.least_pos
        omega
      let rest := run deadline s'
      (es :: rest.1, rest.2)
    | (es, .inr r) => ([es], .inr r)
  else ([], .inl s)
termination_by deadline - L.clock s

variable {L} {deadline : ℕ} {s s' : σ} {es : List ε} {r : ρ}

theorem run_of_le (h : deadline ≤ L.clock s) : L.run deadline s = ([], .inl s) := by
  rw [run, dif_neg (Nat.not_lt.mpr h)]

theorem run_of_inl (h : L.clock s < deadline) (hturn : L.turn s = (es, .inl s')) :
    L.run deadline s = (es :: (L.run deadline s').1, (L.run deadline s').2) := by
  rw [run, dif_pos h]
  split
  · rename_i es' t ht
    obtain ⟨rfl, ht'⟩ := Prod.mk.inj (hturn.symm.trans ht)
    obtain rfl := Sum.inl.inj ht'
    rfl
  · rename_i es' r ht
    cases (Prod.mk.inj (hturn.symm.trans ht)).2

theorem run_of_inr (h : L.clock s < deadline) (hturn : L.turn s = (es, .inr r)) :
    L.run deadline s = ([es], .inr r) := by
  rw [run, dif_pos h]
  split
  · rename_i es' t ht
    cases (Prod.mk.inj (hturn.symm.trans ht)).2
  · rename_i es' r' ht
    obtain ⟨rfl, hr⟩ := Prod.mk.inj (hturn.symm.trans ht)
    obtain rfl := Sum.inr.inj hr
    rfl

/-- **Induction on the turns.**  A property of the effects and the end of a run holds if it
holds at the deadline, of a turn that ends the loop, and before a turn when it holds after it. -/
theorem run_induction {P : σ → List (List ε) → σ ⊕ ρ → Prop}
    (atDeadline : ∀ s, deadline ≤ L.clock s → P s [] (.inl s))
    (ends : ∀ s es r, L.clock s < deadline → L.turn s = (es, .inr r) → P s [es] (.inr r))
    (goesOn : ∀ s es s', L.clock s < deadline → L.turn s = (es, .inl s') →
      P s' (L.run deadline s').1 (L.run deadline s').2 →
      P s (es :: (L.run deadline s').1) (L.run deadline s').2) (s : σ) :
    P s (L.run deadline s).1 (L.run deadline s).2 := by
  rcases Nat.lt_or_ge (L.clock s) deadline with h | h
  · cases hturn : L.turn s with
    | mk es next =>
      cases next with
      | inl s' =>
        have hclock := L.clock_turn s es s' hturn
        have hleast := L.least_pos
        rw [run_of_inl h hturn]
        exact goesOn s es s' h hturn (run_induction atDeadline ends goesOn s')
      | inr r =>
        rw [run_of_inr h hturn]
        exact ends s es r h hturn
  · rw [run_of_le h]
    exact atDeadline s h
termination_by deadline - L.clock s

variable (L) (deadline)

/-- There are no more turns than the least time leaves room for: all but the last have taken it
before the deadline. -/
theorem length_run_mul_least_le (s : σ) :
    (L.run deadline s).1.length * L.least ≤ deadline - L.clock s + (L.least - 1) := by
  have hleast := L.least_pos
  refine run_induction (P := fun s ess _ =>
    ess.length * L.least ≤ deadline - L.clock s + (L.least - 1)) ?_ ?_ ?_ s
  · intro s _
    simp
  · intro s es r h _
    rw [List.length_singleton, Nat.one_mul]
    omega
  · intro s es s' h hturn ih
    have hclock := L.clock_turn s es s' hturn
    rw [List.length_cons, Nat.add_one_mul]
    -- A state past the deadline has no turns left.
    rcases Nat.eq_zero_or_pos (L.run deadline s').1.length with hnone | hsome
    · rw [hnone]
      omega
    · have hone := Nat.le_mul_of_pos_left L.least hsome
      omega

/-- **The invariant rule.**  If every turn before the deadline keeps an invariant, and where it
holds leaves good effects and a good result, then a run leaves good effects, and the invariant
or a good result. -/
theorem forall_mem_run (inv : σ → Prop) (good : ε → Prop) (ok : ρ → Prop)
    (hturn : ∀ s, inv s → L.clock s < deadline →
      (∀ e ∈ (L.turn s).1, good e) ∧ Sum.elim inv ok (L.turn s).2) {s : σ} (hs : inv s) :
    (∀ es ∈ (L.run deadline s).1, ∀ e ∈ es, good e) ∧
      Sum.elim (fun t => inv t ∧ deadline ≤ L.clock t) ok (L.run deadline s).2 := by
  revert hs
  refine run_induction (P := fun s ess last => inv s →
    (∀ es ∈ ess, ∀ e ∈ es, good e) ∧
      Sum.elim (fun t => inv t ∧ deadline ≤ L.clock t) ok last) ?_ ?_ ?_ s
  · intro s h hs
    exact ⟨fun es hes => absurd hes List.not_mem_nil, hs, h⟩
  · intro s es r h heq hs
    obtain ⟨hgood, hend⟩ := hturn s hs h
    rw [heq] at hgood hend
    refine ⟨fun es' hes' => ?_, hend⟩
    rw [List.mem_singleton.mp hes']
    exact hgood
  · intro s es s' h heq ih hs
    obtain ⟨hgood, hend⟩ := hturn s hs h
    rw [heq] at hgood hend
    obtain ⟨hrest, hlast⟩ := ih hend
    refine ⟨fun es' hes' => ?_, hlast⟩
    rcases List.mem_cons.mp hes' with rfl | hmem
    · exact hgood
    · exact hrest es' hmem

end Loop

end DeadlineLoop
