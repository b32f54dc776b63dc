import HttpDataDiod.Nats.Draining

/-!
# Messages lost by a teardown

`unsubscribe()`, `drain()` and `disconnect_locked()` drain the subscriptions before
they destroy them, so that no message is lost and no callback is left without its
holder.  But the drain is only started: nothing waits for it.  The functions keep
their promise as long as a subscription has nothing left to handle when it is
destroyed.

* `Conserved`: every message received is handled or waits at a subscription, and a
  subscription without its holder is done.
* `conserving`: what the threads keep.
* `noMessageLost`: if subscriptions are destroyed only when there is nothing left to
  handle, then a function that tears down returns with all messages handled that were
  received before it was entered, and no callback runs without its holder.
* `not_noMessageLost_unsubscribe`: a message that waits when `unsubscribe()` is called.
-/

namespace HttpDataDiod
namespace Nats
namespace Draining

open Interleaving Transition

/-! ## What the threads keep -/

/-- Every subscription that still has its holder is in the list. -/
def Remaining (l : List ℕ) (s : Shared) : Prop :=
  ∀ k sub, s.subs[k]? = some sub → sub.holder = true → k ∈ l

/-- All messages were handled that were received before the call. -/
def Returned.Lossless (r : Returned) : Prop := ∀ id, id < r.before → id ∈ r.handled

/-- No message is lost. -/
structure Conserved (s : Shared) : Prop where
  accounted : ∀ id, id < s.received → id ∈ s.handled ∨ ∃ sub ∈ s.subs, id ∈ sub.pending
  released : ∀ sub ∈ s.subs, sub.holder = false → sub.Done
  listed : s.mutex = none → Remaining s.listed s
  before : ∀ t, s.before t ≤ s.received
  returned : ∀ r ∈ s.returned, r.Lossless

/-- What the library and all actions but the resetting of a holder do to one
subscription: its messages stay until they are handled, and what is done stays done. -/
structure SubKept (handled : List ℕ) (sub sub' : LibrarySub) : Prop where
  holder : sub'.holder = sub.holder
  done : sub.Done → sub'.Done
  pending : ∀ id ∈ sub.pending, id ∈ sub'.pending ∨ id ∈ handled

/-- The same, for all subscriptions. -/
def SubsKept (s s' : Shared) : Prop :=
  ∀ k : ℕ, Option.Rel (SubKept s'.handled) s.subs[k]? s'.subs[k]?

/-- What a thread relies on. -/
structure DrainRely (t : ℕ) (s s' : Shared) : Prop where
  free : s.mutex ≠ some t → s'.mutex ≠ some t
  held : s.mutex = some t → s'.mutex = some t ∧ s'.listed = s.listed ∧ SubsKept s s'
  handled : ∀ id ∈ s.handled, id ∈ s'.handled
  before : s'.before t = s.before t

/-- **What the threads keep.** -/
def conserving : Contract ℕ DrainAction Shared DrainEvent where
  inv := Conserved
  rely := DrainRely
  check _ _ _ := True
  idle t s := s.mutex ≠ some t
  condition _ _ a s := ∀ k sub, a = .destroySub k → s.subs[k]? = some sub → sub.pending = []
  envCondition _ _ := True

namespace Conserving

variable {t : ℕ} {s s' : Shared}

theorem subKept_refl (handled : List ℕ) (sub : LibrarySub) : SubKept handled sub sub :=
  ⟨rfl, fun h => h, fun _ hid => .inl hid⟩

theorem rel_refl (handled : List ℕ) (o : Option LibrarySub) :
    Option.Rel (SubKept handled) o o := by
  cases o with
  | none => exact .none
  | some sub => exact .some (subKept_refl handled sub)

/-- What leaves the list, the marks and the mutex alone. -/
structure Kept (s s' : Shared) : Prop where
  mutex : s'.mutex = s.mutex
  listed : s'.listed = s.listed
  subs : SubsKept s s'
  handled : ∀ id ∈ s.handled, id ∈ s'.handled
  fewer : s.received ≤ s'.received
  received : ∀ id, id < s'.received → id < s.received ∨ ∃ sub ∈ s'.subs, id ∈ sub.pending
  before : s'.before = s.before
  returned : s'.returned = s.returned

theorem SubsKept.backward (h : SubsKept s s') {k : ℕ} {sub' : LibrarySub}
    (hsub : s'.subs[k]? = some sub') :
    ∃ sub, s.subs[k]? = some sub ∧ SubKept s'.handled sub sub' := by
  have hrel := h k
  rw [hsub] at hrel
  cases hk : s.subs[k]? with
  | none =>
    rw [hk] at hrel
    cases hrel
  | some sub =>
    rw [hk] at hrel
    cases hrel with
    | some hkept => exact ⟨sub, rfl, hkept⟩

theorem SubsKept.forward (h : SubsKept s s') {k : ℕ} {sub : LibrarySub}
    (hsub : s.subs[k]? = some sub) :
    ∃ sub', s'.subs[k]? = some sub' ∧ SubKept s'.handled sub sub' := by
  have hrel := h k
  rw [hsub] at hrel
  cases hk : s'.subs[k]? with
  | none =>
    rw [hk] at hrel
    cases hrel
  | some sub' =>
    rw [hk] at hrel
    cases hrel with
    | some hkept => exact ⟨sub', rfl, hkept⟩

theorem remaining_of_subsKept {l : List ℕ} (h : SubsKept s s') (hl : Remaining l s) :
    Remaining l s' := by
  intro k sub' hk hholder
  obtain ⟨sub, hsub, hkept⟩ := SubsKept.backward h hk
  exact hl k sub hsub (hkept.holder ▸ hholder)

/-- **What is kept is conserved.** -/
theorem Kept.conserved (h : Kept s s') (hinv : Conserved s) : Conserved s' where
  accounted id hid := by
    rcases h.received id hid with hold | hnew
    · rcases hinv.accounted id hold with hdone | ⟨sub, hmem, hpending⟩
      · exact .inl (h.handled id hdone)
      · obtain ⟨k, hk⟩ := List.mem_iff_getElem?.mp hmem
        obtain ⟨sub', hk', hkept⟩ := SubsKept.forward h.subs hk
        rcases hkept.pending id hpending with hstill | hdone
        · exact .inr ⟨sub', List.mem_of_getElem? hk', hstill⟩
        · exact .inl hdone
    · exact .inr hnew
  released sub' hmem hholder := by
    obtain ⟨k, hk⟩ := List.mem_iff_getElem?.mp hmem
    obtain ⟨sub, hsub, hkept⟩ := SubsKept.backward h.subs hk
    exact hkept.done (hinv.released sub (List.mem_of_getElem? hsub) (hkept.holder ▸ hholder))
  listed hmutex := by
    rw [h.listed]
    exact remaining_of_subsKept h.subs (hinv.listed (h.mutex ▸ hmutex))
  before t := by
    rw [h.before]
    exact Nat.le_trans (hinv.before t) h.fewer
  returned := by
    rw [h.returned]
    exact hinv.returned

theorem Kept.rely (h : Kept s s') (u : ℕ) : conserving.rely u s s' where
  free hne := by
    rw [h.mutex]
    exact hne
  held heq := ⟨h.mutex.trans heq, h.listed, h.subs⟩
  handled := h.handled
  before := congrFun h.before u

/-! ## The library -/

/-- Nothing happens to a subscription that is done. -/
theorem not_done_of_apply {next : ℕ} {e : SubEvent} {sub sub' : LibrarySub}
    (h : e.apply next sub = some sub') : ¬ sub.Done := by
  rintro ⟨hclosed, hpending⟩
  obtain ⟨hqueue, hphase⟩ := List.append_eq_nil_iff.mp hpending
  cases e with
  | receive | flushed | drained | expired => simp [SubEvent.apply, hclosed] at h
  | take => simp [SubEvent.apply, hclosed] at h
  | enter | finish =>
    cases hp : sub.phase with
    | idle => simp [SubEvent.apply, hp] at h
    | taken id | running id =>
      rw [hp] at hphase
      cases hphase

/-- **One event of the library**: the messages of the subscription stay until they are
handled. -/
theorem subKept_of_apply {next : ℕ} {e : SubEvent} {sub sub' : LibrarySub}
    (h : e.apply next sub = some sub') (handled : List ℕ) :
    SubKept (if e = .finish then handled ++ sub.phase.message else handled) sub sub' ∧
      (e = .receive → next ∈ sub'.pending) := by
  have hnot := not_done_of_apply h
  have hkept : ∀ {handled'}, sub'.holder = sub.holder →
      (∀ id ∈ sub.pending, id ∈ sub'.pending ∨ id ∈ handled') → SubKept handled' sub sub' :=
    fun hholder hpending => ⟨hholder, fun hdone => absurd hdone hnot, hpending⟩
  cases e with
  | receive =>
    obtain ⟨-, h⟩ := Option.ite_none_left_eq_some.mp h
    cases h
    refine ⟨hkept rfl fun id hid => .inl ?_, fun _ => ?_⟩
    all_goals simp only [LibrarySub.pending, List.mem_append, List.mem_singleton] at *
    · tauto
    · tauto
  | flushed | expired =>
    obtain ⟨-, h⟩ := Option.ite_none_left_eq_some.mp h
    cases h
    exact ⟨hkept rfl fun _ hid => .inl hid, nofun⟩
  | drained =>
    obtain ⟨-, h⟩ := Option.ite_none_right_eq_some.mp h
    cases h
    exact ⟨hkept rfl fun _ hid => .inl hid, nofun⟩
  | take =>
    simp only [SubEvent.apply] at h
    split at h
    next id rest _ hphase hqueue =>
      cases h
      refine ⟨hkept rfl fun id' hid => .inl ?_, nofun⟩
      rw [LibrarySub.pending, hphase, hqueue] at hid
      simp only [LibrarySub.pending, Phase.message, List.mem_append, List.mem_cons,
        List.not_mem_nil, or_false] at hid ⊢
      exact hid.symm
    next => cases h
  | enter =>
    simp only [SubEvent.apply] at h
    split at h
    next id hphase =>
      cases h
      refine ⟨hkept rfl fun _ hid => .inl ?_, nofun⟩
      rw [LibrarySub.pending, hphase] at hid
      exact hid
    next => cases h
  | finish =>
    simp only [SubEvent.apply] at h
    split at h
    next id hphase =>
      cases h
      refine ⟨hkept rfl fun _ hid => ?_, nofun⟩
      rcases List.mem_append.mp hid with hqueue | hmessage
      · exact .inl (List.mem_append_left _ hqueue)
      · exact .inr (List.mem_append_right _ hmessage)
    next => cases h

theorem subKept_close (handled : List ℕ) (sub : LibrarySub) :
    SubKept handled sub { sub with closed := true } :=
  ⟨rfl, fun hdone => ⟨rfl, hdone.2⟩, fun _ hid => .inl hid⟩

theorem subKept_startDrain (handled : List ℕ) (sub : LibrarySub) :
    SubKept handled sub { sub with drainStarted := true } :=
  ⟨rfl, fun hdone => hdone, fun _ hid => .inl hid⟩

/-- Only the subscriptions change, each into one that is kept. -/
theorem kept_of_subs {subs : List LibrarySub}
    (h : ∀ k : ℕ, Option.Rel (SubKept s.handled) s.subs[k]? subs[k]?) :
    Kept s { s with subs := subs } where
  mutex := rfl
  listed := rfl
  subs := h
  handled _ hid := hid
  fewer := Nat.le_refl _
  received _ hid := .inl hid
  before := rfl
  returned := rfl

theorem kept_map {f : LibrarySub → LibrarySub} (hf : ∀ sub, SubKept s.handled sub (f sub)) :
    Kept s { s with subs := s.subs.map f } := by
  refine kept_of_subs fun k => ?_
  rw [List.getElem?_map]
  cases s.subs[k]? with
  | none => exact .none
  | some sub => exact .some (hf sub)

theorem kept_modifySub {f : LibrarySub → LibrarySub} (hf : ∀ sub, SubKept s.handled sub (f sub))
    (k : ℕ) : Kept s (s.modifySub k f) := by
  refine kept_of_subs fun j => ?_
  by_cases hjk : k = j
  · subst hjk
    rw [List.getElem?_modify_eq]
    cases s.subs[k]? with
    | none => exact .none
    | some sub => exact .some (hf sub)
  · rw [List.getElem?_modify_ne _ _ hjk]
    exact rel_refl _ _

/-- **What the library does is kept.** -/
theorem kept_drainStep {e : DrainEvent} (h : drainStep e s = some s') : Kept s s' := by
  cases e with
  | connClosed =>
    cases h
    exact kept_map (subKept_close s.handled)
  | sub k e =>
    obtain ⟨sub, hsub, h⟩ := Option.bind_eq_some_iff.mp h
    obtain ⟨sub', hsub', rfl⟩ := Option.map_eq_some_iff.mp h
    obtain ⟨hkept, hnew⟩ := subKept_of_apply hsub' s.handled
    have hself : (s.subs.set k sub')[k]? = some sub' := by
      rw [List.getElem?_set_self', hsub]
      rfl
    refine ⟨rfl, rfl, fun j => ?_, fun id hid => ?_, ?_, fun id hid => ?_, rfl, rfl⟩
    · by_cases hjk : j = k
      · subst hjk
        rw [hsub, hself]
        exact .some hkept
      · rw [List.getElem?_set_ne (Ne.symm hjk)]
        exact rel_refl _ _
    · change id ∈ if e = .finish then s.handled ++ sub.phase.message else s.handled
      split
      · exact List.mem_append_left _ hid
      · exact hid
    · change s.received ≤ if e = .receive then s.received + 1 else s.received
      split <;> omega
    · change id < if e = .receive then s.received + 1 else s.received at hid
      split at hid
      next he =>
        rcases Nat.lt_succ_iff_lt_or_eq.mp hid with hold | rfl
        · exact .inl hold
        · exact .inr ⟨sub', List.mem_of_getElem? hself, hnew he⟩
      next => exact .inl hid

/-! ## The actions of the client -/

/-- Knowledge of the holder of the mutex that the library does not disturb. -/
def Lasting (K : Shared → Prop) : Prop :=
  ∀ s s', K s → s'.listed = s.listed → SubsKept s s' → K s'

/-- The subscription is done. -/
def DoneAt (k : ℕ) (s : Shared) : Prop := ∀ sub, s.subs[k]? = some sub → sub.Done

/-- All messages are handled that were received before the thread's call. -/
def Settled (t : ℕ) (s : Shared) : Prop := ∀ id, id < s.before t → id ∈ s.handled

theorem lasting_remaining (l : List ℕ) : Lasting (Remaining l) :=
  fun _ _ hs _ hkept => remaining_of_subsKept hkept hs

theorem lasting_listed : Lasting fun s => Remaining s.listed s := by
  intro s s' hs hlisted hkept
  rw [hlisted]
  exact remaining_of_subsKept hkept hs

theorem lasting_listed_append (l : List ℕ) : Lasting fun s => Remaining (s.listed ++ l) s := by
  intro s s' hs hlisted hkept
  rw [hlisted]
  exact remaining_of_subsKept hkept hs

theorem lasting_doneAt (k : ℕ) : Lasting (DoneAt k) := by
  intro s s' hs _ hkept sub' hsub'
  obtain ⟨sub, hsub, h⟩ := SubsKept.backward hkept hsub'
  exact h.done (hs sub hsub)

theorem Lasting.and {K K' : Shared → Prop} (hK : Lasting K) (hK' : Lasting K') :
    Lasting fun s => K s ∧ K' s :=
  fun s s' hs hlisted hkept => ⟨hK s s' hs.1 hlisted hkept, hK' s s' hs.2 hlisted hkept⟩

/-- Holding the mutex, with some knowledge. -/
def held (t : ℕ) (K : Shared → Prop) (s : Shared) : Prop := s.mutex = some t ∧ K s

/-- Not holding the mutex, with all earlier messages handled. -/
def settled (t : ℕ) (s : Shared) : Prop := s.mutex ≠ some t ∧ Settled t s

variable {K : Shared → Prop}

theorem stable_free : conserving.Stable t fun s => s.mutex ≠ some t :=
  fun _ _ hs hrely => hrely.free hs

theorem stable_held (hK : Lasting K) : conserving.Stable t (held t K) := by
  rintro s s' ⟨hmutex, hs⟩ hrely
  obtain ⟨hmutex', hlisted, hkept⟩ := hrely.held hmutex
  exact ⟨hmutex', hK s s' hs hlisted hkept⟩

theorem stable_settled : conserving.Stable t (settled t) := by
  rintro s s' ⟨hmutex, hs⟩ hrely
  refine ⟨hrely.free hmutex, fun id hid => hrely.handled id (hs id ?_)⟩
  rw [← hrely.before]
  exact hid

/-- An action, given what it does. -/
theorem rule_of {P : Shared → Prop} {a : DrainAction} {Q : a.Result → Shared → Prop}
    (hstable : ∀ r, conserving.Stable t (Q r))
    (hkeeps : ∀ choice s r s', Conserved s → P s →
      (∀ k sub, a = .destroySub k → s.subs[k]? = some sub → sub.pending = []) →
      performDrain t a choice s = some (r, s') →
      Conserved s' ∧ (∀ u, u ≠ t → conserving.rely u s s') ∧ Q r s') :
    ActionRule drainingSystem conserving t P a Q where
  check _ _ _ := trivial
  stable := hstable
  keeps _ s choice r s' hinv hs _ hcondition hperform :=
    hkeeps choice s r s' hinv hs hcondition hperform

/-- The actions that leave the list, the marks and the mutex alone. -/
def KeepsAll : DrainAction → Prop
  | .loadSubscriptions | .drainSub _ | .destroySub _ | .loadConn | .drainConn | .closeConn
  | .clearConn | .connectConn | .ask => True
  | _ => False

theorem kept_refl (s : Shared) : Kept s s := kept_of_subs fun _ => rel_refl _ _

/-- Only the connection is assigned. -/
theorem kept_conn (s : Shared) (conn : Bool) : Kept s { s with conn := conn } where
  mutex := rfl
  listed := rfl
  subs _ := rel_refl _ _
  handled _ hid := hid
  fewer := Nat.le_refl _
  received _ hid := .inl hid
  before := rfl
  returned := rfl

theorem kept_performDrain {a : DrainAction} (ha : KeepsAll a) {choice : Bool} {r : a.Result}
    (h : performDrain t a choice s = some (r, s')) : Kept s s' := by
  cases a with
  | lock | unlock | enter | leave | resetCallback | clearSubscriptions | subscribeConn
  | pushSubscription => exact ha.elim
  | loadSubscriptions | loadConn | ask =>
    cases h
    exact kept_refl s
  | drainSub k =>
    cases h
    cases choice with
    | true => exact kept_modifySub (subKept_startDrain _) k
    | false => exact kept_refl s
  | destroySub k =>
    cases h
    exact kept_modifySub (subKept_close _) k
  | drainConn =>
    cases h
    cases choice with
    | true => exact kept_map (subKept_startDrain _)
    | false => exact kept_refl s
  | closeConn =>
    cases h
    exact kept_map (subKept_close _)
  | clearConn =>
    cases h
    exact kept_conn s false
  | connectConn =>
    cases h
    cases choice with
    | true => exact kept_conn s true
    | false => exact kept_refl s

/-- An action under the mutex keeps what its holder knows. -/
theorem rule_kept (hK : Lasting K) {a : DrainAction} (ha : KeepsAll a) :
    ActionRule drainingSystem conserving t (held t K) a fun _ => held t K := by
  refine rule_of (fun _ => stable_held hK) fun choice s r s' hinv hs _ hperform => ?_
  have hkept := kept_performDrain ha hperform
  exact ⟨hkept.conserved hinv, fun u _ => hkept.rely u, hkept.mutex.trans hs.1,
    hK s s' hs.2 hkept.listed hkept.subs⟩

/-- The list is read. -/
theorem rule_load :
    ActionRule drainingSystem conserving t (held t fun s => Remaining s.listed s)
      .loadSubscriptions fun l => held t (Remaining l) := by
  refine rule_of (fun l => stable_held (lasting_remaining l))
    fun choice s l s' hinv hs _ hperform => ?_
  cases hperform
  exact ⟨hinv, fun u _ => (kept_refl s).rely u, hs.1, hs.2⟩

/-- A subscription is destroyed when there is nothing left to handle. -/
theorem rule_destroy (k : ℕ) (l : List ℕ) :
    ActionRule drainingSystem conserving t (held t (Remaining l)) (.destroySub k)
      fun _ => held t fun s => Remaining l s ∧ DoneAt k s := by
  refine rule_of (fun _ => stable_held ((lasting_remaining l).and (lasting_doneAt k)))
    fun choice s r s' hinv hs hcondition hperform => ?_
  have hkept := kept_performDrain (a := .destroySub k) trivial hperform
  refine ⟨hkept.conserved hinv, fun u _ => hkept.rely u, hkept.mutex.trans hs.1,
    lasting_remaining l s s' hs.2 hkept.listed hkept.subs, fun sub' hsub' => ?_⟩
  cases hperform
  rw [Shared.modifySub, List.getElem?_modify_eq] at hsub'
  obtain ⟨sub, hsub, rfl⟩ := Option.map_eq_some_iff.mp hsub'
  exact ⟨rfl, hcondition k sub rfl hsub⟩

/-- An action of the holder of the mutex does not disturb the others. -/
theorem rely_of_holder {u : ℕ} (hmutex : s.mutex = some t)
    (hmutex' : s'.mutex = some t ∨ s'.mutex = none) (hhandled : s'.handled = s.handled)
    (hbefore : s'.before = s.before) (hu : u ≠ t) : conserving.rely u s s' where
  free _ := by
    rcases hmutex' with h | h
    · rw [h]
      exact fun heq => hu (Option.some.inj heq).symm
    · rw [h]
      exact nofun
  held heq := absurd (Option.some.inj (hmutex.symm.trans heq)).symm hu
  handled id hid := by
    rw [hhandled]
    exact hid
  before := congrFun hbefore u

/-- The holder of a subscription that is done is reset. -/
theorem rule_reset (k : ℕ) (l : List ℕ) :
    ActionRule drainingSystem conserving t
      (held t fun s => Remaining (k :: l) s ∧ DoneAt k s) (.resetCallback k)
      fun _ => held t (Remaining l) := by
  refine rule_of (fun _ => stable_held (lasting_remaining l))
    fun choice s r s' hinv hs _ hperform => ?_
  cases hperform
  obtain ⟨hmutex, hremaining, hdone⟩ := hs
  have hself : (s.modifySub k fun sub => { sub with holder := false }).subs[k]? =
      (s.subs[k]?).map fun sub => { sub with holder := false } := List.getElem?_modify_eq ..
  have hother : ∀ {j}, k ≠ j →
      (s.modifySub k fun sub => { sub with holder := false }).subs[j]? = s.subs[j]? :=
    fun hjk => List.getElem?_modify_ne _ _ hjk
  refine ⟨⟨fun id hid => ?_, fun sub' hmem hholder => ?_, fun hnone => ?_, hinv.before,
    hinv.returned⟩, fun u hu => rely_of_holder hmutex (.inl hmutex) rfl rfl hu, hmutex, ?_⟩
  · rcases hinv.accounted id hid with hhandled | ⟨sub, hmem, hpending⟩
    · exact .inl hhandled
    · obtain ⟨j, hj⟩ := List.mem_iff_getElem?.mp hmem
      by_cases hjk : k = j
      · subst hjk
        rw [hj] at hself
        exact .inr ⟨_, List.mem_of_getElem? hself, hpending⟩
      · exact .inr ⟨sub, List.mem_of_getElem? ((hother hjk).trans hj), hpending⟩
  · obtain ⟨j, hj⟩ := List.mem_iff_getElem?.mp hmem
    by_cases hjk : k = j
    · subst hjk
      rw [hself] at hj
      obtain ⟨sub, hsub, rfl⟩ := Option.map_eq_some_iff.mp hj
      exact hdone sub hsub
    · exact hinv.released sub' (List.mem_of_getElem? ((hother hjk).symm.trans hj)) hholder
  · exact absurd (hmutex.symm.trans hnone) nofun
  · intro j sub' hj hholder
    by_cases hjk : k = j
    · subst hjk
      rw [hself] at hj
      obtain ⟨sub, -, rfl⟩ := Option.map_eq_some_iff.mp hj
      cases hholder
    · rw [hother hjk] at hj
      rcases List.mem_cons.mp (hremaining j sub' hj hholder) with rfl | hmem
      · exact absurd rfl hjk
      · exact hmem

theorem rule_clear :
    ActionRule drainingSystem conserving t (held t (Remaining [])) .clearSubscriptions
      fun _ => held t (Remaining []) := by
  refine rule_of (fun _ => stable_held (lasting_remaining []))
    fun choice s r s' hinv hs _ hperform => ?_
  cases hperform
  refine ⟨⟨hinv.accounted, hinv.released, fun hnone => ?_, hinv.before, hinv.returned⟩,
    fun u hu => rely_of_holder hs.1 (.inl hs.1) rfl rfl hu, hs⟩
  exact absurd (hs.1.symm.trans hnone) nofun

theorem rule_lock :
    ActionRule drainingSystem conserving t (fun s => s.mutex ≠ some t) .lock
      fun _ => held t fun s => Remaining s.listed s := by
  refine rule_of (fun _ => stable_held lasting_listed) fun choice s r s' hinv hs _ hperform => ?_
  obtain ⟨hnone, heq⟩ := Option.ite_none_right_eq_some.mp hperform
  cases heq
  refine ⟨⟨hinv.accounted, hinv.released, nofun, hinv.before, hinv.returned⟩, fun u hu => ?_,
    rfl, hinv.listed hnone⟩
  refine ⟨fun _ heq => hu (Option.some.inj heq).symm, fun heq => ?_, fun _ hid => hid, rfl⟩
  exact absurd (hnone.symm.trans heq) nofun

/-- When no holder is left, every message is handled. -/
theorem settled_of_remaining_nil (hinv : Conserved s) (h : Remaining [] s) : Settled t s := by
  intro id hid
  rcases hinv.accounted id (Nat.lt_of_lt_of_le hid (hinv.before t)) with hhandled | hpending
  · exact hhandled
  · obtain ⟨sub, hmem, hid⟩ := hpending
    have hholder : sub.holder = false := by
      obtain ⟨k, hk⟩ := List.mem_iff_getElem?.mp hmem
      by_contra hholder
      exact absurd (h k sub hk (Bool.not_eq_false _ ▸ hholder)) List.not_mem_nil
    rw [(hinv.released sub hmem hholder).2] at hid
    cases hid

theorem rule_unlock :
    ActionRule drainingSystem conserving t (held t fun s => Remaining s.listed s) .unlock
      fun _ s => s.mutex ≠ some t := by
  refine rule_of (fun _ => stable_free) fun choice s r s' hinv hs _ hperform => ?_
  cases hperform
  exact ⟨⟨hinv.accounted, hinv.released, fun _ => hs.2, hinv.before, hinv.returned⟩,
    fun u hu => rely_of_holder hs.1 (.inr rfl) rfl rfl hu, nofun⟩

theorem rule_unlock_settled :
    ActionRule drainingSystem conserving t (held t (Remaining [])) .unlock
      fun _ => settled t := by
  refine rule_of (fun _ => stable_settled) fun choice s r s' hinv hs _ hperform => ?_
  cases hperform
  have hsettled : Settled t s := settled_of_remaining_nil hinv hs.2
  refine ⟨⟨hinv.accounted, hinv.released, fun _ => ?_, hinv.before, hinv.returned⟩,
    fun u hu => rely_of_holder hs.1 (.inr rfl) rfl rfl hu, nofun, hsettled⟩
  exact fun k sub hk hholder => absurd (hs.2 k sub hk hholder) List.not_mem_nil

/-- The marks are no concern of the others. -/
theorem rely_of_marks {u : ℕ} {before : ℕ → ℕ} (hbefore : before u = s.before u)
    (returned : List Returned) :
    conserving.rely u s { s with before := before, returned := returned } :=
  ⟨fun h => h, fun h => ⟨h, rfl, fun _ => rel_refl _ _⟩, fun _ hid => hid, hbefore⟩

theorem rule_enter {P : Shared → Prop} (hstable : conserving.Stable t P)
    (hP : ∀ s before, P s → P { s with before := before }) :
    ActionRule drainingSystem conserving t P .enter fun _ => P := by
  refine rule_of (fun _ => hstable) fun choice s r s' hinv hs _ hperform => ?_
  cases hperform
  refine ⟨⟨hinv.accounted, hinv.released, hinv.listed, fun u => ?_, hinv.returned⟩,
    fun u hu => rely_of_marks (Function.update_of_ne hu ..) _, hP s _ hs⟩
  by_cases hut : u = t
  · subst hut
    exact Nat.le_of_eq (Function.update_self ..)
  · exact Nat.le_trans (Nat.le_of_eq (Function.update_of_ne hut ..)) (hinv.before u)

/-- **A function returns with all earlier messages handled.** -/
theorem rule_leave {P : Shared → Prop} (hstable : conserving.Stable t P)
    (hsettled : ∀ s, Conserved s → P s → Settled t s)
    (hP : ∀ s returned, P s → P { s with returned := returned }) :
    ActionRule drainingSystem conserving t P .leave fun _ => P := by
  refine rule_of (fun _ => hstable) fun choice s r s' hinv hs _ hperform => ?_
  cases hperform
  refine ⟨⟨hinv.accounted, hinv.released, hinv.listed, hinv.before, fun b hb => ?_⟩,
    fun _ _ => rely_of_marks rfl _, hP s _ hs⟩
  rcases List.mem_append.mp hb with hb | hb
  · exact hinv.returned b hb
  · rw [List.mem_singleton.mp hb]
    exact hsettled s hinv hs

/-- A new subscription has its holder, and is not in the list yet. -/
theorem rule_subscribe :
    ActionRule drainingSystem conserving t (held t fun s => Remaining s.listed s) .subscribeConn
      fun r => held t fun s => Remaining (s.listed ++ r.toList) s := by
  refine rule_of (fun r => stable_held (lasting_listed_append r.toList))
    fun choice s r s' hinv hs _ hperform => ?_
  cases choice with
  | false =>
    cases hperform
    exact ⟨hinv, fun u _ => (kept_refl s).rely u, hs.1, by simpa using hs.2⟩
  | true =>
    cases hperform
    have hold : ∀ sub ∈ s.subs, sub ∈ s.subs ++ [LibrarySub.new] :=
      fun _ hmem => List.mem_append_left _ hmem
    refine ⟨⟨fun id hid => ?_, fun sub hmem hholder => ?_, fun hnone => ?_, hinv.before,
      hinv.returned⟩, fun u hu => rely_of_holder hs.1 (.inl hs.1) rfl rfl hu, hs.1, ?_⟩
    · exact (hinv.accounted id hid).imp_right fun ⟨sub, hmem, h⟩ => ⟨sub, hold sub hmem, h⟩
    · rcases List.mem_append.mp hmem with hmem | hmem
      · exact hinv.released sub hmem hholder
      · rw [List.mem_singleton.mp hmem] at hholder
        cases hholder
    · exact absurd (hs.1.symm.trans hnone) nofun
    · intro k sub hk hholder
      rw [List.getElem?_append] at hk
      split at hk
      · exact List.mem_append_left _ (hs.2 k sub hk hholder)
      · have hlength : k = s.subs.length := by
          have hlt := (List.getElem?_eq_some_iff.mp hk).1
          simp only [List.length_singleton] at hlt
          omega
        exact List.mem_append_right _ (List.mem_singleton.mpr hlength)

theorem rule_push (k : ℕ) :
    ActionRule drainingSystem conserving t (held t fun s => Remaining (s.listed ++ [k]) s)
      (.pushSubscription k) fun _ => held t fun s => Remaining s.listed s := by
  refine rule_of (fun _ => stable_held lasting_listed) fun choice s r s' hinv hs _ hperform => ?_
  cases hperform
  refine ⟨⟨hinv.accounted, hinv.released, fun hnone => ?_, hinv.before, hinv.returned⟩,
    fun u hu => rely_of_holder hs.1 (.inl hs.1) rfl rfl hu, hs⟩
  exact absurd (hs.1.symm.trans hnone) nofun

/-! ## The functions of the client -/

theorem listed_of_remaining_nil (h : Remaining [] s) : Remaining s.listed s :=
  fun k sub hk hholder => absurd (h k sub hk hholder) List.not_mem_nil

theorem outline_drainSubscriptionLocked (l m : List ℕ) :
    Outline drainingSystem conserving t (held t (Remaining l)) (drainSubscriptionLocked m)
      fun _ => held t (Remaining l) := by
  induction m with
  | nil => exact .pure fun _ hs => hs
  | cons k m ih =>
    exact .bind (.perform (rule_kept (lasting_remaining l) (a := .drainSub k) trivial)) fun _ => ih

/-- The loop over the list: after each subscription one holder less is left. -/
theorem outline_destroyEach (l : List ℕ) :
    Outline drainingSystem conserving t (held t (Remaining l)) (destroyEach l)
      fun _ => held t (Remaining []) := by
  induction l with
  | nil => exact .pure fun _ hs => hs
  | cons k l ih =>
    exact .bind (.perform (rule_destroy k (k :: l))) fun _ =>
      .bind (.perform (rule_reset k l)) fun _ => ih

theorem outline_destroySubscriptionLocked (l : List ℕ) :
    Outline drainingSystem conserving t (held t (Remaining l)) (destroySubscriptionLocked l)
      fun _ => held t (Remaining []) :=
  .bind (outline_destroyEach l) fun _ => .perform rule_clear

theorem outline_destroyConnectionLocked :
    Outline drainingSystem conserving t (held t (Remaining [])) destroyConnectionLocked
      fun _ => held t (Remaining []) := by
  have h {a : DrainAction} (ha : KeepsAll a) : ActionRule drainingSystem conserving t
      (held t (Remaining [])) a fun _ => held t (Remaining []) :=
    rule_kept (lasting_remaining []) ha
  refine .bind (.perform (h (a := .loadConn) trivial)) fun conn => ?_
  cases conn with
  | false => exact .pure fun _ hs => hs
  | true =>
    exact .bind (.perform (h (a := .closeConn) trivial)) fun _ =>
      .perform (h (a := .clearConn) trivial)

theorem rule_leave_held :
    ActionRule drainingSystem conserving t (held t (Remaining [])) .leave
      fun _ => held t (Remaining []) :=
  rule_leave (stable_held (lasting_remaining []))
    (fun _ hinv hs => settled_of_remaining_nil hinv hs.2) fun _ _ hs => hs

theorem rule_leave_settled :
    ActionRule drainingSystem conserving t (settled t) .leave fun _ => settled t :=
  rule_leave stable_settled (fun _ _ hs => hs.2) fun _ _ hs => hs

theorem outline_disconnectLocked :
    Outline drainingSystem conserving t (held t fun s => Remaining s.listed s) disconnectLocked
      fun _ => held t (Remaining []) := by
  refine .bind (.perform (rule_enter (stable_held lasting_listed) fun _ _ hs => hs)) fun _ =>
    .bind (.perform rule_load) fun l => .bind (outline_drainSubscriptionLocked l l) fun _ =>
    .bind (outline_destroySubscriptionLocked l) fun _ =>
    .bind outline_destroyConnectionLocked fun _ => .perform rule_leave_held

/-- The mutex is given back, and the function returns. -/
theorem outline_unlock_leave :
    Outline drainingSystem conserving t (held t (Remaining []))
      (do act .unlock; act .leave) fun _ => settled t :=
  .bind (.perform rule_unlock_settled) fun _ => .perform rule_leave_settled

theorem outline_unsubscribe :
    Outline drainingSystem conserving t (fun s => s.mutex ≠ some t) unsubscribe
      fun _ => settled t := by
  refine .bind (.perform (rule_enter stable_free fun _ _ hs => hs)) fun _ =>
    .bind (.perform rule_lock) fun _ => .bind (.perform rule_load) fun l => ?_
  cases l with
  | nil => exact outline_unlock_leave
  | cons k l =>
    exact .bind (outline_drainSubscriptionLocked _ (k :: l)) fun _ =>
      .bind (outline_destroySubscriptionLocked (k :: l)) fun _ => outline_unlock_leave

theorem outline_drainConnection (l : List ℕ) :
    Outline drainingSystem conserving t (held t (Remaining l)) drainConnection
      fun _ => held t (Remaining l) := by
  refine .bind (.perform (rule_kept (lasting_remaining l) (a := .loadConn) trivial))
    fun conn => ?_
  cases conn with
  | false => exact .pure fun _ hs => hs
  | true => exact .perform (rule_kept (lasting_remaining l) (a := .drainConn) trivial)

theorem outline_drain :
    Outline drainingSystem conserving t (fun s => s.mutex ≠ some t) drain fun _ => settled t :=
  .bind (.perform (rule_enter stable_free fun _ _ hs => hs)) fun _ =>
    .bind (.perform rule_lock) fun _ => .bind (.perform rule_load) fun l =>
    .bind (outline_drainSubscriptionLocked l l) fun _ => .bind (outline_drainConnection l) fun _ =>
    .bind (outline_destroySubscriptionLocked l) fun _ =>
    .bind outline_destroyConnectionLocked fun _ => outline_unlock_leave

/-- The mutex is given back with nothing in the list. -/
theorem outline_unlock_empty :
    Outline drainingSystem conserving t (held t (Remaining [])) (act .unlock)
      fun _ s => s.mutex ≠ some t :=
  (Outline.perform rule_unlock_settled).mono_right fun _ _ hs => hs.1

theorem outline_connectAttempt :
    Outline drainingSystem conserving t (fun s => s.mutex ≠ some t) connectAttempt
      fun _ s => s.mutex ≠ some t := by
  refine .bind (.perform rule_lock) fun _ =>
    .bind (.perform (rule_kept lasting_listed (a := .ask) trivial)) fun connected => ?_
  cases connected with
  | true => exact .perform rule_unlock
  | false =>
    refine .bind outline_disconnectLocked fun _ => .bind (.perform
      (rule_kept (lasting_remaining []) (a := .connectConn) trivial)) fun ok => ?_
    cases ok with
    | true => exact outline_unlock_empty
    | false =>
      exact .bind (outline_disconnectLocked.mono_left
        fun _ hs => ⟨hs.1, listed_of_remaining_nil hs.2⟩) fun _ => outline_unlock_empty

theorem outline_subscribe :
    Outline drainingSystem conserving t (fun s => s.mutex ≠ some t) subscribe
      fun _ s => s.mutex ≠ some t := by
  refine .bind (.perform rule_lock) fun _ =>
    .bind (.perform (rule_kept lasting_listed (a := .loadConn) trivial)) fun conn => ?_
  cases conn with
  | false => exact .perform rule_unlock
  | true =>
    refine .bind (.perform rule_subscribe) fun r => ?_
    cases r with
    | none =>
      refine Outline.perform (rule_unlock.mono_left fun s hs => ⟨hs.1, ?_⟩)
      simpa using hs.2
    | some k => exact .bind (.perform (rule_push k)) fun _ => .perform rule_unlock

/-- **Every call leads from idle to idle.** -/
theorem outline_body (call : DrainCall) :
    Outline drainingSystem conserving t (conserving.idle t) call.body
      fun _ => conserving.idle t := by
  cases call with
  | connectAttempt => exact outline_connectAttempt
  | subscribe => exact outline_subscribe
  | unsubscribe => exact outline_unsubscribe.mono_right fun _ _ hs => hs.1
  | drain => exact outline_drain.mono_right fun _ _ hs => hs.1
  | disconnect =>
    exact .bind (.perform rule_lock) fun _ => .bind outline_disconnectLocked fun _ =>
      outline_unlock_empty

theorem kept : conserving.Kept drainingSystem where
  idle_stable _ := stable_free
  start t call s p s' hinv hidle hstart := by
    cases hstart
    exact ⟨hinv, fun u _ => (kept_refl s).rely u, _, stable_free, hidle, outline_body call⟩
  env e s s' hinv _ hstep :=
    ⟨(kept_drainStep hstep).conserved hinv, (kept_drainStep hstep).rely⟩

theorem good_initial : conserving.Good drainingSystem newClient where
  inv := ⟨nofun, nofun, fun _ => nofun, fun _ => Nat.le_refl _, nofun⟩
  outline t := ⟨conserving.idle t, stable_free, nofun, fun _ hs => hs⟩

end Conserving

/-! ## Runs -/

/-- A subscription is destroyed only when no message waits in its queue and its thread is
not in a callback. -/
def DestroysDrained (c : DrainConfig) (e : DrainSystemEvent) : Prop :=
  ∀ t choice k sub, e = .act t choice → c.heads t = some (.destroySub k) →
    c.shared.subs[k]? = some sub → sub.queue = [] ∧ sub.phase = .idle

/-- Every function that tore down has returned with all messages handled that were
received before it was entered, and no callback runs whose holder was reset. -/
def NoMessageLost (c : DrainConfig) : Prop :=
  (∀ r ∈ c.shared.returned, ∀ id, id < r.before → id ∈ r.handled) ∧
  ∀ sub ∈ c.shared.subs, sub.holder = false → sub.phase = .idle

theorem meets_of_destroysDrained {c : DrainConfig} {e : DrainSystemEvent}
    (h : DestroysDrained c e) : conserving.Meets c e := by
  cases e with
  | start t call => trivial
  | env e => trivial
  | act t choice =>
    rintro a ha k sub rfl hsub
    obtain ⟨hqueue, hphase⟩ := h t choice k sub rfl ha hsub
    rw [LibrarySub.pending, hqueue, hphase]
    rfl

theorem idle_of_done {sub : LibrarySub} (h : sub.Done) : sub.phase = .idle := by
  obtain ⟨-, hphase⟩ := List.append_eq_nil_iff.mp h.2
  cases hp : sub.phase with
  | idle => rfl
  | taken id | running id =>
    rw [hp] at hphase
    cases hphase

/-- **A teardown loses no message**, in any interleaving of the callers with the delivery
and drain threads of the library, if every subscription is destroyed only when there is
nothing left to handle. -/
theorem noMessageLost (es : List DrainSystemEvent)
    (h : StepsMeet drainingSystem.step DestroysDrained newClient es) :
    Always drainingSystem.step NoMessageLost newClient es :=
  always_of_stepsMeet
    (fun _ _ _ hgood hmeets hstep =>
      conserving.good_step Conserving.kept hgood (meets_of_destroysDrained hmeets) hstep)
    (fun _ hgood => ⟨hgood.inv.returned,
      fun sub hmem hholder => idle_of_done (hgood.inv.released sub hmem hholder)⟩)
    Conserving.good_initial h

/-! ## Messages that wait when a subscription is dropped -/

/-- A thread goes on for a number of actions. -/
def goOn (count : ℕ) : List DrainSystemEvent := List.replicate count (.act 0 true)

/-- The client connects and subscribes. -/
def subscribed : List DrainSystemEvent :=
  ([.start 0 .connectAttempt, .act 0 true, .act 0 false] : List DrainSystemEvent) ++ goOn 7 ++
  ([.start 0 .subscribe] : List DrainSystemEvent) ++ goOn 5

/-- Two messages arrive; the first is in its callback, the second still waits, when
`unsubscribe()` is called. -/
def unsubscribeInCallback : List DrainSystemEvent :=
  subscribed ++ ([.env (.sub 0 .receive), .env (.sub 0 .receive), .env (.sub 0 .take),
    .env (.sub 0 .enter), .start 0 .unsubscribe] : List DrainSystemEvent) ++ goOn 9

/-- `unsubscribe()` returns with neither message handled. -/
theorem not_noMessageLost_unsubscribe :
    ¬ ∀ es, Always drainingSystem.step NoMessageLost newClient es := by
  intro hall
  have hobserved : ((run drainingSystem.step newClient unsubscribeInCallback).map
      fun c => c.shared.returned) = some [⟨0, []⟩, ⟨2, []⟩] := by rfl
  obtain ⟨c, hc, hreturned⟩ := Option.map_eq_some_iff.mp hobserved
  have hlost : NoMessageLost c :=
    always_iff.mp (hall unsubscribeInCallback) _ [] c (List.append_nil _).symm hc
  rw [NoMessageLost, hreturned] at hlost
  have hhandled := hlost.1 ⟨2, []⟩ (by simp) 1 (Nat.lt_succ_self 1)
  cases hhandled

/-- A message arrives and is handled before `unsubscribe()` is called. -/
def unsubscribeAfterCallback : List DrainSystemEvent :=
  subscribed ++ ([.env (.sub 0 .receive), .env (.sub 0 .take), .env (.sub 0 .enter),
    .env (.sub 0 .finish), .start 0 .unsubscribe] : List DrainSystemEvent) ++ goOn 9

/-- The decidable form of `DestroysDrained`. -/
def drainedTest (c : DrainConfig) : DrainSystemEvent → Bool
  | .act t _ =>
    match c.heads t with
    | some (.destroySub k) =>
      c.shared.subs[k]?.all fun sub => sub.queue.isEmpty && sub.phase == .idle
    | _ => true
  | _ => true

theorem destroysDrained_of_test {c : DrainConfig} {e : DrainSystemEvent}
    (h : drainedTest c e = true) : DestroysDrained c e := by
  rintro t choice k sub rfl hhead hsub
  simpa [drainedTest, hhead, hsub] using h

theorem noMessageLost_afterCallback :
    ((run drainingSystem.step newClient unsubscribeAfterCallback).map
        fun c => c.shared.returned) = some [⟨0, []⟩, ⟨1, [0]⟩] ∧
      Always drainingSystem.step NoMessageLost newClient unsubscribeAfterCallback :=
  ⟨by rfl, noMessageLost unsubscribeAfterCallback
    (stepsMeet_of_stepsCheck (fun _ _ => destroysDrained_of_test) (by decide +kernel))⟩

end Draining
end Nats
end HttpDataDiod
