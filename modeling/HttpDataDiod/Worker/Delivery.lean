import HttpDataDiod.Lib.Transition
import HttpDataDiod.Worker.DedupCache

/-!
# Deliveries of one request

Model of `process_request_from_nats` and `send_l2_response` of
`l2_worker_nats.cpp` as far as they decide how often a request is executed.
Each worker of the queue group has a cache of its own; a delivery looks its id
up there, and on a miss calls the L2 server, stores the envelope and replies.
The steps of the deliveries, on any threads of any workers, interleave.

A response that cannot be written out as JSON raises an exception after the
call: the delivery is answered with an error, and nothing is stored.

* `deliveryStep`: the steps.
* `AtMostOnce`: no id is executed twice, and all envelopes of an id are one.
* `InDomain`, `OneAtATime`: the TTL and the capacity are kept; the deliveries of
  an id come one at a time, to one worker, and its envelope is written out.
* `atMostOnce_of_oneAtATime`: under the two, every state of every run is
  `AtMostOnce`.
-/

namespace HttpDataDiod
namespace Worker

open ByteText Transition

/-- How far a delivery has come. -/
inductive Stage where
  | missed
  | executing
  | responded (envelope : Bytes)
  | stored (envelope : Bytes)
  | answered (reply : Bytes)
  | failed
  deriving DecidableEq

/-- Between the miss in the cache and the store. -/
def Stage.isOpen : Stage → Bool
  | .missed => true
  | .executing => true
  | .responded _ => true
  | _ => false

/-- The envelope a delivery has made, stored or replied with. -/
def Stage.envelope : Stage → Option Bytes
  | .responded e => some e
  | .stored e => some e
  | .answered r => some r
  | _ => none

/-- A delivery of a request to a worker. -/
structure Delivery where
  worker : ℕ
  requestId : Bytes
  stage : Stage
  deriving DecidableEq

/-- A store, as it is remembered for the statement of the TTL. -/
structure StoreRecord where
  worker : ℕ
  requestId : Bytes
  time : ℕ
  deriving DecidableEq

/-- The workers' caches, the deliveries in the order they came, the ids for
which the L2 call has been started, and the stores. -/
structure DeliveryRun where
  clock : ℕ
  cache : ℕ → DedupCache
  deliveries : List Delivery
  executions : List Bytes
  stores : List StoreRecord

/-- The steps of the deliveries; `i` numbers them. -/
inductive DeliveryEvent where
  | tick (ms : ℕ)
  | find (worker : ℕ) (requestId : Bytes)
  | execute (i : ℕ)
  | respond (i : ℕ) (envelope : Option Bytes)
  | store (i : ℕ)
  | reply (i : ℕ)

/-- Delivery `i` moves on to another stage. -/
def DeliveryRun.setStage (s : DeliveryRun) (i : ℕ) (d : Delivery) (stage : Stage) : DeliveryRun :=
  { s with deliveries := s.deliveries.set i { d with stage } }

/-- One step. -/
def deliveryStep (cfg : DedupConfig) (s : DeliveryRun) : DeliveryEvent → Option DeliveryRun
  | .tick ms => some { s with clock := s.clock + ms }
  | .find worker requestId =>
    let r := (s.cache worker).find cfg s.clock requestId
    let stage := match r.1 with
      | some cached => .answered cached
      | none => .missed
    some { s with
      cache := Function.update s.cache worker r.2
      deliveries := s.deliveries ++ [{ worker, requestId, stage }] }
  | .execute i =>
    match s.deliveries[i]? with
    | some d =>
      if d.stage = .missed then
        some { s.setStage i d .executing with executions := d.requestId :: s.executions }
      else none
    | none => none
  | .respond i envelope =>
    match s.deliveries[i]? with
    | some d =>
      if d.stage = .executing then
        match envelope with
        | some e => some (s.setStage i d (.responded e))
        | none => some (s.setStage i d .failed)
      else none
    | none => none
  | .store i =>
    match s.deliveries[i]? with
    | some d =>
      match d.stage with
      | .responded e =>
        some { s.setStage i d (.stored e) with
          cache := Function.update s.cache d.worker
            ((s.cache d.worker).store cfg s.clock d.requestId e)
          stores := ⟨d.worker, d.requestId, s.clock⟩ :: s.stores }
      | _ => none
    | none => none
  | .reply i =>
    match s.deliveries[i]? with
    | some d =>
      match d.stage with
      | .stored e => some (s.setStage i d (.answered e))
      | _ => none
    | none => none

/-- Nothing delivered yet. -/
def initialDelivery : DeliveryRun :=
  { clock := 0, cache := fun _ => .empty, deliveries := [], executions := [], stores := [] }

/-- No id is executed twice, and whatever was made, stored or replied for an id
is one envelope. -/
structure AtMostOnce (s : DeliveryRun) : Prop where
  once : ∀ id, s.executions.count id ≤ 1
  one_envelope : ∀ d ∈ s.deliveries, ∀ d' ∈ s.deliveries, d.requestId = d'.requestId →
    ∀ e e', d.stage.envelope = some e → d'.stage.envelope = some e' → e = e'

/-- The cache is used within its limits: a lookup comes before the stores of
the id on this worker expire, and a store finds room. -/
def InDomain (cfg : DedupConfig) (s : DeliveryRun) : DeliveryEvent → Prop
  | .find worker requestId => ∀ r ∈ s.stores, r.worker = worker → r.requestId = requestId →
      s.clock < r.time + cfg.ttlMs
  | .store i => ∀ d, s.deliveries[i]? = some d → (s.cache d.worker).HasRoom cfg
  | _ => True

/-- A delivery comes when no other delivery of its id is between its miss and
its store, and all of them have gone to the same worker; and the envelope of a
response can be written out. -/
def OneAtATime (s : DeliveryRun) : DeliveryEvent → Prop
  | .find worker requestId => ∀ d ∈ s.deliveries, d.requestId = requestId →
      d.worker = worker ∧ d.stage.isOpen = false
  | .respond _ envelope => envelope ≠ none
  | _ => True

/-! ## The invariant -/

/-- The delivery is done with its store: its envelope is in the cache, or was
taken from there. -/
def Stage.isSettled : Stage → Bool
  | .stored _ => true
  | .answered _ => true
  | _ => false

/-- What holds along the runs in question. -/
structure DeliveryInv (cfg : DedupConfig) (s : DeliveryRun) : Prop where
  /-- A delivery that is not settled is the only one of its id. -/
  alone : ∀ (i j : ℕ) (d d' : Delivery), s.deliveries[i]? = some d → s.deliveries[j]? = some d' →
    d.stage.isSettled = false → d.requestId = d'.requestId → i = j
  /-- No delivery has failed. -/
  not_failed : ∀ d ∈ s.deliveries, d.stage ≠ .failed
  /-- Settled deliveries of one id have one worker and one envelope. -/
  agree : ∀ d ∈ s.deliveries, ∀ d' ∈ s.deliveries, d.stage.isSettled = true →
    d'.stage.isSettled = true → d.requestId = d'.requestId →
    d.worker = d'.worker ∧ d.stage.envelope = d'.stage.envelope
  /-- The envelope of a settled delivery is in the cache until it expires. -/
  cached : ∀ d ∈ s.deliveries, d.stage.isSettled = true →
    ∃ e t, d.stage.envelope = some e ∧ ⟨d.worker, d.requestId, t⟩ ∈ s.stores ∧
      (s.clock < t + cfg.ttlMs →
        DedupCache.lookup (s.cache d.worker).entries d.requestId = some ⟨e, t + cfg.ttlMs⟩)
  /-- What is in a cache comes from a settled delivery. -/
  sound : ∀ w id entry, DedupCache.lookup (s.cache w).entries id = some entry →
    ∃ d ∈ s.deliveries, d.worker = w ∧ d.requestId = id ∧ d.stage.isSettled = true ∧
      d.stage.envelope = some entry.response
  /-- Executed ids are those of deliveries past their miss. -/
  executed : ∀ id ∈ s.executions, ∃ d ∈ s.deliveries, d.requestId = id ∧ d.stage ≠ .missed
  once : ∀ id, s.executions.count id ≤ 1

variable {cfg : DedupConfig} {s : DeliveryRun}

/-- A delivery that is neither open nor failed is settled. -/
theorem Stage.isSettled_of_not_isOpen {stage : Stage} (hopen : stage.isOpen = false)
    (hfailed : stage ≠ .failed) : stage.isSettled = true := by
  cases stage with
  | missed => exact absurd hopen (by decide)
  | executing => exact absurd hopen (by decide)
  | responded e => exact absurd hopen (by simp [Stage.isOpen])
  | stored e => rfl
  | answered r => rfl
  | failed => exact absurd rfl hfailed

/-! ## One delivery moves on -/

theorem setStage_getElem {i : ℕ} {d : Delivery} (hd : s.deliveries[i]? = some d) (stage : Stage)
    (j : ℕ) : (s.setStage i d stage).deliveries[j]? =
      if i = j then some { d with stage } else s.deliveries[j]? := by
  have hi : i < s.deliveries.length := (List.getElem?_eq_some_iff.mp hd).1
  rw [DeliveryRun.setStage, List.getElem?_set]
  by_cases hij : i = j
  · subst hij
    simp [hi]
  · simp [hij]

/-- After a move a delivery is the one that moved, or is at its old place. -/
theorem mem_setStage {i : ℕ} {d : Delivery} (hd : s.deliveries[i]? = some d) {stage : Stage}
    {x : Delivery} (hx : x ∈ (s.setStage i d stage).deliveries) :
    x = { d with stage } ∨ ∃ j, j ≠ i ∧ s.deliveries[j]? = some x := by
  obtain ⟨j, hj⟩ := List.getElem?_of_mem hx
  rw [setStage_getElem hd] at hj
  split at hj
  · exact Or.inl (Option.some.inj hj).symm
  · next hij => exact Or.inr ⟨j, fun h => hij h.symm, hj⟩

theorem mem_setStage_self {i : ℕ} {d : Delivery} (hd : s.deliveries[i]? = some d)
    (stage : Stage) : { d with stage } ∈ (s.setStage i d stage).deliveries := by
  refine List.mem_of_getElem? (i := i) ?_
  rw [setStage_getElem hd, if_pos rfl]

theorem mem_setStage_of_ne {i j : ℕ} {d x : Delivery} (hd : s.deliveries[i]? = some d)
    (stage : Stage) (hx : s.deliveries[j]? = some x) (hij : j ≠ i) :
    x ∈ (s.setStage i d stage).deliveries := by
  refine List.mem_of_getElem? (i := j) ?_
  rw [setStage_getElem hd, if_neg fun h => hij h.symm]
  exact hx

/-- **A move that leaves the settled deliveries alone** keeps the invariant. -/
theorem DeliveryInv.setStage_unsettled (h : DeliveryInv cfg s) {i : ℕ} {d : Delivery}
    (hd : s.deliveries[i]? = some d) (stage : Stage) (hold : d.stage.isSettled = false)
    (hnew : stage.isSettled = false) (hfailed : stage ≠ .failed) (hmissed : stage ≠ .missed) :
    DeliveryInv cfg (s.setStage i d stage) := by
  have hsettled : ∀ x ∈ (s.setStage i d stage).deliveries, x.stage.isSettled = true →
      x ∈ s.deliveries := by
    intro x hx hsx
    rcases mem_setStage hd hx with rfl | ⟨j, -, hj⟩
    · exact absurd hsx (by simp [hnew])
    · exact List.mem_of_getElem? hj
  have hkept : ∀ x ∈ s.deliveries, x.stage.isSettled = true →
      x ∈ (s.setStage i d stage).deliveries := by
    intro x hx hsx
    obtain ⟨j, hj⟩ := List.getElem?_of_mem hx
    refine mem_setStage_of_ne hd stage hj ?_
    rintro rfl
    obtain rfl : d = x := Option.some.inj (hd.symm.trans hj)
    exact absurd hsx (by simp [hold])
  refine ⟨?_, ?_, ?_, ?_, ?_, ?_, h.once⟩
  · intro a b x y hx hy hunsettled hid
    rw [setStage_getElem hd] at hx hy
    have hx' : ∃ x', s.deliveries[a]? = some x' ∧ x'.stage.isSettled = false ∧
        x'.requestId = x.requestId := by
      split at hx
      · next hia =>
        subst hia
        obtain rfl := Option.some.inj hx
        exact ⟨d, hd, hold, rfl⟩
      · exact ⟨x, hx, hunsettled, rfl⟩
    have hy' : ∃ y', s.deliveries[b]? = some y' ∧ y'.requestId = y.requestId := by
      split at hy
      · next hib =>
        subst hib
        obtain rfl := Option.some.inj hy
        exact ⟨d, hd, rfl⟩
      · exact ⟨y, hy, rfl⟩
    obtain ⟨x', hx', hux, hidx⟩ := hx'
    obtain ⟨y', hy', hidy⟩ := hy'
    exact h.alone a b x' y' hx' hy' hux (by rw [hidx, hid, hidy])
  · intro x hx
    rcases mem_setStage hd hx with rfl | ⟨j, -, hj⟩
    · exact hfailed
    · exact h.not_failed x (List.mem_of_getElem? hj)
  · intro x hx y hy hsx hsy hid
    exact h.agree x (hsettled x hx hsx) y (hsettled y hy hsy) hsx hsy hid
  · intro x hx hsx
    exact h.cached x (hsettled x hx hsx) hsx
  · intro w id entry hlookup
    obtain ⟨x, hx, hw, hid, hsx, henv⟩ := h.sound w id entry hlookup
    exact ⟨x, hkept x hx hsx, hw, hid, hsx, henv⟩
  · intro id hid
    obtain ⟨x, hx, hxid, hxs⟩ := h.executed id hid
    obtain ⟨j, hj⟩ := List.getElem?_of_mem hx
    by_cases hji : j = i
    · subst hji
      obtain rfl : d = x := Option.some.inj (hd.symm.trans hj)
      exact ⟨_, mem_setStage_self hd stage, hxid, hmissed⟩
    · exact ⟨x, mem_setStage_of_ne hd stage hj hji, hxid, hxs⟩

/-- The call of a delivery starts: nobody else has executed its id. -/
theorem DeliveryInv.execute (h : DeliveryInv cfg s) {i : ℕ} {d : Delivery}
    (hd : s.deliveries[i]? = some d) (hstage : d.stage = .missed) :
    DeliveryInv cfg
      { s.setStage i d .executing with executions := d.requestId :: s.executions } := by
  have hold : d.stage.isSettled = false := by rw [hstage]; rfl
  have hmove := h.setStage_unsettled hd .executing hold rfl (by simp) (by simp)
  have hfirst : d.requestId ∉ s.executions := by
    intro hmem
    obtain ⟨x, hx, hxid, hxs⟩ := h.executed _ hmem
    obtain ⟨j, hj⟩ := List.getElem?_of_mem hx
    obtain rfl := h.alone i j d x hd hj hold hxid.symm
    obtain rfl : d = x := Option.some.inj (hd.symm.trans hj)
    exact hxs hstage
  refine ⟨hmove.alone, hmove.not_failed, hmove.agree, hmove.cached, hmove.sound, ?_, ?_⟩
  · intro id hid
    rcases List.mem_cons.mp hid with rfl | hid
    · exact ⟨_, mem_setStage_self hd .executing, rfl, by simp⟩
    · exact hmove.executed id hid
  · intro id
    by_cases hid : id = d.requestId
    · subst hid
      rw [List.count_cons_self, List.count_eq_zero_of_not_mem hfirst]
    · rw [List.count_cons_of_ne fun h => hid h.symm]
      exact h.once id

/-- The envelope is stored: the delivery is settled, the only one of its id. -/
theorem DeliveryInv.store (henabled : cfg.enabled = true) (h : DeliveryInv cfg s) {i : ℕ}
    {d : Delivery} (hd : s.deliveries[i]? = some d) {e : Bytes} (hstage : d.stage = .responded e)
    (hroom : (s.cache d.worker).HasRoom cfg) :
    DeliveryInv cfg { s.setStage i d (.stored e) with
      cache := Function.update s.cache d.worker
        ((s.cache d.worker).store cfg s.clock d.requestId e)
      stores := ⟨d.worker, d.requestId, s.clock⟩ :: s.stores } := by
  have hold : d.stage.isSettled = false := by rw [hstage]; rfl
  -- every other delivery has another id
  have hother : ∀ {j : ℕ} {x : Delivery}, j ≠ i → s.deliveries[j]? = some x →
      x.requestId ≠ d.requestId := by
    intro j x hj hx hid
    exact hj (h.alone i j d x hd hx hold hid.symm).symm
  refine ⟨?_, ?_, ?_, ?_, ?_, ?_, h.once⟩
  · intro a b x y hx hy hunsettled hid
    change (s.setStage i d (.stored e)).deliveries[a]? = _ at hx
    change (s.setStage i d (.stored e)).deliveries[b]? = _ at hy
    rw [setStage_getElem hd] at hx hy
    split at hx
    · obtain rfl := Option.some.inj hx
      exact absurd hunsettled (by simp [Stage.isSettled])
    · next hia =>
      split at hy
      · obtain rfl := Option.some.inj hy
        exact absurd hid (hother (fun h => hia h.symm) hx)
      · exact h.alone a b x y hx hy hunsettled hid
  · intro x hx
    rcases mem_setStage hd hx with rfl | ⟨j, -, hj⟩
    · simp
    · exact h.not_failed x (List.mem_of_getElem? hj)
  · intro x hx y hy hsx hsy hid
    rcases mem_setStage hd hx with rfl | ⟨j, hji, hj⟩
    · rcases mem_setStage hd hy with rfl | ⟨k, hki, hk⟩
      · exact ⟨rfl, rfl⟩
      · exact absurd hid.symm (hother hki hk)
    · rcases mem_setStage hd hy with rfl | ⟨k, hki, hk⟩
      · exact absurd hid (hother hji hj)
      · exact h.agree x (List.mem_of_getElem? hj) y (List.mem_of_getElem? hk) hsx hsy hid
  · intro x hx hsx
    rcases mem_setStage hd hx with rfl | ⟨j, hji, hj⟩
    · refine ⟨e, s.clock, rfl, List.mem_cons_self, fun _ => ?_⟩
      simp only [Function.update_self]
      exact (DedupCache.lookup_store henabled s.clock d.requestId e hroom d.requestId).1 rfl
    · obtain ⟨e', t, henv, hstore, hlookup⟩ := h.cached x (List.mem_of_getElem? hj) hsx
      refine ⟨e', t, henv, List.mem_cons_of_mem _ hstore, fun hlt => ?_⟩
      have hthere := hlookup hlt
      by_cases hw : x.worker = d.worker
      · rw [hw] at hthere ⊢
        simp only [Function.update_self]
        exact (DedupCache.lookup_store henabled s.clock d.requestId e hroom x.requestId).2.1
          (hother hji hj) _ hthere hlt
      · simp only [Function.update_of_ne hw]
        exact hthere
  · intro w id entry hlookup
    have hkept : ∀ x ∈ s.deliveries, x.stage.isSettled = true →
        x ∈ (s.setStage i d (.stored e)).deliveries := by
      intro x hx hsx
      obtain ⟨j, hj⟩ := List.getElem?_of_mem hx
      refine mem_setStage_of_ne hd _ hj ?_
      rintro rfl
      obtain rfl : d = x := Option.some.inj (hd.symm.trans hj)
      exact absurd hsx (by simp [hold])
    have hfrom : DedupCache.lookup (s.cache w).entries id = some entry →
        ∃ x ∈ (s.setStage i d (.stored e)).deliveries, x.worker = w ∧ x.requestId = id ∧
          x.stage.isSettled = true ∧ x.stage.envelope = some entry.response := by
      intro hold'
      obtain ⟨x, hx, hxw, hxid, hsx, henv⟩ := h.sound w id entry hold'
      exact ⟨x, hkept x hx hsx, hxw, hxid, hsx, henv⟩
    simp only at hlookup
    by_cases hw : w = d.worker
    · subst hw
      rw [Function.update_self] at hlookup
      obtain ⟨hself, -, hback⟩ :=
        DedupCache.lookup_store henabled s.clock d.requestId e hroom id
      by_cases hid : id = d.requestId
      · obtain rfl := Option.some.inj ((hself hid).symm.trans hlookup)
        exact ⟨_, mem_setStage_self hd _, rfl, hid.symm, rfl, rfl⟩
      · exact hfrom (hback hid entry hlookup)
    · rw [Function.update_of_ne hw] at hlookup
      exact hfrom hlookup
  · intro id hid
    obtain ⟨x, hx, hxid, hxs⟩ := h.executed id hid
    obtain ⟨j, hj⟩ := List.getElem?_of_mem hx
    by_cases hji : j = i
    · subst hji
      obtain rfl : d = x := Option.some.inj (hd.symm.trans hj)
      exact ⟨_, mem_setStage_self hd _, hxid, by simp⟩
    · exact ⟨x, mem_setStage_of_ne hd _ hj hji, hxid, hxs⟩

/-- The reply goes out: the delivery stays settled, with its envelope. -/
theorem DeliveryInv.reply (h : DeliveryInv cfg s) {i : ℕ} {d : Delivery}
    (hd : s.deliveries[i]? = some d) {e : Bytes} (hstage : d.stage = .stored e) :
    DeliveryInv cfg (s.setStage i d (.answered e)) := by
  have hold : d.stage.isSettled = true := by rw [hstage]; rfl
  have henvelope : d.stage.envelope = some e := by rw [hstage]; rfl
  -- each delivery is one of before, up to the stage of the one that moved
  have hback : ∀ {j : ℕ} {x : Delivery}, (s.setStage i d (.answered e)).deliveries[j]? = some x →
      ∃ x', s.deliveries[j]? = some x' ∧ x'.worker = x.worker ∧ x'.requestId = x.requestId ∧
        x'.stage.isSettled = x.stage.isSettled ∧ x'.stage.envelope = x.stage.envelope := by
    intro j x hx
    rw [setStage_getElem hd] at hx
    split at hx
    · next hij =>
      subst hij
      obtain rfl := Option.some.inj hx
      exact ⟨d, hd, rfl, rfl, hold, henvelope⟩
    · exact ⟨x, hx, rfl, rfl, rfl, rfl⟩
  have hforth : ∀ {j : ℕ} {x : Delivery}, s.deliveries[j]? = some x →
      ∃ x' ∈ (s.setStage i d (.answered e)).deliveries, x'.worker = x.worker ∧
        x'.requestId = x.requestId ∧ x'.stage.isSettled = x.stage.isSettled ∧
        x'.stage.envelope = x.stage.envelope ∧ (x.stage ≠ .missed → x'.stage ≠ .missed) := by
    intro j x hx
    by_cases hji : j = i
    · subst hji
      obtain rfl : d = x := Option.some.inj (hd.symm.trans hx)
      exact ⟨_, mem_setStage_self hd _, rfl, rfl, hold.symm, henvelope.symm, fun _ => by simp⟩
    · exact ⟨x, mem_setStage_of_ne hd _ hx hji, rfl, rfl, rfl, rfl, id⟩
  have hmem : ∀ x ∈ (s.setStage i d (.answered e)).deliveries,
      ∃ x' ∈ s.deliveries, x'.worker = x.worker ∧ x'.requestId = x.requestId ∧
        x'.stage.isSettled = x.stage.isSettled ∧ x'.stage.envelope = x.stage.envelope := by
    intro x hx
    obtain ⟨j, hj⟩ := List.getElem?_of_mem hx
    obtain ⟨x', hx', hrest⟩ := hback hj
    exact ⟨x', List.mem_of_getElem? hx', hrest⟩
  refine ⟨?_, ?_, ?_, ?_, ?_, ?_, h.once⟩
  · intro a b x y hx hy hunsettled hid
    obtain ⟨x', hx', -, hidx, hsx, -⟩ := hback hx
    obtain ⟨y', hy', -, hidy, -, -⟩ := hback hy
    exact h.alone a b x' y' hx' hy' (hsx.trans hunsettled) (by rw [hidx, hid, hidy])
  · intro x hx
    rcases mem_setStage hd hx with rfl | ⟨j, -, hj⟩
    · simp
    · exact h.not_failed x (List.mem_of_getElem? hj)
  · intro x hx y hy hsx hsy hid
    obtain ⟨x', hx', hwx, hidx, hsx', hex⟩ := hmem x hx
    obtain ⟨y', hy', hwy, hidy, hsy', hey⟩ := hmem y hy
    obtain ⟨hw, he⟩ := h.agree x' hx' y' hy' (hsx'.trans hsx) (hsy'.trans hsy)
      (by rw [hidx, hid, hidy])
    exact ⟨by rw [← hwx, hw, hwy], by rw [← hex, he, hey]⟩
  · intro x hx hsx
    obtain ⟨x', hx', hwx, hidx, hsx', hex⟩ := hmem x hx
    obtain ⟨e', t, henv, hstore, hlookup⟩ := h.cached x' hx' (hsx'.trans hsx)
    rw [hwx, hidx] at hstore hlookup
    exact ⟨e', t, hex.symm.trans henv, hstore, hlookup⟩
  · intro w id entry hlookup
    obtain ⟨x, hx, hw, hid, hsx, henv⟩ := h.sound w id entry hlookup
    obtain ⟨j, hj⟩ := List.getElem?_of_mem hx
    obtain ⟨x', hx', hwx, hidx, hsx', hex, -⟩ := hforth hj
    exact ⟨x', hx', hwx.trans hw, hidx.trans hid, hsx'.trans hsx, hex.trans henv⟩
  · intro id hid
    obtain ⟨x, hx, hxid, hxs⟩ := h.executed id hid
    obtain ⟨j, hj⟩ := List.getElem?_of_mem hx
    obtain ⟨x', hx', -, hidx, -, -, hmissed⟩ := hforth hj
    exact ⟨x', hx', hidx.trans hxid, hmissed hxs⟩

/-! ## A delivery comes -/

/-- The cache of the looking worker after a lookup. -/
def DeliveryRun.afterFind (cfg : DedupConfig) (s : DeliveryRun) (worker : ℕ) (requestId : Bytes) :
    ℕ → DedupCache :=
  Function.update s.cache worker ((s.cache worker).find cfg s.clock requestId).2

/-- A lookup leaves every entry that has not expired, and adds none. -/
theorem lookup_afterFind (worker : ℕ) (requestId : Bytes) (w : ℕ) (id : Bytes) :
    (∀ e, DedupCache.lookup (s.cache w).entries id = some e → s.clock < e.expiresAtMs →
      DedupCache.lookup (s.afterFind cfg worker requestId w).entries id = some e) ∧
    (∀ e, DedupCache.lookup (s.afterFind cfg worker requestId w).entries id = some e →
      DedupCache.lookup (s.cache w).entries id = some e) := by
  unfold DeliveryRun.afterFind
  by_cases hw : w = worker
  · subst hw
    rw [Function.update_self]
    exact DedupCache.lookup_find cfg s.clock requestId id (s.cache w)
  · rw [Function.update_of_ne hw]
    exact ⟨fun e he _ => he, fun e he => he⟩

/-- Adding a delivery to the list, with the cache of a lookup: what has to be
known about the new one. -/
theorem DeliveryInv.append (h : DeliveryInv cfg s) {worker : ℕ} {requestId : Bytes}
    {x : Delivery}
    (halone : ∀ y ∈ s.deliveries, x.requestId = y.requestId →
      x.stage.isSettled = true ∧ y.stage.isSettled = true)
    (hfailed : x.stage ≠ .failed)
    (hlike : x.stage.isSettled = true → ∃ y ∈ s.deliveries, y.stage.isSettled = true ∧
      y.worker = x.worker ∧ y.requestId = x.requestId ∧ y.stage.envelope = x.stage.envelope) :
    DeliveryInv cfg { s with
      cache := s.afterFind cfg worker requestId
      deliveries := s.deliveries ++ [x] } := by
  have hget : ∀ {j : ℕ} {y : Delivery}, (s.deliveries ++ [x])[j]? = some y →
      s.deliveries[j]? = some y ∨ (j = s.deliveries.length ∧ y = x) := by
    intro j y hy
    rcases Nat.lt_or_ge j s.deliveries.length with hj | hj
    · rw [List.getElem?_append_left hj] at hy
      exact Or.inl hy
    · rw [List.getElem?_append_right hj] at hy
      obtain ⟨hzero, hyx⟩ : j - s.deliveries.length = 0 ∧ x = y := by
        rcases Nat.eq_zero_or_pos (j - s.deliveries.length) with hz | hp
        · rw [hz] at hy
          exact ⟨hz, Option.some.inj hy⟩
        · exact absurd hy (by simp [Nat.ne_of_gt hp])
      exact Or.inr ⟨by omega, hyx.symm⟩
  -- a settled delivery, old or new, looks like an old one
  have hsettled : ∀ y ∈ s.deliveries ++ [x], y.stage.isSettled = true →
      ∃ y' ∈ s.deliveries, y'.stage.isSettled = true ∧ y'.worker = y.worker ∧
        y'.requestId = y.requestId ∧ y'.stage.envelope = y.stage.envelope := by
    intro y hy hsy
    rcases List.mem_append.mp hy with hy | hy
    · exact ⟨y, hy, hsy, rfl, rfl, rfl⟩
    · obtain rfl := List.mem_singleton.mp hy
      exact hlike hsy
  refine ⟨?_, ?_, ?_, ?_, ?_, ?_, h.once⟩
  · intro a b y z hy hz hunsettled hid
    rcases hget hy with hy' | ⟨ha, hyx⟩
    · rcases hget hz with hz' | ⟨hb, hzx⟩
      · exact h.alone a b y z hy' hz' hunsettled hid
      · rw [hzx] at hid
        have := (halone y (List.mem_of_getElem? hy') hid.symm).2
        exact absurd this (by simp [hunsettled])
    · rcases hget hz with hz' | ⟨hb, hzx⟩
      · rw [hyx] at hid hunsettled
        have := (halone z (List.mem_of_getElem? hz') hid).1
        exact absurd this (by simp [hunsettled])
      · rw [ha, hb]
  · intro y hy
    rcases List.mem_append.mp hy with hy | hy
    · exact h.not_failed y hy
    · obtain rfl := List.mem_singleton.mp hy
      exact hfailed
  · intro y hy z hz hsy hsz hid
    obtain ⟨y', hy', hsy', hwy, hidy, hey⟩ := hsettled y hy hsy
    obtain ⟨z', hz', hsz', hwz, hidz, hez⟩ := hsettled z hz hsz
    obtain ⟨hw, he⟩ := h.agree y' hy' z' hz' hsy' hsz' (by rw [hidy, hid, hidz])
    exact ⟨by rw [← hwy, hw, hwz], by rw [← hey, he, hez]⟩
  · intro y hy hsy
    obtain ⟨y', hy', hsy', hwy, hidy, hey⟩ := hsettled y hy hsy
    obtain ⟨e, t, henv, hstore, hlookup⟩ := h.cached y' hy' hsy'
    rw [hwy, hidy] at hstore hlookup
    refine ⟨e, t, hey.symm.trans henv, hstore, fun hlt => ?_⟩
    exact (lookup_afterFind worker requestId y.worker y.requestId).1 _ (hlookup hlt) hlt
  · intro w id entry hlookup
    obtain ⟨y, hy, hrest⟩ :=
      h.sound w id entry ((lookup_afterFind worker requestId w id).2 entry hlookup)
    exact ⟨y, List.mem_append_left _ hy, hrest⟩
  · intro id hid
    obtain ⟨y, hy, hrest⟩ := h.executed id hid
    exact ⟨y, List.mem_append_left _ hy, hrest⟩

/-- **A lookup**, when it comes one at a time and within the TTL: it hits if the
id has been delivered before, and is the first delivery otherwise. -/
theorem DeliveryInv.find (henabled : cfg.enabled = true) (h : DeliveryInv cfg s) {worker : ℕ}
    {requestId : Bytes} (hdomain : InDomain cfg s (.find worker requestId))
    (hone : OneAtATime s (.find worker requestId)) {s' : DeliveryRun}
    (hstep : deliveryStep cfg s (.find worker requestId) = some s') : DeliveryInv cfg s' := by
  have hsettled : ∀ d ∈ s.deliveries, d.requestId = requestId → d.stage.isSettled = true :=
    fun d hd hid => Stage.isSettled_of_not_isOpen (hone d hd hid).2 (h.not_failed d hd)
  have hhit := DedupCache.find_eq_some_iff henabled s.clock requestId (s.cache worker)
  simp only [deliveryStep] at hstep
  obtain rfl := Option.some.inj hstep
  cases hfind : ((s.cache worker).find cfg s.clock requestId).1 with
  | some cached =>
    obtain ⟨entry, hlookup, -, hresponse⟩ := (hhit cached).mp hfind
    obtain ⟨d, hd, hw, hid, hsd, henv⟩ := h.sound worker requestId entry hlookup
    refine h.append (fun y hy hxy => ⟨rfl, hsettled y hy hxy.symm⟩) (by simp) fun _ => ?_
    exact ⟨d, hd, hsd, hw, hid, by rw [henv, hresponse]; rfl⟩
  | none =>
    -- a delivery of the id would have its envelope in the cache
    have hnone : ∀ y ∈ s.deliveries, y.requestId ≠ requestId := by
      intro y hy hid
      obtain ⟨e, t, -, hstore, hlookup⟩ := h.cached y hy (hsettled y hy hid)
      have hw := (hone y hy hid).1
      rw [hw, hid] at hstore hlookup
      have hlt := hdomain _ hstore rfl rfl
      have := (hhit e).mpr ⟨_, hlookup hlt, hlt, rfl⟩
      exact absurd (hfind.symm.trans this) (by simp)
    refine h.append (fun y hy hxy => absurd hxy.symm (hnone y hy)) (by simp) fun hs => ?_
    exact absurd hs (by simp [Stage.isSettled])

/-! ## Runs -/

/-- **One step keeps the invariant.** -/
theorem deliveryInv_step (henabled : cfg.enabled = true) {e : DeliveryEvent} {s' : DeliveryRun}
    (h : DeliveryInv cfg s) (hmeet : InDomain cfg s e ∧ OneAtATime s e)
    (hstep : deliveryStep cfg s e = some s') : DeliveryInv cfg s' := by
  obtain ⟨hdomain, hone⟩ := hmeet
  cases e with
  | tick ms =>
    obtain rfl := Option.some.inj hstep
    refine ⟨h.alone, h.not_failed, h.agree, fun d hd hs => ?_, h.sound, h.executed, h.once⟩
    obtain ⟨e, t, henv, hstore, hlookup⟩ := h.cached d hd hs
    refine ⟨e, t, henv, hstore, fun hlt => hlookup ?_⟩
    change s.clock + ms < _ at hlt
    omega
  | find worker requestId => exact h.find henabled hdomain hone hstep
  | execute i =>
    simp only [deliveryStep] at hstep
    split at hstep
    · next d hd =>
      split at hstep
      · next hstage =>
        obtain rfl := Option.some.inj hstep
        exact h.execute hd hstage
      · exact absurd hstep (by simp)
    · exact absurd hstep (by simp)
  | respond i envelope =>
    simp only [deliveryStep] at hstep
    split at hstep
    · next d hd =>
      split at hstep
      · next hstage =>
        cases envelope with
        | none => exact absurd rfl hone
        | some e =>
          obtain rfl := Option.some.inj hstep
          exact h.setStage_unsettled hd (.responded e) (by rw [hstage]; rfl) rfl (by simp) (by simp)
      · exact absurd hstep (by simp)
    · exact absurd hstep (by simp)
  | store i =>
    simp only [deliveryStep] at hstep
    split at hstep
    · next d hd =>
      split at hstep
      · next e hstage =>
        obtain rfl := Option.some.inj hstep
        exact h.store henabled hd hstage (hdomain d hd)
      · exact absurd hstep (by simp)
    · exact absurd hstep (by simp)
  | reply i =>
    simp only [deliveryStep] at hstep
    split at hstep
    · next d hd =>
      split at hstep
      · next e hstage =>
        obtain rfl := Option.some.inj hstep
        exact h.reply hd hstage
      · exact absurd hstep (by simp)
    · exact absurd hstep (by simp)

theorem deliveryInv_initial : DeliveryInv cfg initialDelivery := by
  refine ⟨?_, ?_, ?_, ?_, ?_, ?_, ?_⟩ <;>
    simp [initialDelivery, DedupCache.empty, DedupCache.lookup]

/-- The invariant is more than what is asked for. -/
theorem DeliveryInv.atMostOnce (h : DeliveryInv cfg s) : AtMostOnce s := by
  refine ⟨h.once, fun d hd d' hd' hid e e' he he' => ?_⟩
  obtain ⟨i, hi⟩ := List.getElem?_of_mem hd
  obtain ⟨j, hj⟩ := List.getElem?_of_mem hd'
  by_cases hs : d.stage.isSettled = true ∧ d'.stage.isSettled = true
  · have := (h.agree d hd d' hd' hs.1 hs.2 hid).2
    exact Option.some.inj (he.symm.trans (this.trans he'))
  · -- one of the two is not settled, so they are the same delivery
    have hij : i = j := by
      rcases not_and_or.mp hs with hs | hs
      · exact h.alone i j d d' hi hj (by simpa using hs) hid
      · exact (h.alone j i d' d hj hi (by simpa using hs) hid.symm).symm
    subst hij
    obtain rfl : d = d' := Option.some.inj (hi.symm.trans hj)
    exact Option.some.inj (he.symm.trans he')

/-- **At most once, one at a time.**  With dedup enabled, in every run that
keeps within the TTL and the capacity and whose deliveries of an id come one at
a time to one worker, every state is `AtMostOnce`. -/
theorem atMostOnce_of_oneAtATime (henabled : cfg.enabled = true) {es : List DeliveryEvent}
    (hmeet : StepsMeet (deliveryStep cfg) (fun s e => InDomain cfg s e ∧ OneAtATime s e)
      initialDelivery es) :
    Always (deliveryStep cfg) AtMostOnce initialDelivery es := by
  exact always_of_stepsMeet (fun s e s' h hmeet hstep => deliveryInv_step henabled h hmeet hstep)
    (fun s h => h.atMostOnce) deliveryInv_initial hmeet

/-- A cache of four entries that keeps them for a minute. -/
def smallCache : DedupConfig := { enabled := true, maxEntries := 4, ttlMs := 60000 }

/-- The second delivery looks the id up while the first is at the L2 server. -/
def overlapping : List DeliveryEvent :=
  [.find 0 (ascii "r1"), .execute 0, .find 0 (ascii "r1"), .execute 1]

/-- The second delivery goes to another worker of the queue group. -/
def otherWorker : List DeliveryEvent :=
  [.find 0 (ascii "r1"), .execute 0, .respond 0 (some (ascii "ok")), .store 0, .reply 0,
    .find 1 (ascii "r1"), .execute 1]

/-- Both runs keep within the TTL and the capacity, and execute the request
twice. -/
theorem not_atMostOnce_overlapping :
    StepsMeet (deliveryStep smallCache) (InDomain smallCache) initialDelivery overlapping ∧
    (∃ s, run (deliveryStep smallCache) initialDelivery overlapping = some s ∧
      s.executions.count (ascii "r1") = 2) ∧
    ¬ Always (deliveryStep smallCache) AtMostOnce initialDelivery overlapping ∧
    StepsMeet (deliveryStep smallCache) (InDomain smallCache) initialDelivery otherWorker ∧
    ∃ s, run (deliveryStep smallCache) initialDelivery otherWorker = some s ∧
      s.executions.count (ascii "r1") = 2 := by
  refine ⟨?_, ⟨_, rfl, by decide⟩, ?_, ?_, ⟨_, rfl, by decide⟩⟩
  · refine stepsMeet_cons_of_step (fun r hr => nomatch hr) rfl ?_
    refine stepsMeet_cons_of_step trivial rfl ?_
    refine stepsMeet_cons_of_step (fun r hr => nomatch hr) rfl ?_
    exact stepsMeet_cons_of_step trivial rfl trivial
  · intro h
    have := (always_iff.mp h overlapping [] _ (List.append_nil _).symm rfl).once (ascii "r1")
    exact absurd this (by decide)
  · refine stepsMeet_cons_of_step (fun r hr => nomatch hr) rfl ?_
    refine stepsMeet_cons_of_step trivial rfl ?_
    refine stepsMeet_cons_of_step trivial rfl ?_
    refine stepsMeet_cons_of_step (fun d hd => ?_) rfl ?_
    · obtain rfl := Option.some.inj hd
      exact Or.inr (by decide)
    refine stepsMeet_cons_of_step trivial rfl ?_
    refine stepsMeet_cons_of_step (fun r hr hw _ => ?_) rfl ?_
    · obtain rfl := List.mem_singleton.mp hr
      exact absurd hw (by decide)
    exact stepsMeet_cons_of_step trivial rfl trivial

/-- A re-sent request that comes after the reply, to the same worker. -/
def resent : List DeliveryEvent :=
  [.find 0 (ascii "r1"), .execute 0, .respond 0 (some (ascii "ok")), .store 0, .reply 0,
    .tick 1000, .find 0 (ascii "r1")]

/-- It is answered from the cache. -/
theorem atMostOnce_at_resent :
    Always (deliveryStep smallCache) AtMostOnce initialDelivery resent ∧
    ∃ s, run (deliveryStep smallCache) initialDelivery resent = some s ∧
      s.executions = [ascii "r1"] ∧
      s.deliveries.map Delivery.stage = [.answered (ascii "ok"), .answered (ascii "ok")] := by
  refine ⟨atMostOnce_of_oneAtATime rfl ?_, ⟨_, rfl, rfl, rfl⟩⟩
  refine stepsMeet_cons_of_step ⟨(fun r hr => nomatch hr), (fun d hd => nomatch hd)⟩ rfl ?_
  refine stepsMeet_cons_of_step ⟨trivial, trivial⟩ rfl ?_
  refine stepsMeet_cons_of_step ⟨trivial, by simp [OneAtATime]⟩ rfl ?_
  refine stepsMeet_cons_of_step ⟨fun d hd => ?_, trivial⟩ rfl ?_
  · obtain rfl := Option.some.inj hd
    exact Or.inr (by decide)
  refine stepsMeet_cons_of_step ⟨trivial, trivial⟩ rfl ?_
  refine stepsMeet_cons_of_step ⟨trivial, trivial⟩ rfl ?_
  refine stepsMeet_cons_of_step ⟨fun r hr _ _ => ?_, fun d hd _ => ?_⟩ rfl trivial
  · obtain rfl := List.mem_singleton.mp hr
    decide
  · obtain rfl := List.mem_singleton.mp hd
    exact ⟨rfl, rfl⟩

end Worker
end HttpDataDiod
