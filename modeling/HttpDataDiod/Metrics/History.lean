import HttpDataDiod.Lib.Decimal
import HttpDataDiod.Lib.LinkedMap
import HttpDataDiod.Lib.Transition
import Mathlib.Algebra.Group.Action.Defs
import Mathlib.Algebra.Order.BigOperators.Group.List
import Mathlib.Algebra.Order.Ring.Nat
import Mathlib.Data.Finset.Card
import Mathlib.Data.List.Chain

/-!
# The history of the metrics

`MetricsHistory` keeps the last points of every metric for the sparklines of the stats page.
A round of `sample` goes through the families that the registry shows, takes at most
`m_max_series_per_family` metrics of each, and appends a point to the series of their labels.
A series is a ring of `m_max_samples` points; but no series is ever taken out of the store, so
that the limit on the series of a family is one on the metrics of a round only.

* `sample`: one round.
* `HistoryBounded`: the bound on the store.
* `bounded_iff_sampledKeys`: it holds throughout exactly when no family shows more series in
  all rounds together than it may in one.
* `labels_outgrow_limit`: one new label a round.
-/

namespace HttpDataDiod
namespace Metrics

open ByteText LinkedMap Transition

/-! ## The registry -/

/-- `prometheus::ClientMetric::Label`. -/
structure Label where
  name : Bytes
  value : Bytes

/-- `prometheus::MetricType`. -/
inductive MetricType where
  | counter | gauge | summary | untyped | histogram | info

/-- `prometheus::ClientMetric`. -/
structure ClientMetric where
  label : List Label
  counterValue : Float
  gaugeValue : Float
  summarySampleCount : UInt64
  histogramSampleCount : UInt64

/-- `prometheus::MetricFamily`. -/
structure MetricFamily where
  name : Bytes
  type : MetricType
  metric : List ClientMetric

/-- `mh_format_labels`. -/
def mhFormatLabels (labels : List Label) : Bytes :=
  if labels.isEmpty then []
  else
    ascii "\x7b" ++
      (ascii ", ").intercalate (labels.map fun l => l.name ++ ascii "=" ++ l.value) ++
      ascii "\x7d"

/-- `extract_value`. -/
def extractValue (m : ClientMetric) : MetricType → Float
  | .counter => m.counterValue
  | .gauge => m.gaugeValue
  | .histogram => m.histogramSampleCount.toFloat
  | .summary => m.summarySampleCount.toFloat
  | _ => 0.0

/-! ## The store -/

/-- The points of a series, the newest last. -/
abbrev Points := List (ℤ × Float)

/-- The series of a family, by their labels. -/
abbrev SeriesMap := List (Bytes × Points)

/-- `m_store.m_data`. -/
abbrev Store := List (Bytes × SeriesMap)

/-- `MetricsHistory::Config`, as far as a round reads it. -/
structure HistoryConfig where
  hasRegistry : Bool
  maxSeriesPerFamily : ℕ
  maxSamples : ℕ

/-- `g_sample_outcomes`. -/
inductive SampleOutcome where
  | ok | error | noRegistry
  deriving DecidableEq

/-- The store, and the metrics about the rounds themselves, if there are any. -/
structure HistoryState where
  data : Store
  samples : Option (SampleOutcome → ℕ)
  bufferSize : Option ℕ

/-- `stored_points_locked`. -/
def storedPoints (data : Store) : ℕ :=
  (data.map fun family => (family.2.map fun series => series.2.length).sum).sum

/-- `count_sample`. -/
def countSample (outcome : SampleOutcome) (s : HistoryState) : HistoryState :=
  { s with samples := s.samples.map fun counts => fun o =>
      if o = outcome then counts o + 1 else counts o }

/-- A new point at the end of a series. -/
def pushPoint (maxSamples : ℕ) (now : ℤ) (val : Float) (buf : Points) : Points :=
  if maxSamples < (buf ++ [(now, val)]).length then (buf ++ [(now, val)]).tail
  else buf ++ [(now, val)]

/-- The value of a metric goes to a new point, or to the last one if that is of this second. -/
def addPoint (maxSamples : ℕ) (now : ℤ) (val : Float) (buf : Points) : Points :=
  match buf.getLast? with
  | none => pushPoint maxSamples now val buf
  | some last =>
    if last.1 ≠ now then pushPoint maxSamples now val buf else buf.dropLast ++ [(last.1, val)]

/-- The loop of `sample` over the metrics of a family. -/
def sampleMetrics (cfg : HistoryConfig) (now : ℤ) (type : MetricType) :
    ℕ → List ClientMetric → SeriesMap → SeriesMap
  | _, [], smap => smap
  | stored, metric :: rest, smap =>
    if cfg.maxSeriesPerFamily ≤ stored then smap
    else
      sampleMetrics cfg now type (stored + 1) rest
        (upsert smap (mhFormatLabels metric.label) []
          (addPoint cfg.maxSamples now (extractValue metric type)))

/-- The body of the loop of `sample` over the families. -/
def sampleFamily (cfg : HistoryConfig) (now : ℤ) (data : Store) (family : MetricFamily) : Store :=
  if family.metric.isEmpty then data
  else upsert data family.name [] (sampleMetrics cfg now family.type 0 family.metric)

/-- What a round meets: the families that are collected, or an exception, and the clock. -/
structure Round where
  collected : Option (List MetricFamily)
  now : ℤ

/-- `sample`. -/
def sample (cfg : HistoryConfig) (s : HistoryState) (round : Round) : HistoryState :=
  if !cfg.hasRegistry then countSample .noRegistry s
  else
    match round.collected with
    | none => countSample .error s
    | some families =>
      let data := families.foldl (sampleFamily cfg round.now) s.data
      { countSample .ok s with
        data := data
        bufferSize := s.bufferSize.map fun _ => storedPoints data }

/-- Before the first round, with the metrics that the constructor is given. -/
def initialHistory (samples : Option (SampleOutcome → ℕ)) (bufferSize : Option ℕ) :
    HistoryState where
  data := []
  samples := samples
  bufferSize := bufferSize

/-! ## The bound -/

/-- A series: its length, and no two points in a row of one time. -/
structure PointsBounded (maxSamples : ℕ) (points : Points) : Prop where
  length_le : points.length ≤ maxSamples
  usable : (points.map Prod.fst).IsChain (· ≠ ·)

/-- The store is bounded as the header says. -/
structure HistoryBounded (cfg : HistoryConfig) (s : HistoryState) : Prop where
  series_le : ∀ family ∈ s.data, family.2.length ≤ cfg.maxSeriesPerFamily
  points : ∀ family ∈ s.data, ∀ series ∈ family.2, PointsBounded cfg.maxSamples series.2
  total_le : storedPoints s.data ≤ s.data.length * cfg.maxSeriesPerFamily * cfg.maxSamples

/-- The keys that a family of the registry gives in a round. -/
def familyKeys (cfg : HistoryConfig) (family : MetricFamily) : List Bytes :=
  (family.metric.take cfg.maxSeriesPerFamily).map fun metric => mhFormatLabels metric.label

/-- The keys under a name in a round. -/
def roundKeys (cfg : HistoryConfig) (name : Bytes) (round : Round) : List Bytes :=
  if cfg.hasRegistry then
    ((round.collected.getD []).filter fun family => family.name = name).flatMap (familyKeys cfg)
  else []

/-- The keys under a name in all rounds. -/
def sampledKeys (cfg : HistoryConfig) (name : Bytes) (rounds : List Round) : Finset Bytes :=
  (rounds.flatMap (roundKeys cfg name)).toFinset

/-! ## The series -/

variable {cfg : HistoryConfig} {maxSamples : ℕ} {buf : Points}

theorem pushPoint_bounded (h : PointsBounded maxSamples buf) {now : ℤ}
    (hlast : ∀ last, buf.getLast? = some last → last.1 ≠ now) (val : Float) :
    PointsBounded maxSamples (pushPoint maxSamples now val buf) := by
  have hchain : ((buf ++ [(now, val)]).map Prod.fst).IsChain (· ≠ ·) := by
    rw [List.map_append]
    refine List.isChain_append.mpr ⟨h.usable, List.isChain_singleton now, ?_⟩
    intro t ht t' ht'
    rw [List.getLast?_map] at ht
    obtain ⟨last, hmem, rfl⟩ := Option.map_eq_some_iff.mp ht
    obtain rfl : now = t' := Option.some.inj ht'
    exact hlast last hmem
  have hlength : (buf ++ [(now, val)]).length = buf.length + 1 := List.length_append
  have hle := h.length_le
  unfold pushPoint
  split
  · refine ⟨?_, ?_⟩
    · rw [List.length_tail]
      omega
    · rw [List.map_tail]
      exact hchain.tail
  · next hroom => exact ⟨Nat.not_lt.mp hroom, hchain⟩

theorem addPoint_bounded (h : PointsBounded maxSamples buf) (now : ℤ) (val : Float) :
    PointsBounded maxSamples (addPoint maxSamples now val buf) := by
  unfold addPoint
  split
  · next hnone =>
    refine pushPoint_bounded h (fun last hlast => ?_) val
    rw [hnone] at hlast
    cases hlast
  · next last hlast =>
    split
    · next hne =>
      refine pushPoint_bounded h (fun last' hlast' => ?_) val
      obtain rfl : last = last' := Option.some.inj (hlast.symm.trans hlast')
      exact hne
    · -- the times stay as they are
      have hbuf : buf = buf.dropLast ++ [last] := (List.dropLast_append_getLast? last hlast).symm
      have htimes : (buf.dropLast ++ [(last.1, val)]).map Prod.fst = buf.map Prod.fst := by
        conv_rhs => rw [hbuf]
        rw [List.map_append, List.map_append]
        rfl
      refine ⟨?_, ?_⟩
      · rw [← List.length_map (f := Prod.fst), htimes, List.length_map]
        exact h.length_le
      · rw [htimes]
        exact h.usable

theorem pointsBounded_nil : PointsBounded maxSamples [] where
  length_le := Nat.zero_le _
  usable := List.isChain_nil

/-! ## The families -/

/-- A family of the store: one series for each key, and each of them bounded. -/
structure SeriesOk (maxSamples : ℕ) (smap : SeriesMap) : Prop where
  nodup : (smap.map Prod.fst).Nodup
  points : ∀ series ∈ smap, PointsBounded maxSamples series.2

theorem seriesOk_nil : SeriesOk maxSamples [] where
  nodup := List.nodup_nil
  points := fun _ h => nomatch h

theorem SeriesOk.upsert {smap : SeriesMap} (h : SeriesOk maxSamples smap) (key : Bytes)
    (now : ℤ) (val : Float) :
    SeriesOk maxSamples (LinkedMap.upsert smap key [] (addPoint maxSamples now val)) where
  nodup := nodup_upsert h.nodup key _ _
  points := forall_mem_upsert h.points (addPoint_bounded pointsBounded_nil now val :)
    fun _ hpoints => addPoint_bounded hpoints now val

/-- The keys of a family of the store. -/
def SeriesMap.keys (smap : SeriesMap) : Finset Bytes := (smap.map Prod.fst).toFinset

theorem SeriesOk.card_keys {smap : SeriesMap} (h : SeriesOk maxSamples smap) :
    (SeriesMap.keys smap).card = smap.length := by
  rw [SeriesMap.keys, List.toFinset_card_of_nodup h.nodup, List.length_map]

theorem sampleMetrics_ok (now : ℤ) (type : MetricType) (metrics : List ClientMetric) {stored : ℕ}
    {smap : SeriesMap} (h : SeriesOk cfg.maxSamples smap) :
    SeriesOk cfg.maxSamples (sampleMetrics cfg now type stored metrics smap) := by
  induction metrics generalizing stored smap with
  | nil => exact h
  | cons metric rest ih =>
    unfold sampleMetrics
    split
    · exact h
    · exact ih (h.upsert _ now _)

/-- The loop adds the keys of the metrics that it comes to. -/
theorem keys_sampleMetrics (now : ℤ) (type : MetricType) (metrics : List ClientMetric)
    (stored : ℕ) (smap : SeriesMap) :
    SeriesMap.keys (sampleMetrics cfg now type stored metrics smap) =
      SeriesMap.keys smap ∪ ((metrics.take (cfg.maxSeriesPerFamily - stored)).map
        fun metric => mhFormatLabels metric.label).toFinset := by
  induction metrics generalizing stored smap with
  | nil => simp [sampleMetrics]
  | cons metric rest ih =>
    unfold sampleMetrics
    split
    · next hfull =>
      rw [Nat.sub_eq_zero_of_le hfull]
      simp
    · next hroom =>
      have hstep : cfg.maxSeriesPerFamily - stored = cfg.maxSeriesPerFamily - (stored + 1) + 1 := by
        omega
      rw [ih, hstep, List.take_succ_cons]
      ext key
      simp only [SeriesMap.keys, Finset.mem_union, List.mem_toFinset, mem_keys_upsert,
        List.map_cons, List.mem_cons]
      tauto

/-! ## The store -/

/-- The store: one entry for each name, and each of them as it should be. -/
structure StoreOk (maxSamples : ℕ) (data : Store) : Prop where
  nodup : (data.map Prod.fst).Nodup
  series : ∀ family ∈ data, SeriesOk maxSamples family.2

/-- The keys that are stored under a name. -/
def storeKeys (name : Bytes) (data : Store) : Finset Bytes :=
  SeriesMap.keys ((lookup data name).getD [])

theorem StoreOk.sampleFamily {data : Store} (h : StoreOk cfg.maxSamples data) (now : ℤ)
    (family : MetricFamily) : StoreOk cfg.maxSamples (sampleFamily cfg now data family) := by
  unfold Metrics.sampleFamily
  split
  · exact h
  · refine ⟨nodup_upsert h.nodup family.name _ _, forall_mem_upsert h.series ?_ ?_⟩
    · exact sampleMetrics_ok now family.type family.metric seriesOk_nil
    · exact fun _ hsmap => sampleMetrics_ok now family.type family.metric hsmap

theorem storeKeys_sampleFamily (now : ℤ) (data : Store) (family : MetricFamily) (name : Bytes) :
    storeKeys name (sampleFamily cfg now data family) =
      storeKeys name data ∪ if family.name = name then (familyKeys cfg family).toFinset else ∅ := by
  unfold sampleFamily
  split
  · next hempty =>
    have hnone : (familyKeys cfg family).toFinset = ∅ := by
      rw [familyKeys, List.isEmpty_iff.mp hempty, List.take_nil]
      rfl
    rw [hnone, ite_self, Finset.union_empty]
  · unfold storeKeys
    rw [lookup_upsert]
    by_cases hname : name = family.name
    · subst hname
      rw [if_pos rfl, if_pos rfl, Option.getD_some, keys_sampleMetrics]
      rfl
    · rw [if_neg hname, if_neg (Ne.symm hname), Finset.union_empty]

theorem foldl_sampleFamily (now : ℤ) (families : List MetricFamily) {data : Store}
    (h : StoreOk cfg.maxSamples data) :
    StoreOk cfg.maxSamples (families.foldl (sampleFamily cfg now) data) ∧
      ∀ name, storeKeys name (families.foldl (sampleFamily cfg now) data) =
        storeKeys name data ∪
          ((families.filter fun family => family.name = name).flatMap
            (familyKeys cfg)).toFinset := by
  induction families generalizing data with
  | nil => exact ⟨h, fun name => by simp⟩
  | cons family families ih =>
    obtain ⟨hok, hkeys⟩ := ih (h.sampleFamily now family)
    refine ⟨hok, fun name => ?_⟩
    rw [List.foldl_cons, hkeys, storeKeys_sampleFamily, Finset.union_assoc, List.filter_cons]
    congr 1
    by_cases hname : family.name = name
    · rw [if_pos hname, if_pos (decide_eq_true hname), List.flatMap_cons, List.toFinset_append]
    · rw [if_neg hname, if_neg (by simpa using hname), Finset.empty_union]

/-- One round: the store stays in order, and gains the keys of the round. -/
theorem sample_spec (round : Round) {s : HistoryState} (h : StoreOk cfg.maxSamples s.data) :
    StoreOk cfg.maxSamples (sample cfg s round).data ∧
      ∀ name, storeKeys name (sample cfg s round).data =
        storeKeys name s.data ∪ (roundKeys cfg name round).toFinset := by
  unfold sample roundKeys
  cases cfg.hasRegistry with
  | false => exact ⟨h, fun name => (Finset.union_empty _).symm⟩
  | true =>
    cases round.collected with
    | none => exact ⟨h, fun name => (Finset.union_empty _).symm⟩
    | some families => exact foldl_sampleFamily round.now families h

theorem storedPoints_le {data : Store} {series samples : ℕ}
    (hseries : ∀ family ∈ data, family.2.length ≤ series)
    (hsamples : ∀ family ∈ data, ∀ s ∈ family.2, s.2.length ≤ samples) :
    storedPoints data ≤ data.length * series * samples := by
  have hfamily : ∀ family ∈ data, (family.2.map fun s => s.2.length).sum ≤ series * samples := by
    intro family hmem
    have hsum := List.sum_le_card_nsmul (family.2.map fun s => s.2.length) samples (by
      intro n hn
      obtain ⟨s, hs, rfl⟩ := List.mem_map.mp hn
      exact hsamples family hmem s hs)
    rw [List.length_map, smul_eq_mul] at hsum
    exact hsum.trans (Nat.mul_le_mul_right _ (hseries family hmem))
  have hsum := List.sum_le_card_nsmul
    (data.map fun family => (family.2.map fun s => s.2.length).sum) (series * samples) (by
      intro n hn
      obtain ⟨family, hmem, rfl⟩ := List.mem_map.mp hn
      exact hfamily family hmem)
  rw [List.length_map, smul_eq_mul, ← Nat.mul_assoc] at hsum
  exact hsum

/-- A state is bounded exactly when its families are. -/
theorem historyBounded_iff {s : HistoryState} (h : StoreOk cfg.maxSamples s.data) :
    HistoryBounded cfg s ↔ ∀ name, (storeKeys name s.data).card ≤ cfg.maxSeriesPerFamily := by
  constructor
  · intro hbounded name
    unfold storeKeys
    cases hlookup : lookup s.data name with
    | none => exact Nat.zero_le _
    | some smap =>
      have hmem := mem_of_lookup hlookup
      rw [Option.getD_some, (h.series _ hmem).card_keys]
      exact hbounded.series_le _ hmem
  · intro hkeys
    have hseries : ∀ family ∈ s.data, family.2.length ≤ cfg.maxSeriesPerFamily := by
      intro family hmem
      have hcard := hkeys family.1
      rw [storeKeys, lookup_of_mem h.nodup hmem, Option.getD_some,
        (h.series family hmem).card_keys] at hcard
      exact hcard
    have hpoints := fun family hmem => (h.series family hmem).points
    refine ⟨hseries, hpoints, storedPoints_le hseries fun family hmem series hs => ?_⟩
    exact (hpoints family hmem series hs).length_le

theorem storeOk_initial {samples : Option (SampleOutcome → ℕ)} {bufferSize : Option ℕ} :
    StoreOk maxSamples (initialHistory samples bufferSize).data where
  nodup := List.nodup_nil
  series := fun _ h => nomatch h

/-- From a store in order on. -/
theorem always_bounded_iff (rounds : List Round) {s : HistoryState}
    (h : StoreOk cfg.maxSamples s.data) :
    Always (fun s round => some (sample cfg s round)) (HistoryBounded cfg) s rounds ↔
      ∀ name, (storeKeys name s.data ∪ sampledKeys cfg name rounds).card ≤
        cfg.maxSeriesPerFamily := by
  induction rounds generalizing s with
  | nil =>
    simp only [sampledKeys, List.flatMap_nil, List.toFinset_nil, Finset.union_empty]
    exact historyBounded_iff h
  | cons round rounds ih =>
    obtain ⟨hok, hkeys⟩ := sample_spec round h
    have hrest : ∀ name, storeKeys name s.data ∪ sampledKeys cfg name (round :: rounds) =
        storeKeys name (sample cfg s round).data ∪ sampledKeys cfg name rounds := by
      intro name
      rw [hkeys, sampledKeys, List.flatMap_cons, List.toFinset_append, Finset.union_assoc]
      rfl
    rw [always_cons_of_step rfl, ih hok, historyBounded_iff h]
    simp only [hrest]
    refine and_iff_right_of_imp fun hcard name => le_trans (Finset.card_le_card ?_) (hcard name)
    rw [hkeys, Finset.union_assoc]
    exact Finset.subset_union_left

/-- For every sequence of rounds: the store is bounded in every state exactly when no family
shows more than `max_series_per_family` keys in all the rounds together, counting the metrics
that are taken in each. -/
theorem bounded_iff_sampledKeys (cfg : HistoryConfig) (samples : Option (SampleOutcome → ℕ))
    (bufferSize : Option ℕ) (rounds : List Round) :
    Always (fun s round => some (sample cfg s round)) (HistoryBounded cfg)
        (initialHistory samples bufferSize) rounds ↔
      ∀ name, (sampledKeys cfg name rounds).card ≤ cfg.maxSeriesPerFamily := by
  rw [always_bounded_iff rounds storeOk_initial]
  refine forall_congr' fun name => ?_
  have hnone : storeKeys name (initialHistory samples bufferSize).data = ∅ := rfl
  rw [hnone, Finset.empty_union]

/-- The limits that the pages use. -/
def defaultHistory : HistoryConfig where
  hasRegistry := true
  maxSeriesPerFamily := 8
  maxSamples := 240

/-- A round, a quarter of a minute after the one before, that meets one client. -/
def clientRound (i : ℕ) : Round where
  collected := some
    [{ name := ascii "l2_proxy_per_client_id_requests_total"
       type := .counter
       metric :=
        [{ label := [⟨ascii "client_id", decimal i⟩]
           counterValue := 1
           gaugeValue := 0
           summarySampleCount := 0
           histogramSampleCount := 0 }] }]
  now := 15 * i

/-- Nine clients, one after the other: the ninth series is stored beside the other eight. -/
theorem labels_outgrow_limit :
    ¬ Always (fun s round => some (sample defaultHistory s round)) (HistoryBounded defaultHistory)
        (initialHistory none none) ((List.range 9).map clientRound) := by
  rw [always_bounded_iff _ storeOk_initial]
  intro h
  exact absurd (h (ascii "l2_proxy_per_client_id_requests_total")) (by decide +kernel)

end Metrics
end HttpDataDiod
