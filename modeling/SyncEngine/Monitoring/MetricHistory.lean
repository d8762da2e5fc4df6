import SyncEngine.Core.Types
import SyncEngine.Js.Rounding
import SyncEngine.Js.Statistics
import SyncEngine.Machine.Recent
import SyncEngine.Machine.Runs
import SyncEngine.Monitoring.MetricsCollector

/-!
# Histograms and time series

The parts of `src/monitoring/metrics-collector.ts` that keep more than the latest value: histograms,
of which `getHistogramStats` reports, and the time series that `collect` writes beside the gauges.
A collector that is registered returns its metrics, or throws; what it returns is an input of
`collect`.

Both are records of bounded length, so they are compared with everything that was ever recorded
under a key (`recorded`, `collected`).  Sums are not rounded, so nothing is said of the average.
-/

namespace SyncEngine

open Js Machine

/-- A point of a time series; its labels are always empty. -/
structure MetricPoint where
  name : String
  value : Double
  timestamp : Timestamp

/-- `undefined` is `none`. -/
structure HistogramStats where
  min : Option Double
  max : Option Double
  avg : Double
  p50 : Option Double
  p95 : Option Double
  p99 : Option Double
  count : ℕ

namespace MetricsCollector

/-- What `getHistogramStats` makes of the values under a key.  The doubles `0.95` and `0.99` are
given by their numerators over `2 ^ 52`. -/
def histogramStats (values : List Double) : Option HistogramStats :=
  if values.length = 0 then none
  else
    let sorted := Double.sort values
    let count := sorted.length
    some {
      min := sorted[0]?
      max := sorted[count - 1]?
      avg := (Double.sum sorted).divNat count
      p50 := sorted[count / 2]?
      p95 := sorted[floorTimes count 4278419646001971]?
      p99 := sorted[floorTimes count 4458563631096791]?
      count := count }

def getHistogramStats (c : MetricsCollector) (name : String) (labels : Labels) :
    Option HistogramStats :=
  match c.histograms.get? (buildKey c.collator name labels) with
  | none => none
  | some values => histogramStats values

end MetricsCollector

/-- A collector with its time series. -/
structure Metrics where
  collector : MetricsCollector
  series : Js.Map String (List MetricPoint)
  maxSeriesPoints : ℕ

inductive MetricCall
  | incrementCounter (name : String) (value : Double) (labels : Labels)
  | setGauge (name : String) (value : Double) (labels : Labels)
  | recordHistogram (name : String) (value : Double) (labels : Labels)
  /-- `collect`, with what the registered collectors return -/
  | collect (now : Timestamp) (results : List (Except JsError (Js.Map String Double)))
  | reset

namespace Metrics

open MetricsCollector

/-- `new MetricsCollector(maxSeriesPoints)`. -/
def new (collator : Collator) (maxSeriesPoints : ℕ) : Metrics :=
  ⟨.new collator, .empty, maxSeriesPoints⟩

def getSeries (m : Metrics) (name : String) : List MetricPoint := (m.series.get? name).getD []

def addToSeries (m : Metrics) (name : String) (value : Double) (timestamp : Timestamp) : Metrics :=
  { m with
    series := m.series.set name
      (keepRecent m.maxSeriesPoints (m.getSeries name) ⟨name, value, timestamp⟩) }

/-- The loop of `collect` at one metric. -/
def collectMetric (now : Timestamp) (m : Metrics) (entry : String × Double) : Metrics :=
  { m with collector := m.collector.setGauge entry.1 entry.2 .empty }.addToSeries entry.1 entry.2
    now

/-- The loop of `collect` at one collector. -/
def collectFrom (now : Timestamp) (m : Metrics) (result : Except JsError (Js.Map String Double)) :
    Metrics :=
  match result with
  | .error _ => m
  | .ok metrics => metrics.entries.foldl (collectMetric now) m

def collect (m : Metrics) (now : Timestamp)
    (results : List (Except JsError (Js.Map String Double))) : Metrics :=
  results.foldl (collectFrom now) m

def step (m : Metrics) : MetricCall → Metrics
  | .incrementCounter name value labels =>
    { m with collector := m.collector.incrementCounter name value labels }
  | .setGauge name value labels =>
    { m with collector := m.collector.setGauge name value labels }
  | .recordHistogram name value labels =>
    { m with collector := m.collector.recordHistogram name value labels }
  | .collect now results => m.collect now results
  | .reset => { m with collector := m.collector.reset, series := .empty }

variable {m : Metrics}

/-! ## What was recorded -/

/-- The values recorded under a key since the last reset. -/
def recorded (collator : Collator) (key : String) (calls : List MetricCall) : List Double :=
  calls.foldl
    (fun values => fun
      | .recordHistogram name value labels =>
        if buildKey collator name labels = key then values ++ [value] else values
      | .reset => []
      | _ => values) []

/-- The points of a metric that one collector returns. -/
def pointsOf (name : String) (now : Timestamp) (result : Except JsError (Js.Map String Double)) :
    List MetricPoint :=
  match result with
  | .error _ => []
  | .ok metrics =>
    (metrics.entries.filter fun e => e.1 = name).map fun e => ⟨e.1, e.2, now⟩

/-- The points of a metric that were collected since the last reset. -/
def collected (name : String) (calls : List MetricCall) : List MetricPoint :=
  calls.foldl
    (fun points => fun
      | .collect now results => points ++ results.flatMap (pointsOf name now)
      | .reset => []
      | _ => points) []

/-! ## Collecting -/

/-- A gauge that points are written to, one after another. -/
def overwritten (value : Double) (points : List MetricPoint) : Double :=
  points.foldl (fun _ point => point.value.orZero) value

lemma overwritten_eq (value : Double) (points : List MetricPoint) :
    overwritten value points =
      match points.getLast? with
      | some point => point.value.orZero
      | none => value := by
  induction points using List.reverseRecOn with
  | nil => rfl
  | append_singleton points point _ => simp [overwritten]

/-- The metric `name` of `m'` is that of `m` with more points. -/
structure Adds (name : String) (points : List MetricPoint) (m m' : Metrics) : Prop where
  max : m'.maxSeriesPoints = m.maxSeriesPoints
  collator : m'.collector.collator = m.collector.collator
  histograms : m'.collector.histograms = m.collector.histograms
  series : m'.getSeries name = points.foldl (keepRecent m.maxSeriesPoints) (m.getSeries name)
  gauge : m'.collector.getGauge name .empty =
    overwritten (m.collector.getGauge name .empty) points

variable {m' m'' : Metrics} {name : String} {points points' : List MetricPoint}

lemma Adds.refl (name : String) (m : Metrics) : Adds name [] m m := ⟨rfl, rfl, rfl, rfl, rfl⟩

lemma Adds.trans (h : Adds name points m m') (h' : Adds name points' m' m'') :
    Adds name (points ++ points') m m'' where
  max := h'.max.trans h.max
  collator := h'.collator.trans h.collator
  histograms := h'.histograms.trans h.histograms
  series := by rw [h'.series, h.series, h.max, List.foldl_append]
  gauge := by rw [h'.gauge, h.gauge, overwritten, overwritten, overwritten, List.foldl_append]

/-- One metric is written under its own name. -/
lemma adds_collectMetric (name : String) (now : Timestamp) (m : Metrics) (e : String × Double) :
    Adds name (if e.1 = name then [⟨e.1, e.2, now⟩] else []) m (m.collectMetric now e) where
  max := rfl
  collator := rfl
  histograms := rfl
  series := by
    have hget : (m.collectMetric now e).getSeries name =
        if name = e.1 then keepRecent m.maxSeriesPoints (m.getSeries e.1) ⟨e.1, e.2, now⟩
        else m.getSeries name := by
      simp only [collectMetric, addToSeries, getSeries, Js.Map.get?_set]
      split <;> rfl
    rw [hget]
    by_cases hname : e.1 = name
    · rw [if_pos hname, if_pos hname.symm, hname]
      rfl
    · rw [if_neg hname, if_neg (Ne.symm hname)]
      rfl
  gauge := by
    have hget : (m.collectMetric now e).collector.getGauge name .empty =
        if name = e.1 then e.2.orZero else m.collector.getGauge name .empty := by
      simp only [collectMetric, addToSeries, getGauge, setGauge, buildKey_empty, numberAt_set]
    rw [hget]
    by_cases hname : e.1 = name
    · rw [if_pos hname, if_pos hname.symm]
      rfl
    · rw [if_neg hname, if_neg (Ne.symm hname)]
      rfl

lemma adds_collectFrom (name : String) (now : Timestamp) (m : Metrics)
    (result : Except JsError (Js.Map String Double)) :
    Adds name (pointsOf name now result) m (m.collectFrom now result) := by
  cases result with
  | error e => exact .refl name m
  | ok metrics =>
    unfold pointsOf collectFrom
    dsimp only
    induction metrics.entries generalizing m with
    | nil => exact .refl name m
    | cons e entries ih =>
      have hadds := (adds_collectMetric name now m e).trans (ih (m.collectMetric now e))
      rw [List.foldl_cons, List.filter_cons]
      by_cases hname : e.1 = name
      · simpa [hname] using hadds
      · simpa [hname] using hadds

/-- **A collection adds the points of its collectors.** -/
lemma adds_collect (name : String) (now : Timestamp) (m : Metrics)
    (results : List (Except JsError (Js.Map String Double))) :
    Adds name (results.flatMap (pointsOf name now)) m (m.collect now results) := by
  unfold collect
  induction results generalizing m with
  | nil => exact .refl name m
  | cons result results ih =>
    exact (adds_collectFrom name now m result).trans (ih (m.collectFrom now result))

/-! ## Whole runs -/

/-- No gauge that is set directly has the key of the metric `name`. -/
def SetsOthers (collator : Collator) (name : String) (calls : List MetricCall) : Prop :=
  ∀ other value labels, .setGauge other value labels ∈ calls →
    buildKey collator other labels ≠ name

/-- What a run leaves of a histogram, and of a metric that is collected. -/
structure Keeps (collator : Collator) (max : ℕ) (key name : String) (calls : List MetricCall)
    (m : Metrics) : Prop where
  bound : m.maxSeriesPoints = max
  locale : m.collector.collator = collator
  histogram : m.collector.histograms.get? key =
    if recorded collator key calls = [] then none
    else some (recent 10000 (recorded collator key calls))
  series : m.getSeries name = recent max (collected name calls)
  gauge : SetsOthers collator name calls →
    m.collector.getGauge name .empty = overwritten (.finite 0) (collected name calls)

variable {collator : Collator} {max : ℕ} {key : String} {calls : List MetricCall}

lemma SetsOthers.of_append {call : MetricCall} (h : SetsOthers collator name (calls ++ [call])) :
    SetsOthers collator name calls :=
  fun other value labels hmem => h other value labels (List.mem_append_left _ hmem)

lemma recorded_append (call : MetricCall) : recorded collator key (calls ++ [call]) =
    match call with
    | .recordHistogram name value labels =>
      if buildKey collator name labels = key then recorded collator key calls ++ [value]
      else recorded collator key calls
    | .reset => []
    | _ => recorded collator key calls := by
  simp only [recorded, List.foldl_append, List.foldl_cons, List.foldl_nil]

lemma collected_append (call : MetricCall) : collected name (calls ++ [call]) =
    match call with
    | .collect now results => collected name calls ++ results.flatMap (pointsOf name now)
    | .reset => []
    | _ => collected name calls := by
  simp only [collected, List.foldl_append, List.foldl_cons, List.foldl_nil]

/-- What a value adds to a histogram. -/
lemma histogram_recordHistogram (c : MetricsCollector) (other : String) (value : Double)
    (labels : Labels) {values : List Double}
    (h : c.histograms.get? key = if values = [] then none else some (recent 10000 values)) :
    (c.recordHistogram other value labels).histograms.get? key =
      let values := if buildKey c.collator other labels = key then values ++ [value] else values
      if values = [] then none else some (recent 10000 values) := by
  have hold : (c.histograms.get? key).getD [] = recent 10000 values := by
    rw [h]
    split
    next hnil => rw [hnil, Option.getD_none, recent_nil]
    next => exact Option.getD_some
  have hrecord : (c.recordHistogram other value labels).histograms.get? key =
      if key = buildKey c.collator other labels then
        some (keepRecent 10000
          ((c.histograms.get? (buildKey c.collator other labels)).getD []) value)
      else c.histograms.get? key :=
    Js.Map.get?_set _ _ _ _
  rw [hrecord]
  by_cases hkey : buildKey c.collator other labels = key
  · rw [if_pos hkey.symm, hkey, hold, keepRecent_recent]
    simp
  · rw [if_neg (Ne.symm hkey), h]
    simp [hkey]

lemma Keeps.step (h : Keeps collator max key name calls m) (call : MetricCall) :
    Keeps collator max key name (calls ++ [call]) (m.step call) := by
  have hgauge : SetsOthers collator name (calls ++ [call]) →
      m.collector.getGauge name .empty = overwritten (.finite 0) (collected name calls) :=
    fun hothers => h.gauge hothers.of_append
  cases call with
  | incrementCounter other value labels =>
    refine ⟨h.bound, h.locale, ?_, ?_, fun hothers => ?_⟩
    · rw [recorded_append]
      exact h.histogram
    · rw [collected_append]
      exact h.series
    · rw [collected_append]
      exact hgauge hothers
  | setGauge other value labels =>
    refine ⟨h.bound, h.locale, ?_, ?_, fun hothers => ?_⟩
    · rw [recorded_append]
      exact h.histogram
    · rw [collected_append]
      exact h.series
    · rw [collected_append]
      have hne : buildKey m.collector.collator other labels ≠ name := by
        rw [h.locale]
        exact hothers other value labels (List.mem_append_right _ (List.mem_singleton_self _))
      have hset : (m.step (.setGauge other value labels)).collector.getGauge name .empty =
          m.collector.getGauge name .empty := by
        simp only [Metrics.step, getGauge, setGauge, buildKey_empty, numberAt_set, if_neg hne.symm]
      rw [hset]
      exact hgauge hothers
  | recordHistogram other value labels =>
    refine ⟨h.bound, h.locale, ?_, ?_, fun hothers => ?_⟩
    · rw [recorded_append]
      have hrecord := histogram_recordHistogram m.collector other value labels h.histogram
      rw [h.locale] at hrecord
      exact hrecord
    · rw [collected_append]
      exact h.series
    · rw [collected_append]
      exact hgauge hothers
  | collect now results =>
    have hadds := adds_collect name now m results
    refine ⟨hadds.max.trans h.bound, hadds.collator.trans h.locale, ?_, ?_, fun hothers => ?_⟩
    · rw [recorded_append]
      exact (congrArg (Js.Map.get? · key) hadds.histograms).trans h.histogram
    · rw [collected_append]
      refine hadds.series.trans ?_
      rw [h.series, h.bound, ← foldl_keepRecent, ← foldl_keepRecent, List.foldl_append]
    · rw [collected_append]
      refine hadds.gauge.trans ?_
      rw [hgauge hothers, overwritten, overwritten, overwritten, List.foldl_append]
  | reset =>
    refine ⟨h.bound, h.locale, ?_, ?_, fun _ => ?_⟩
    · rw [recorded_append]
      rfl
    · rw [collected_append]
      exact (recent_nil max).symm
    · rw [collected_append]
      rfl

lemma keeps_run (collator : Collator) (max : ℕ) (key name : String) (calls : List MetricCall) :
    Keeps collator max key name calls (Machine.run step (new collator max) calls) := by
  induction calls using List.reverseRecOn with
  | nil => exact ⟨rfl, rfl, rfl, (recent_nil max).symm, fun _ => rfl⟩
  | append_singleton calls call ih =>
    rw [Machine.run_append]
    exact ih.step call

/-! ## Reports -/

lemma floorTimes_95 {count : ℕ} (h : count ≤ 10000) :
    floorTimes count 4278419646001971 = count * 95 / 100 :=
  floorTimes_eq (e := 20) (by decide) (by decide) (by decide) h

lemma floorTimes_99 {count : ℕ} (h : count ≤ 10000) :
    floorTimes count 4458563631096791 = count * 99 / 100 :=
  floorTimes_eq (e := 4) (by decide) (by decide) (by decide) h

/-- The statistics of some values: the least and the greatest of them, and those with the ranks of
the percentiles. -/
structure Describes (stats : HistogramStats) (values : List Double) : Prop where
  count : stats.count = values.length
  min : ∃ v, stats.min = some v ∧ Double.HasRank values 0 v
  p50 : ∃ v, stats.p50 = some v ∧ Double.HasRank values (values.length / 2) v
  p95 : ∃ v, stats.p95 = some v ∧ Double.HasRank values (values.length * 95 / 100) v
  p99 : ∃ v, stats.p99 = some v ∧ Double.HasRank values (values.length * 99 / 100) v
  max : ∃ v, stats.max = some v ∧ Double.HasRank values (values.length - 1) v

/-- **The places that are read off are those of the percentiles.** -/
lemma exists_describes {values : List Double} (hvalues : values ≠ [])
    (hlength : values.length ≤ 10000) (hnan : .nan ∉ values) :
    ∃ stats, histogramStats values = some stats ∧ Describes stats values := by
  have hpos : 0 < values.length := List.length_pos_iff.2 hvalues
  have hsorted : (Double.sort values).length = values.length := (Double.sort_perm values).length_eq
  have hrank : ∀ k < values.length,
      ∃ v, (Double.sort values)[k]? = some v ∧ Double.HasRank values k v := by
    intro k hk
    rw [← hsorted] at hk
    exact ⟨_, List.getElem?_eq_getElem hk, Double.hasRank_sort hnan (List.getElem?_eq_getElem hk)⟩
  unfold histogramStats
  rw [if_neg hpos.ne']
  refine ⟨_, rfl, hsorted, hrank 0 hpos, ?_, ?_, ?_, ?_⟩
  · dsimp only
    rw [hsorted]
    exact hrank _ (by omega)
  · dsimp only
    rw [hsorted, floorTimes_95 hlength]
    exact hrank _ (by omega)
  · dsimp only
    rw [hsorted, floorTimes_99 hlength]
    exact hrank _ (by omega)
  · dsimp only
    rw [hsorted]
    exact hrank _ (by omega)

/-- **Series and gauges.**  In every run that sets no gauge under the name of a metric directly, the
time series of the metric is the end of all that was collected of it since the last reset, and its
gauge is the value collected last. -/
theorem series_exact {collator : Collator} (max : ℕ) {calls : List MetricCall} {name : String}
    (hothers : SetsOthers collator name calls) :
    let m := Machine.run step (new collator max) calls
    m.getSeries name = recent max (collected name calls) ∧
      m.collector.getGauge name .empty =
        match (collected name calls).getLast? with
        | some point => point.value.orZero
        | none => .finite 0 := by
  intro m
  have hkeeps : Keeps collator max "" name calls m := keeps_run collator max "" name calls
  exact ⟨hkeeps.series, (hkeeps.gauge hothers).trans (overwritten_eq _ _)⟩

/-- A collector that throws, and one that returns two metrics, beside a gauge of another name. -/
def twoCollectors : List MetricCall :=
  [.setGauge "uptime" (.finite 1) .empty,
    .collect 5 [.error .typeError, .ok ((Js.Map.empty.set "load" (.finite 2)).set "rss" .nan)],
    .collect 10 [.ok (Js.Map.empty.set "load" (.finite 3))]]

theorem series_exact_twoCollectors :
    let m := Machine.run step (new .byCodePoint 1) twoCollectors
    m.getSeries "load" = recent 1 (collected "load" twoCollectors) ∧
      m.collector.getGauge "load" .empty =
        match (collected "load" twoCollectors).getLast? with
        | some point => point.value.orZero
        | none => .finite 0 := by
  apply series_exact
  intro other value labels hmem
  simp only [twoCollectors, List.mem_cons, MetricCall.setGauge.injEq, List.not_mem_nil, or_false,
    reduceCtorEq] at hmem
  obtain ⟨rfl, rfl, rfl⟩ := hmem
  simp

end Metrics

end SyncEngine
