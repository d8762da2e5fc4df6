import SyncEngine.Js.Collator
import SyncEngine.Js.Double
import SyncEngine.Js.Map

/-!
# The metrics collector

`src/monitoring/metrics-collector.ts`: counters, gauges and histograms, each under a key made from
the name of the metric and its labels.  A label set is a map whose entries are those that
`Object.entries` lists.  The statistics of histograms, and the time series, which are kept by name
and without labels, are in `Monitoring.MetricHistory`, and the text for scrapers is in
`Monitoring.Exposition`.
-/

namespace SyncEngine

open Js

abbrev Labels := Js.Map String String

structure MetricsCollector where
  counters : Js.Map String Double
  gauges : Js.Map String Double
  histograms : Js.Map String (List Double)
  /-- the locale of the process -/
  collator : Collator

namespace MetricsCollector

/-- `new MetricsCollector()`. -/
def new (collator : Collator) : MetricsCollector := ⟨.empty, .empty, .empty, collator⟩

/-- `map.get(key) || 0` -/
def numberAt (m : Js.Map String Double) (key : String) : Double :=
  match m.get? key with
  | some x => x.orZero
  | none => .finite 0

/-- `${k}=${v}` -/
def labelText (label : String × String) : String := label.1 ++ "=" ++ label.2

def buildKey (collator : Collator) (name : String) (labels : Labels) : String :=
  let labelStr := ",".intercalate ((collator.sortEntries labels.entries).map labelText)
  if labelStr ≠ "" then name ++ "\x7b" ++ labelStr ++ "\x7d" else name

def incrementCounter (c : MetricsCollector) (name : String) (value : Double) (labels : Labels) :
    MetricsCollector :=
  let key := buildKey c.collator name labels
  { c with counters := c.counters.set key ((numberAt c.counters key).add value) }

def setGauge (c : MetricsCollector) (name : String) (value : Double) (labels : Labels) :
    MetricsCollector :=
  let key := buildKey c.collator name labels
  { c with gauges := c.gauges.set key value }

def recordHistogram (c : MetricsCollector) (name : String) (value : Double) (labels : Labels) :
    MetricsCollector :=
  let key := buildKey c.collator name labels
  let values := (c.histograms.get? key).getD [] ++ [value]
  { c with
    histograms := c.histograms.set key (if values.length > 10000 then values.tail else values) }

def getCounter (c : MetricsCollector) (name : String) (labels : Labels) : Double :=
  numberAt c.counters (buildKey c.collator name labels)

def getGauge (c : MetricsCollector) (name : String) (labels : Labels) : Double :=
  numberAt c.gauges (buildKey c.collator name labels)

def reset (c : MetricsCollector) : MetricsCollector := new c.collator

@[simp] lemma collator_new (collator : Collator) : (new collator).collator = collator := rfl

lemma numberAt_set (m : Js.Map String Double) (k j : String) (x : Double) :
    numberAt (m.set k x) j = if j = k then x.orZero else numberAt m j := by
  unfold numberAt
  rw [Js.Map.get?_set]
  split_ifs
  · rfl
  · rfl

@[simp] lemma buildKey_empty (collator : Collator) (name : String) :
    buildKey collator name .empty = name := rfl

end MetricsCollector

end SyncEngine
