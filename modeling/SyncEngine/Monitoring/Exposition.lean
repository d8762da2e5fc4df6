import SyncEngine.Js.Tally
import SyncEngine.Monitoring.MetricHistory

/-!
# The text of the metrics

`toPrometheus` of `src/monitoring/metrics-collector.ts`, which `GET /metrics` sends: two lines for
each counter and each gauge, of which the first one tells the name and the type, and the second one
the key and the value.

The text is compared with what the calls since the last reset have written.  A reader that takes the
lines in pairs gets it back (`scrape_exact`): one sample for each counter and gauge, in the order in
which they were first written, unless there is a line break in a key.  Then what the text is read as
is something else, since nothing is escaped.
-/

/-- What a list is split into has no separator. -/
lemma List.notMem_of_mem_splitOn {α : Type} [DecidableEq α] {a : α} {xs piece : List α}
    (h : piece ∈ xs.splitOn a) : a ∉ piece := by
  induction xs generalizing piece with
  | nil =>
    rw [List.splitOn_nil, List.mem_singleton] at h
    rw [h]
    exact List.not_mem_nil
  | cons x xs ih =>
    obtain ⟨first, rest, hsplit⟩ := List.exists_cons_of_ne_nil (List.splitOn_ne_nil a xs)
    rw [List.splitOn_cons_eq_if_modifyHead, hsplit] at h
    rw [hsplit] at ih
    by_cases hx : x = a
    · rw [if_pos (beq_iff_eq.2 hx)] at h
      rcases List.mem_cons.1 h with rfl | hmem
      · exact List.not_mem_nil
      · exact ih hmem
    · rw [if_neg (by simpa using hx), List.modifyHead_cons] at h
      rcases List.mem_cons.1 h with rfl | hmem
      · intro ha
        rcases List.mem_cons.1 ha with rfl | ha
        · exact hx rfl
        · exact ih List.mem_cons_self ha
      · exact ih (List.mem_cons_of_mem _ hmem)

namespace SyncEngine

open Js Machine

/-! ## The text -/

/-- `${x}` of a number: a single word. -/
structure NumberText where
  write : Double → String
  oneWord : ∀ x, ' ' ∉ (write x).toList ∧ '\n' ∉ (write x).toList

namespace MetricsCollector

/-- `key.split('{')[0]` -/
def beforeBrace (key : String) : String := String.ofList (key.toList.takeWhile (· ≠ '\x7b'))

/-- The lines that one of the loops pushes for an entry. -/
def linesOf (text : NumberText) (type : String) (entry : String × Double) : List String :=
  ["# TYPE " ++ beforeBrace entry.1 ++ " " ++ type, entry.1 ++ " " ++ text.write entry.2]

def lines (text : NumberText) (c : MetricsCollector) : List String :=
  c.counters.entries.flatMap (linesOf text "counter") ++
    c.gauges.entries.flatMap (linesOf text "gauge")

def toPrometheus (text : NumberText) (c : MetricsCollector) : String :=
  "\n".intercalate (c.lines text)

end MetricsCollector

/-! ## Reading it -/

/-- What the two lines of a metric tell. -/
structure Sample where
  name : String
  type : String
  key : String
  value : String
  deriving DecidableEq

namespace Sample

open MetricsCollector

/-- The text before the last blank, and the one after it. -/
def cutLast (l : List Char) : List Char × List Char :=
  ((l.rdropWhile (· ≠ ' ')).dropLast, l.rtakeWhile (· ≠ ' '))

/-- The pair of lines that `linesOf` writes. -/
def read (typeLine line : List Char) : Sample :=
  let type := cutLast (typeLine.drop 7)
  let value := cutLast line
  ⟨String.ofList type.1, String.ofList type.2, String.ofList value.1, String.ofList value.2⟩

def readAll : List (List Char) → List Sample
  | typeLine :: line :: lines => read typeLine line :: readAll lines
  | _ => []

/-- The samples in a text. -/
def scrape (s : String) : List Sample := readAll (s.toList.splitOn '\n')

/-- What is to be read of an entry. -/
def ofEntry (text : NumberText) (type : String) (entry : String × Double) : Sample :=
  ⟨beforeBrace entry.1, type, entry.1, text.write entry.2⟩

/-- What is to be read of a collector. -/
def ofCollector (text : NumberText) (c : MetricsCollector) : List Sample :=
  c.counters.entries.map (ofEntry text "counter") ++ c.gauges.entries.map (ofEntry text "gauge")

variable {text : NumberText} {c : MetricsCollector}

lemma cutLast_append (before : List Char) {after : List Char} (h : ' ' ∉ after) :
    cutLast (before ++ ' ' :: after) = (before, after) := by
  have hafter : ∀ x ∈ after.reverse, (decide (x ≠ ' ')) = true := by
    intro x hx
    rw [decide_eq_true_eq]
    rintro rfl
    exact h (List.mem_reverse.1 hx)
  have hreverse : (before ++ ' ' :: after).reverse = after.reverse ++ ' ' :: before.reverse := by
    simp
  rw [cutLast, List.rdropWhile, List.rtakeWhile, hreverse, List.dropWhile_append_of_pos hafter,
    List.takeWhile_append_of_pos hafter]
  simp

/-- One pair of lines is read back. -/
lemma read_linesOf {type : String} (htype : ' ' ∉ type.toList) (entry : String × Double) :
    read ("# TYPE " ++ beforeBrace entry.1 ++ " " ++ type).toList
      (entry.1 ++ " " ++ text.write entry.2).toList = ofEntry text type entry := by
  have htypeLine : ("# TYPE " ++ beforeBrace entry.1 ++ " " ++ type).toList.drop 7 =
      (beforeBrace entry.1).toList ++ ' ' :: type.toList := by
    simp [String.toList_append]
  have hline : (entry.1 ++ " " ++ text.write entry.2).toList =
      entry.1.toList ++ ' ' :: (text.write entry.2).toList := by
    simp [String.toList_append]
  rw [read, htypeLine, hline, cutLast_append _ htype, cutLast_append _ (text.oneWord _).1]
  simp [ofEntry]

lemma readAll_append (text : NumberText) {type : String} (htype : ' ' ∉ type.toList)
    (entries : List (String × Double)) (rest : List (List Char)) :
    readAll ((entries.flatMap (linesOf text type)).map String.toList ++ rest) =
      entries.map (ofEntry text type) ++ readAll rest := by
  induction entries with
  | nil => rfl
  | cons entry entries ih =>
    rw [List.flatMap_cons, List.map_append, List.append_assoc, List.map_cons, List.cons_append,
      ← ih, ← read_linesOf htype entry]
    rfl

lemma newline_notMem_linesOf {type : String} (htype : '\n' ∉ type.toList)
    {entry : String × Double} (hkey : '\n' ∉ entry.1.toList) :
    ∀ line ∈ linesOf text type entry, '\n' ∉ line.toList := by
  have hname : '\n' ∉ (beforeBrace entry.1).toList := by
    rw [beforeBrace, String.toList_ofList]
    exact fun hmem => hkey ((List.takeWhile_sublist _).subset hmem)
  intro line hline
  rcases List.mem_cons.1 hline with rfl | hline
  · simp [String.toList_append, hname, htype]
  · rw [List.mem_singleton.1 hline]
    simp [String.toList_append, hkey, (text.oneWord _).2]

/-- What is split at line breaks is read as samples without them. -/
lemma newline_notMem_key {lines : List (List Char)} (h : ∀ line ∈ lines, '\n' ∉ line) :
    ∀ s ∈ readAll lines, '\n' ∉ s.key.toList := by
  induction lines using readAll.induct with
  | case1 typeLine line lines ih =>
    intro s hs
    rw [readAll] at hs
    rcases List.mem_cons.1 hs with rfl | hs
    · have hline : '\n' ∉ line := h line (List.mem_cons_of_mem _ List.mem_cons_self)
      intro hmem
      have hkey : '\n' ∈ (line.rdropWhile (· ≠ ' ')).dropLast := by
        simpa [read, cutLast] using hmem
      exact hline ((List.rdropWhile_prefix _ _).subset ((List.dropLast_subset _) hkey))
    · exact ih (fun line hline =>
        h line (List.mem_cons_of_mem _ (List.mem_cons_of_mem _ hline))) s hs
  | case2 lines hlines =>
    intro s hs
    cases lines with
    | nil => cases hs
    | cons line lines =>
      cases lines with
      | nil => cases hs
      | cons line' lines => exact absurd rfl (hlines line line' lines)

lemma readAll_lines : readAll ((c.lines text).map String.toList) = ofCollector text c := by
  have hcounter : ' ' ∉ "counter".toList := by decide
  have hgauge : ' ' ∉ "gauge".toList := by decide
  rw [lines, List.map_append, readAll_append text hcounter]
  refine congrArg _ ?_
  have hread := readAll_append text hgauge c.gauges.entries []
  rw [List.append_nil] at hread
  exact hread.trans (List.append_nil _)

lemma newline_notMem_lines
    (h : ∀ entry ∈ c.counters.entries ++ c.gauges.entries, '\n' ∉ entry.1.toList) :
    ∀ line ∈ c.lines text, '\n' ∉ line.toList := by
  intro line hline
  rcases List.mem_append.1 hline with hline | hline
  · obtain ⟨entry, hentry, hline⟩ := List.mem_flatMap.1 hline
    exact newline_notMem_linesOf (by decide) (h entry (List.mem_append_left _ hentry)) _ hline
  · obtain ⟨entry, hentry, hline⟩ := List.mem_flatMap.1 hline
    exact newline_notMem_linesOf (by decide) (h entry (List.mem_append_right _ hentry)) _ hline

/-- **The text is read back exactly if no key has a line break.** -/
lemma scrape_toPrometheus : scrape (c.toPrometheus text) = ofCollector text c ↔
    ∀ entry ∈ c.counters.entries ++ c.gauges.entries, '\n' ∉ entry.1.toList := by
  constructor
  · intro h entry hentry
    have hsample : ∃ type, ofEntry text type entry ∈ ofCollector text c := by
      rcases List.mem_append.1 hentry with hentry | hentry
      · exact ⟨_, List.mem_append_left _ (List.mem_map_of_mem hentry)⟩
      · exact ⟨_, List.mem_append_right _ (List.mem_map_of_mem hentry)⟩
    obtain ⟨type, hmem⟩ := hsample
    rw [← h] at hmem
    exact newline_notMem_key (fun line => List.notMem_of_mem_splitOn) _ hmem
  · intro h
    have hlines : ∀ line ∈ (c.lines text).map String.toList, '\n' ∉ line := by
      intro line hline
      obtain ⟨written, hwritten, rfl⟩ := List.mem_map.1 hline
      exact newline_notMem_lines h written hwritten
    rw [scrape, toPrometheus, String.toList_intercalate, ← readAll_lines]
    generalize (c.lines text).map String.toList = lines at hlines
    -- An empty text has one line, of which nothing is read.
    cases lines with
    | nil => rfl
    | cons line lines =>
      exact congrArg readAll (List.splitOn_intercalate _ hlines (List.cons_ne_nil _ _))

end Sample

/-! ## What the calls wrote -/

namespace Metrics

open MetricsCollector Js.Map

/-- The increments since the last reset, each with the key of its counter. -/
def increments (collator : Collator) (calls : List MetricCall) : List (String × Double) :=
  calls.foldl
    (fun items => fun
      | .incrementCounter name value labels => items ++ [(buildKey collator name labels, value)]
      | .reset => []
      | _ => items) []

/-- The metrics that one collector returns. -/
def returned (result : Except JsError (Js.Map String Double)) : List (String × Double) :=
  match result with
  | .error _ => []
  | .ok metrics => metrics.entries

/-- The values that gauges were set to since the last reset, each with the key of its gauge. -/
def settings (collator : Collator) (calls : List MetricCall) : List (String × Double) :=
  calls.foldl
    (fun items => fun
      | .setGauge name value labels => items ++ [(buildKey collator name labels, value)]
      | .collect _ results => items ++ results.flatMap returned
      | .reset => []
      | _ => items) []

/-- The total of some increments. -/
def total (values : List Double) : Double :=
  values.foldl (fun sum value => sum.orZero.add value) (.finite 0)

/-- The samples that are due after some increments and settings: one for each key, in the order in
which the keys first occur. -/
def due (text : NumberText) (increments settings : List (String × Double)) : List Sample :=
  ((increments.map Prod.fst).eraseDups.map fun key =>
      ⟨beforeBrace key, "counter", key, text.write (total (itemsAt key increments))⟩) ++
    (settings.map Prod.fst).eraseDups.map fun key =>
      ⟨beforeBrace key, "gauge", key,
        text.write ((itemsAt key settings).getLast?.getD (.finite 0))⟩

variable {text : NumberText} {collator : Collator} {max : ℕ} {calls : List MetricCall}
  {m : Metrics}

lemma increments_append (call : MetricCall) : increments collator (calls ++ [call]) =
    match call with
    | .incrementCounter name value labels =>
      increments collator calls ++ [(buildKey collator name labels, value)]
    | .reset => []
    | _ => increments collator calls := by
  simp only [increments, List.foldl_append, List.foldl_cons, List.foldl_nil]

lemma settings_append (call : MetricCall) : settings collator (calls ++ [call]) =
    match call with
    | .setGauge name value labels =>
      settings collator calls ++ [(buildKey collator name labels, value)]
    | .collect _ results => settings collator calls ++ results.flatMap returned
    | .reset => []
    | _ => settings collator calls := by
  simp only [settings, List.foldl_append, List.foldl_cons, List.foldl_nil]

/-- What increments make of the counters. -/
def totals (items : List (String × Double)) : Js.Map String Double :=
  tally (.finite 0) (fun sum value => sum.orZero.add value) items

/-- What settings make of the gauges. -/
def latest (items : List (String × Double)) : Js.Map String Double :=
  tally (.finite 0) (fun _ value => value) items

lemma numberAt_eq (m : Js.Map String Double) (key : String) :
    numberAt m key = ((m.get? key).getD (.finite 0)).orZero := by
  unfold numberAt
  cases m.get? key with
  | none => rfl
  | some x => rfl

lemma totals_append (items : List (String × Double)) (e : String × Double) :
    totals (items ++ [e]) = (totals items).set e.1 ((numberAt (totals items) e.1).add e.2) := by
  rw [numberAt_eq]
  exact tally_append e

lemma latest_append (items items' : List (String × Double)) :
    latest (items ++ items') = items'.foldl (fun m e => m.set e.1 e.2) (latest items) :=
  List.foldl_append

/-- What a collection does to the counters and the gauges. -/
lemma collector_collect (now : Timestamp) (m : Metrics)
    (results : List (Except JsError (Js.Map String Double))) :
    (m.collect now results).collector =
      { m.collector with
        gauges := (results.flatMap returned).foldl (fun g e => g.set e.1 e.2)
          m.collector.gauges } := by
  unfold collect
  induction results generalizing m with
  | nil => rfl
  | cons result results ih =>
    rw [List.foldl_cons, ih, List.flatMap_cons, List.foldl_append]
    have hfrom : (m.collectFrom now result).collector =
        { m.collector with
          gauges := (returned result).foldl (fun g e => g.set e.1 e.2) m.collector.gauges } := by
      cases result with
      | error e => rfl
      | ok metrics =>
        unfold collectFrom returned
        dsimp only
        induction metrics.entries generalizing m with
        | nil => rfl
        | cons e entries ih => exact ih (m.collectMetric now e)
    rw [hfrom]

/-- What a run leaves of the counters and the gauges. -/
structure Written (collator : Collator) (calls : List MetricCall) (c : MetricsCollector) :
    Prop where
  locale : c.collator = collator
  counters : c.counters = totals (increments collator calls)
  gauges : c.gauges = latest (settings collator calls)

lemma Written.step (h : Written collator calls m.collector) (call : MetricCall) :
    Written collator (calls ++ [call]) (m.step call).collector := by
  obtain ⟨hlocale, hcounters, hgauges⟩ := h
  cases call with
  | incrementCounter name value labels =>
    refine ⟨hlocale, ?_, ?_⟩
    · rw [increments_append]
      dsimp only
      rw [totals_append, ← hcounters, ← hlocale]
      rfl
    · rw [settings_append]
      exact hgauges
  | setGauge name value labels =>
    refine ⟨hlocale, ?_, ?_⟩
    · rw [increments_append]
      exact hcounters
    · rw [settings_append]
      dsimp only
      rw [latest_append, ← hgauges, ← hlocale]
      rfl
  | recordHistogram name value labels =>
    refine ⟨hlocale, ?_, ?_⟩
    · rw [increments_append]
      exact hcounters
    · rw [settings_append]
      exact hgauges
  | collect now results =>
    have hcollect := collector_collect now m results
    refine ⟨?_, ?_, ?_⟩
    · exact (congrArg MetricsCollector.collator hcollect).trans hlocale
    · rw [increments_append]
      exact (congrArg MetricsCollector.counters hcollect).trans hcounters
    · rw [settings_append]
      dsimp only
      rw [latest_append, ← hgauges]
      exact congrArg MetricsCollector.gauges hcollect
  | reset =>
    refine ⟨hlocale, ?_, ?_⟩
    · rw [increments_append]
      rfl
    · rw [settings_append]
      rfl

lemma written_run (collator : Collator) (max : ℕ) (calls : List MetricCall) :
    Written collator calls (Machine.run step (new collator max) calls).collector := by
  induction calls using List.reverseRecOn with
  | nil => exact ⟨rfl, rfl, rfl⟩
  | append_singleton calls call ih =>
    rw [Machine.run_append]
    exact ih.step call

lemma foldl_latest (value : Double) (values : List Double) :
    values.foldl (fun _ value => value) value = values.getLast?.getD value := by
  induction values using List.reverseRecOn with
  | nil => rfl
  | append_singleton values last _ => simp

lemma entries_totals (items : List (String × Double)) :
    (totals items).entries =
      (items.map Prod.fst).eraseDups.map fun key => (key, total (itemsAt key items)) :=
  entries_tally _ _ items

lemma entries_latest (items : List (String × Double)) :
    (latest items).entries = (items.map Prod.fst).eraseDups.map fun key =>
      (key, (itemsAt key items).getLast?.getD (.finite 0)) := by
  simp only [latest, entries_tally, foldl_latest]

lemma Written.due {c : MetricsCollector} (h : Written collator calls c) :
    Sample.ofCollector text c = due text (increments collator calls) (settings collator calls) := by
  rw [Sample.ofCollector, h.counters, h.gauges, entries_totals, entries_latest, List.map_map,
    List.map_map]
  rfl

/-- The keys of the counters and the gauges are those that were written. -/
lemma Written.mem_keys {c : MetricsCollector} (h : Written collator calls c) (key : String) :
    key ∈ (c.counters.entries ++ c.gauges.entries).map Prod.fst ↔
      key ∈ (increments collator calls ++ settings collator calls).map Prod.fst := by
  have hcounters : key ∈ c.counters.keys ↔ key ∈ (increments collator calls).map Prod.fst := by
    rw [h.counters, totals, keys_tally, List.mem_eraseDups]
  have hgauges : key ∈ c.gauges.keys ↔ key ∈ (settings collator calls).map Prod.fst := by
    rw [h.gauges, latest, keys_tally, List.mem_eraseDups]
  rw [List.map_append, List.map_append, List.mem_append, List.mem_append]
  exact or_congr hcounters hgauges

/-- **What the text tells.**  After every run of calls, what a reader makes of the text is exactly
what was written since the last reset, if and only if no key that was written has a line break: one
sample for each counter with the total of its increments, and one for each gauge with the value set
last, under the name before the brace, in the order in which they were first written. -/
theorem scrape_exact (text : NumberText) (collator : Collator) (max : ℕ)
    (calls : List MetricCall) :
    let c := (Machine.run step (new collator max) calls).collector
    Sample.scrape (c.toPrometheus text) =
        due text (increments collator calls) (settings collator calls) ↔
      ∀ item ∈ increments collator calls ++ settings collator calls, '\n' ∉ item.1.toList := by
  intro c
  have hwritten : Written collator calls c := written_run collator max calls
  have hkeys : ∀ items : List (String × Double), (∀ item ∈ items, '\n' ∉ item.1.toList) ↔
      ∀ key ∈ items.map Prod.fst, '\n' ∉ key.toList := by
    intro items
    rw [List.forall_mem_map]
  rw [← hwritten.due, Sample.scrape_toPrometheus, hkeys, hkeys]
  exact forall_congr' fun key => imp_congr_left (hwritten.mem_keys key)

end Metrics

end SyncEngine
