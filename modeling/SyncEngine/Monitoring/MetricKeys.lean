import SyncEngine.Monitoring.MetricsCollector

/-!
# Which metrics share a counter

A metric is to be identified by its name and its labels as a map.  A counter is found under a key,
so the question is which metrics have the same key (`tallied_iff`).  The order in which labels are
listed does not matter (`same_iff`), the name can be told from the key (`buildKey_eq_iff`), and what
is left is whether the text of the labels determines them.

It does for labels without separators (`joined_inj`).  In general a text can be read in several
ways: what stands behind the first `=` can be one value, and any other `=` can be the one that ends
the key.  So the only metrics that share their counter with no other are those without labels, and
those with one label in which no further `=` occurs (`identified_iff`).
-/

/-- Where a separator occurs in neither left part, it cuts both lists at the same place. -/
lemma List.append_cons_inj_of_left {α : Type} {a : α} {x₁ x₂ z₁ z₂ : List α} (h₁ : a ∉ x₁)
    (h₂ : a ∉ x₂) (h : x₁ ++ a :: z₁ = x₂ ++ a :: z₂) : x₁ = x₂ ∧ z₁ = z₂ := by
  induction x₁ generalizing x₂ with
  | nil =>
    cases x₂ with
    | nil => exact ⟨rfl, (List.cons.inj h).2⟩
    | cons b x₂ =>
      obtain ⟨rfl, -⟩ := List.cons.inj h
      exact absurd List.mem_cons_self h₂
  | cons b x₁ ih =>
    cases x₂ with
    | nil =>
      obtain ⟨rfl, -⟩ := List.cons.inj h
      exact absurd List.mem_cons_self h₁
    | cons c x₂ =>
      obtain ⟨rfl, hrest⟩ := List.cons.inj h
      obtain ⟨rfl, rfl⟩ := ih (fun hm => h₁ (List.mem_cons_of_mem _ hm))
        (fun hm => h₂ (List.mem_cons_of_mem _ hm)) hrest
      exact ⟨rfl, rfl⟩

/-- The same where what the separator introduces can be missing. -/
lemma List.append_ite_inj {α : Type} {a : α} {x₁ x₂ z₁ z₂ : List α} {p₁ p₂ : Prop} [Decidable p₁]
    [Decidable p₂] (h₁ : a ∉ x₁) (h₂ : a ∉ x₂)
    (h : x₁ ++ (if p₁ then [] else a :: z₁) = x₂ ++ (if p₂ then [] else a :: z₂)) :
    x₁ = x₂ ∧ (p₁ ↔ p₂) ∧ (¬ p₁ → z₁ = z₂) := by
  by_cases hp₁ : p₁
  · by_cases hp₂ : p₂
    · exact ⟨by simpa [hp₁, hp₂] using h, iff_of_true hp₁ hp₂, fun hn => absurd hp₁ hn⟩
    · rw [if_pos hp₁, if_neg hp₂, List.append_nil] at h
      exact absurd (h ▸ by simp) h₁
  · by_cases hp₂ : p₂
    · rw [if_neg hp₁, if_pos hp₂, List.append_nil] at h
      exact absurd (h ▸ by simp) h₂
    · rw [if_neg hp₁, if_neg hp₂] at h
      obtain ⟨hx, hz⟩ := List.append_cons_inj_of_left h₁ h₂ h
      exact ⟨hx, iff_of_false hp₁ hp₂, fun _ => hz⟩

namespace SyncEngine

open Js

/-- What names a metric. -/
structure Metric where
  name : String
  labels : Labels

namespace Metric

/-- The name has no braces. -/
def Plain (m : Metric) : Prop := '\x7b' ∉ m.name.toList ∧ '\x7d' ∉ m.name.toList

instance (m : Metric) : Decidable m.Plain := by
  unfold Plain
  infer_instance

/-- The names are equal, and the labels are equal as maps. -/
def Same (m m' : Metric) : Prop := m.name = m'.name ∧ ∀ k, m.labels.get? k = m'.labels.get? k

/-- No key has the separator that ends a key, and no value the one that ends a value. -/
def Separated (m : Metric) : Prop :=
  ∀ e ∈ m.labels.entries, '=' ∉ e.1.toList ∧ ',' ∉ e.2.toList

/-- There is no label, or one in which no further `=` occurs. -/
def Unambiguous (m : Metric) : Prop :=
  m.labels.entries = [] ∨
    ∃ k v, m.labels.entries = [(k, v)] ∧ '=' ∉ k.toList ∧ '=' ∉ v.toList

end Metric

namespace MetricsCollector

/-- The counter of `m'` after one of `m` is incremented: it is the same if the metrics are, and
another one if they are not. -/
def Tallied (c : MetricsCollector) (m m' : Metric) (v : Double) : Prop :=
  (m.Same m' → (c.incrementCounter m.name v m.labels).getCounter m'.name m'.labels =
    ((c.getCounter m'.name m'.labels).add v).orZero) ∧
  (¬ m.Same m' → (c.incrementCounter m.name v m.labels).getCounter m'.name m'.labels =
    c.getCounter m'.name m'.labels)

/-- The metric shares its counter with no other one. -/
def Identified (collator : Collator) (m : Metric) : Prop :=
  ∀ m' : Metric, m'.Plain → ∀ c : MetricsCollector, c.collator = collator → ∀ v, Tallied c m m' v

/-! ## Keys -/

/-- The characters of a list of labels. -/
def joined (labels : List (String × String)) : List Char :=
  [','].intercalate (labels.map fun e => e.1.toList ++ '=' :: e.2.toList)

lemma toList_intercalate_labels (labels : List (String × String)) :
    (",".intercalate (labels.map labelText)).toList = joined labels := by
  rw [String.toList_intercalate, List.map_map, joined]
  congr 1
  refine List.map_congr_left fun e _ => ?_
  simp [labelText]

lemma joined_cons (k v : String) (labels : List (String × String)) :
    joined ((k, v) :: labels) =
      k.toList ++ '=' :: (v.toList ++ if labels = [] then [] else ',' :: joined labels) := by
  unfold joined
  rw [List.map_cons]
  by_cases h : labels = []
  · simp [h]
  · rw [List.intercalate_cons_of_ne_nil (by simpa using h), if_neg h]
    simp

/-- Every label contributes an `=`. -/
lemma length_le_count (labels : List (String × String)) :
    labels.length ≤ (joined labels).count '=' := by
  induction labels with
  | nil => exact Nat.zero_le _
  | cons e labels ih =>
    obtain ⟨k, v⟩ := e
    rw [joined_cons, List.count_append, List.count_cons_self, List.count_append, List.length_cons]
    split
    next h =>
      rw [h, List.length_nil]
      omega
    next =>
      rw [List.count_cons_of_ne (by decide)]
      omega

lemma joined_eq_nil {labels : List (String × String)} : joined labels = [] ↔ labels = [] := by
  constructor
  · intro h
    have hlength := length_le_count labels
    rw [h] at hlength
    exact List.length_eq_zero_iff.1 (Nat.le_zero.1 hlength)
  · rintro rfl
    rfl

lemma toList_buildKey (collator : Collator) (name : String) (labels : Labels) :
    (buildKey collator name labels).toList =
      name.toList ++ if joined (collator.sortEntries labels.entries) = [] then []
        else '\x7b' :: (joined (collator.sortEntries labels.entries) ++ ['\x7d']) := by
  unfold buildKey
  rw [← toList_intercalate_labels]
  generalize ",".intercalate ((collator.sortEntries labels.entries).map labelText) = labelStr
  by_cases h : labelStr = ""
  · simp [h]
  · have hne : labelStr.toList ≠ [] := fun hnil => h (String.toList_eq_nil_iff.1 hnil)
    rw [if_neg hne]
    simp [h]

/-- The name and the text of the labels can be told from the key. -/
lemma buildKey_eq_iff {m m' : Metric} (hm : m.Plain) (hm' : m'.Plain) (collator : Collator) :
    buildKey collator m.name m.labels = buildKey collator m'.name m'.labels ↔ m.name = m'.name ∧
      joined (collator.sortEntries m.labels.entries) =
        joined (collator.sortEntries m'.labels.entries) := by
  have hnames : m.name = m'.name ↔ m.name.toList = m'.name.toList := String.toList_inj.symm
  rw [← String.toList_inj, toList_buildKey, toList_buildKey, hnames]
  generalize joined (collator.sortEntries m.labels.entries) = text
  generalize joined (collator.sortEntries m'.labels.entries) = text'
  constructor
  · intro h
    obtain ⟨hname, hnil, hrest⟩ := List.append_ite_inj hm.1 hm'.1 h
    refine ⟨hname, ?_⟩
    by_cases htext : text = []
    · rw [htext, hnil.1 htext]
    · exact List.append_cancel_right (hrest htext)
  · rintro ⟨hname, rfl⟩
    rw [hname]

/-- Labels are equal as maps exactly when they are sorted into one list. -/
lemma same_iff {collator : Collator} (hsep : collator.Separates) (m m' : Metric) :
    m.Same m' ↔ m.name = m'.name ∧
      collator.sortEntries m.labels.entries = collator.sortEntries m'.labels.entries := by
  unfold Metric.Same
  refine and_congr_right fun _ => ?_
  constructor
  · intro h
    refine collator.sortEntries_eq_of_perm hsep ?_ m'.labels.nodup
    refine (List.perm_ext_iff_of_nodup m.labels.nodup.of_map m'.labels.nodup.of_map).2 ?_
    rintro ⟨k, v⟩
    rw [Js.Map.mem_entries_iff, Js.Map.mem_entries_iff, h k]
  · intro h k
    have hperm : m.labels.entries.Perm m'.labels.entries :=
      (collator.sortEntries_perm _).symm.trans (h ▸ collator.sortEntries_perm _)
    ext v
    rw [← Js.Map.mem_entries_iff, ← Js.Map.mem_entries_iff, hperm.mem_iff]

lemma getCounter_incrementCounter (c : MetricsCollector) (m m' : Metric) (v : Double) :
    (c.incrementCounter m.name v m.labels).getCounter m'.name m'.labels =
      if buildKey c.collator m'.name m'.labels = buildKey c.collator m.name m.labels
      then ((c.getCounter m'.name m'.labels).add v).orZero
      else c.getCounter m'.name m'.labels := by
  simp only [incrementCounter, getCounter, numberAt_set]
  split
  next h => rw [h]
  next => rfl

/-- A new collector, whose counters are zero. -/
lemma getCounter_new (collator : Collator) (m : Metric) :
    (new collator).getCounter m.name m.labels = .finite 0 := rfl

/-- Counters are right exactly when the keys are. -/
lemma tallied_iff (collator : Collator) (m m' : Metric) :
    (∀ c : MetricsCollector, c.collator = collator → ∀ v, Tallied c m m' v) ↔
      (buildKey collator m'.name m'.labels = buildKey collator m.name m.labels ↔ m.Same m') := by
  constructor
  · intro h
    obtain ⟨hsame, hother⟩ := h (new collator) rfl (.finite 1)
    rw [getCounter_incrementCounter, getCounter_new, collator_new] at hsame hother
    by_cases hkey : buildKey collator m'.name m'.labels = buildKey collator m.name m.labels
    · refine iff_of_true hkey (by_contra fun hne => ?_)
      have hone := hother hne
      rw [if_pos hkey] at hone
      exact absurd hone (by decide +kernel)
    · refine iff_of_false hkey fun heq => ?_
      have hzero := hsame heq
      rw [if_neg hkey] at hzero
      exact absurd hzero (by decide +kernel)
  · rintro h c rfl v
    constructor
    · intro hsame
      rw [getCounter_incrementCounter, if_pos (h.2 hsame)]
    · intro hother
      rw [getCounter_incrementCounter, if_neg fun hkey => hother (h.1 hkey)]

/-- Two metrics are told apart or not by the text of their labels. -/
lemma tallied_iff_joined {collator : Collator} (hsep : collator.Separates) {m m' : Metric}
    (hm : m.Plain) (hm' : m'.Plain) :
    (∀ c : MetricsCollector, c.collator = collator → ∀ v, Tallied c m m' v) ↔
      (m.name = m'.name → joined (collator.sortEntries m.labels.entries) =
          joined (collator.sortEntries m'.labels.entries) →
        collator.sortEntries m.labels.entries = collator.sortEntries m'.labels.entries) := by
  rw [tallied_iff, eq_comm, buildKey_eq_iff hm hm', same_iff hsep]
  constructor
  · exact fun h hname htext => (h.1 ⟨hname, htext⟩).2
  · exact fun h => ⟨fun hkey => ⟨hkey.1, h hkey.1 hkey.2⟩, fun hsame => ⟨hsame.1, hsame.2 ▸ rfl⟩⟩

/-! ## Reading a text in another way -/

/-- Labels without separators can be read off their text. -/
lemma joined_inj {l l' : List (String × String)}
    (hl : ∀ e ∈ l, '=' ∉ e.1.toList ∧ ',' ∉ e.2.toList)
    (hl' : ∀ e ∈ l', '=' ∉ e.1.toList ∧ ',' ∉ e.2.toList) (h : joined l = joined l') : l = l' := by
  induction l generalizing l' with
  | nil => exact (joined_eq_nil.1 h.symm).symm
  | cons e l ih =>
    cases l' with
    | nil => exact joined_eq_nil.1 h
    | cons e' l' =>
      obtain ⟨k, v⟩ := e
      obtain ⟨k', v'⟩ := e'
      obtain ⟨⟨hk, hv⟩, hl⟩ := List.forall_mem_cons.1 hl
      obtain ⟨⟨hk', hv'⟩, hl'⟩ := List.forall_mem_cons.1 hl'
      rw [joined_cons, joined_cons] at h
      obtain ⟨hkey, hrest⟩ := List.append_cons_inj_of_left hk hk' h
      obtain ⟨hvalue, hnil, hlater⟩ := List.append_ite_inj hv hv' hrest
      have htail : l = l' := by
        by_cases hempty : l = []
        · rw [hempty, hnil.1 hempty]
        · exact ih hl hl' (hlater hempty)
      obtain rfl : k = k' := String.toList_inj.1 hkey
      obtain rfl : v = v' := String.toList_inj.1 hvalue
      rw [htail]

/-- A text with one `=` is that of one label only. -/
lemma joined_eq_singleton {k v : String} (hk : '=' ∉ k.toList) (hv : '=' ∉ v.toList)
    {l : List (String × String)} (h : joined l = joined [(k, v)]) : l = [(k, v)] := by
  have hcount : (joined [(k, v)]).count '=' = 1 := by
    rw [joined_cons, if_pos rfl, List.append_nil, List.count_append, List.count_cons_self,
      List.count_eq_zero_of_not_mem hk, List.count_eq_zero_of_not_mem hv]
  have hlength := length_le_count l
  rw [h, hcount] at hlength
  match l with
  | [] => exact absurd (joined_eq_nil.1 h.symm) (by simp)
  | [(k', v')] =>
    simp only [joined_cons, if_true, List.append_nil] at h
    obtain ⟨hkey, -, hvalue⟩ := (List.append_cons_inj_of_notMem hk hv).1 h.symm
    rw [String.toList_inj.1 hkey, String.toList_inj.1 hvalue]
  | _ :: _ :: _ => simp at hlength

/-- A text of several labels, or of one with a further `=`, is also that of another label. -/
lemma exists_other_label {l : List (String × String)} (hne : l ≠ [])
    (h : ∀ k v, l = [(k, v)] → '=' ∈ k.toList ∨ '=' ∈ v.toList) :
    ∃ k v, joined [(k, v)] = joined l ∧ [(k, v)] ≠ l := by
  match l with
  | [] => exact absurd rfl hne
  | [(k, v)] =>
    obtain hk | hv := h k v rfl
    · obtain ⟨first, second, hsplit⟩ := List.append_of_mem hk
      refine ⟨String.ofList first, String.ofList (second ++ '=' :: v.toList), ?_, ?_⟩
      · simp [joined_cons, hsplit]
      · rintro heq
        have hkey : String.ofList first = k := congrArg Prod.fst (List.singleton_inj.1 heq)
        rw [← hkey, String.toList_ofList] at hsplit
        simp at hsplit
    · obtain ⟨first, second, hsplit⟩ := List.append_of_mem hv
      refine ⟨String.ofList (k.toList ++ '=' :: first), String.ofList second, ?_, ?_⟩
      · simp [joined_cons, hsplit]
      · rintro heq
        have hvalue : String.ofList second = v := congrArg Prod.snd (List.singleton_inj.1 heq)
        rw [← hvalue, String.toList_ofList] at hsplit
        have hlength := congrArg List.length hsplit
        rw [List.length_append, List.length_cons] at hlength
        omega
  | (k, v) :: e :: rest =>
    refine ⟨k, String.ofList (v.toList ++ ',' :: joined (e :: rest)), ?_, by simp⟩
    rw [joined_cons k v, joined_cons k, if_pos rfl, if_neg (List.cons_ne_nil e rest),
      String.toList_ofList, List.append_nil]

/-! ## Result -/

/-- A label set with one label. -/
def oneLabel (k v : String) : Labels := ⟨[(k, v)], List.nodup_singleton k⟩

lemma tallied_of_separated {collator : Collator} (hsep : collator.Separates) {m m' : Metric}
    (hm : m.Plain) (hm' : m'.Plain) (hl : m.Separated) (hl' : m'.Separated) :
    ∀ c : MetricsCollector, c.collator = collator → ∀ v, Tallied c m m' v := by
  rw [tallied_iff_joined hsep hm hm']
  intro _ htext
  refine joined_inj (fun e he => hl e ?_) (fun e he => hl' e ?_) htext
  · exact (collator.sortEntries_perm _).mem_iff.1 he
  · exact (collator.sortEntries_perm _).mem_iff.1 he

/-- **Which metrics are identified.**  A metric shares its counter with no other one exactly when
it has no label, or one label in which no further `=` occurs; and any two metrics whose labels have
no separator where it could be taken for one are told apart. -/
theorem identified_iff {collator : Collator} (hsep : collator.Separates) :
    (∀ m : Metric, m.Plain → (Identified collator m ↔ m.Unambiguous)) ∧
    ∀ m m' : Metric, m.Plain → m'.Plain → m.Separated → m'.Separated →
      ∀ c : MetricsCollector, c.collator = collator → ∀ v, Tallied c m m' v := by
  refine ⟨fun m hm => ?_, fun m m' hm hm' hl hl' => tallied_of_separated hsep hm hm' hl hl'⟩
  have hperm := collator.sortEntries_perm m.labels.entries
  constructor
  · intro h
    by_contra hambiguous
    obtain ⟨hne, hmany⟩ := not_or.1 hambiguous
    have hsorted : collator.sortEntries m.labels.entries ≠ [] := fun hnil =>
      hne (List.nil_perm.1 (hnil ▸ hperm))
    obtain ⟨k, v, htext, hother⟩ := exists_other_label hsorted fun k v hone => by
      by_contra hnone
      obtain ⟨hk, hv⟩ := not_or.1 hnone
      exact hmany ⟨k, v, List.perm_singleton.1 (hone ▸ hperm).symm, hk, hv⟩
    have hplain : Metric.Plain ⟨m.name, oneLabel k v⟩ := hm
    have hread := (tallied_iff_joined hsep hm hplain).1 (h _ hplain)
    exact hother (hread rfl htext.symm).symm
  · intro h m' hm'
    rw [tallied_iff_joined hsep hm hm']
    intro _ htext
    obtain hnil | ⟨k, v, hone, hk, hv⟩ := h
    · rw [hnil] at htext ⊢
      exact (joined_eq_nil.1 htext.symm).symm
    · rw [hone] at htext ⊢
      exact (joined_eq_singleton hk hv htext.symm).symm

theorem identified_iff_byCodePoint :
    (∀ m : Metric, m.Plain → (Identified .byCodePoint m ↔ m.Unambiguous)) ∧
    ∀ m m' : Metric, m.Plain → m'.Plain → m.Separated → m'.Separated →
      ∀ c : MetricsCollector, c.collator = .byCodePoint → ∀ v, Tallied c m m' v :=
  identified_iff Collator.byCodePoint_separates

/-- Two labels and one label whose value reads like the rest. -/
theorem labels_share : ¬ ∀ c : MetricsCollector, c.collator.Separates →
    ∀ m m' : Metric, m.Plain → m'.Plain → ∀ v, Tallied c m m' v := by
  intro h
  have hread := (h (new .byCodePoint) Collator.byCodePoint_separates
    ⟨"requests", ⟨[("a", "1"), ("b", "2")], by decide⟩⟩ ⟨"requests", oneLabel "a" "1,b=2"⟩
    (by decide) (by decide) (.finite 1)).2 fun hsame => absurd (hsame.2 "b") (by decide)
  exact absurd hread (by decide +kernel)

end MetricsCollector

end SyncEngine
