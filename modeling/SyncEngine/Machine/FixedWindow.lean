import Mathlib

/-!
# Fixed windows

A counter of requests in windows of a length `w`: a window opens with the first request after the
one before it is over, and it is over `w` later.  `hits` goes through the times of the requests and
says for each in which window it falls and how many have fallen in it by then.

Windows follow each other at a distance of at least `w` (`pairwise_hits`).  Where the first `m`
requests of a window are admitted, `m` are admitted in every window (`admitted_in_window`), so
`2 * m` in every interval of the same length, which can meet two windows (`admitted_in_interval`);
and one is turned away only after `m` of its window were admitted (`admitted_before`).
-/

namespace FixedWindow

/-- The requests counted in a window, and the time at which it is over. -/
structure Window where
  count : ℕ
  resetAt : ℕ
  deriving DecidableEq

/-- The window in which a request falls, with the request counted. -/
def hit (w now : ℕ) : Option Window → Window
  | none => ⟨1, now + w⟩
  | some win => if win.resetAt ≤ now then ⟨1, now + w⟩ else ⟨win.count + 1, win.resetAt⟩

/-- A request, and its window at that time. -/
structure Hit where
  time : ℕ
  window : Window
  deriving DecidableEq

def hits (w : ℕ) : Option Window → List ℕ → List Hit
  | _, [] => []
  | s, now :: later => ⟨now, hit w now s⟩ :: hits w (some (hit w now s)) later

/-- A request counted in window `b` comes after one counted in window `a`: it is in the same window,
or in one that opened when the other was over. -/
def Precedes (w : ℕ) (a b : Window) : Prop :=
  a.resetAt = b.resetAt ∧ a.count < b.count ∨ a.resetAt + w ≤ b.resetAt

/-- A request falls in its window. -/
structure Fits (w : ℕ) (h : Hit) : Prop where
  counted : 1 ≤ h.window.count
  opened : h.window.resetAt ≤ h.time + w
  unexpired : 0 < w → h.time < h.window.resetAt

/-- The window, if it is not over. -/
def current (now : ℕ) (s : Option Window) : Option Window := s.filter fun win => now < win.resetAt

variable {w now : ℕ} {s : Option Window}

lemma current_some (now : ℕ) (win : Window) :
    current now (some win) = if now < win.resetAt then some win else none := by
  rw [current, Option.filter_some]
  simp only [decide_eq_true_eq]

/-- A window that is over is as good as none. -/
lemma hit_current (w now : ℕ) (s : Option Window) : hit w now (current now s) = hit w now s := by
  cases s with
  | none => rfl
  | some win =>
    rw [current_some]
    by_cases h : now < win.resetAt
    · rw [if_pos h]
    · rw [if_neg h]
      exact (if_pos (not_lt.1 h)).symm

lemma current_current {now' : ℕ} (hle : now ≤ now') (s : Option Window) :
    current now' (current now s) = current now' s := by
  cases s with
  | none => rfl
  | some win =>
    rw [current_some now win, current_some now' win]
    by_cases h : now < win.resetAt
    · rw [if_pos h, current_some]
    · rw [if_neg h, if_neg fun h' => h (hle.trans_lt h')]
      rfl

lemma hit_cases (w now : ℕ) (s : Option Window) :
    (hit w now s = ⟨1, now + w⟩ ∧ ∀ win, s = some win → win.resetAt ≤ now) ∨
      ∃ win, s = some win ∧ now < win.resetAt ∧ hit w now s = ⟨win.count + 1, win.resetAt⟩ := by
  cases s with
  | none => exact .inl ⟨rfl, fun win h => by cases h⟩
  | some win =>
    by_cases h : win.resetAt ≤ now
    · refine .inl ⟨if_pos h, fun win' heq => ?_⟩
      obtain rfl := Option.some.inj heq
      exact h
    · exact .inr ⟨win, rfl, not_le.1 h, if_neg h⟩

/-- A request opens a window, or is counted in the one that is open. -/
lemma hit_current_cases (w now : ℕ) (s : Option Window) :
    (current now s = none ∧ hit w now s = ⟨1, now + w⟩) ∨
      ∃ win, current now s = some win ∧ now < win.resetAt ∧
        hit w now s = ⟨win.count + 1, win.resetAt⟩ := by
  obtain ⟨hhit, hover⟩ | ⟨win, rfl, hopen, hhit⟩ := hit_cases w now s
  · refine .inl ⟨?_, hhit⟩
    cases s with
    | none => rfl
    | some win => rw [current_some, if_neg (not_lt.2 (hover win rfl))]
  · exact .inr ⟨win, by rw [current_some, if_pos hopen], hopen, hhit⟩

/-- The count of a request is one more than what its window had. -/
lemma count_hit (w now : ℕ) (s : Option Window) :
    (hit w now s).count = ((current now s).map Window.count).getD 0 + 1 := by
  obtain ⟨hnone, hhit⟩ | ⟨win, hsome, -, hhit⟩ := hit_current_cases w now s
  · rw [hnone, hhit]
    rfl
  · rw [hsome, hhit]
    rfl

lemma counted_hit (w now : ℕ) (s : Option Window) : 1 ≤ (hit w now s).count := by
  rw [count_hit]
  exact Nat.le_add_left 1 _

/-- The window of a request is open, if windows have a length. -/
lemma lt_resetAt_hit (hw : 0 < w) (s : Option Window) : now < (hit w now s).resetAt := by
  obtain ⟨-, hhit⟩ | ⟨win, -, hopen, hhit⟩ := hit_current_cases w now s
  · rw [hhit]
    exact Nat.lt_add_of_pos_right hw
  · rw [hhit]
    exact hopen

lemma Precedes.trans {a b c : Window} (hab : Precedes w a b) (hbc : Precedes w b c) :
    Precedes w a c := by
  unfold Precedes at *
  omega

lemma precedes_hit {win : Window} (h : s = some win) : Precedes w win (hit w now s) := by
  obtain ⟨heq, hover⟩ | ⟨win', hwin', -, heq⟩ := hit_cases w now s
  · have := hover win h
    rw [heq]
    exact .inr (by dsimp only; omega)
  · obtain rfl : win = win' := Option.some.inj (h.symm.trans hwin')
    rw [heq]
    exact .inl ⟨rfl, Nat.lt_succ_self _⟩

lemma precedes_of_mem_hits {times : List ℕ} {h : Hit} (hmem : h ∈ hits w s times) {win : Window}
    (hs : s = some win) : Precedes w win h.window := by
  induction times generalizing s win with
  | nil => cases hmem
  | cons now later ih =>
    obtain rfl | hmem := List.mem_cons.1 hmem
    · exact precedes_hit hs
    · exact (precedes_hit hs).trans (ih hmem rfl)

lemma pairwise_hits (s : Option Window) (times : List ℕ) :
    (hits w s times).Pairwise fun a b => Precedes w a.window b.window := by
  induction times generalizing s with
  | nil => exact .nil
  | cons now later ih =>
    exact .cons (fun h hmem => precedes_of_mem_hits hmem rfl) (ih _)

lemma time_mem_of_mem_hits {times : List ℕ} {h : Hit} (hmem : h ∈ hits w s times) :
    h.time ∈ times := by
  induction times generalizing s with
  | nil => cases hmem
  | cons now later ih =>
    obtain rfl | hmem := List.mem_cons.1 hmem
    · exact List.mem_cons_self
    · exact List.mem_cons_of_mem now (ih hmem)

lemma fits_of_mem_hits {times : List ℕ} (hsorted : times.Pairwise (· ≤ ·))
    (hs : ∀ win, s = some win → ∀ t ∈ times, win.resetAt ≤ t + w) {h : Hit}
    (hmem : h ∈ hits w s times) : Fits w h := by
  induction times generalizing s with
  | nil => cases hmem
  | cons now later ih =>
    obtain ⟨hhead, hsorted⟩ := List.pairwise_cons.1 hsorted
    have hopened : (hit w now s).resetAt ≤ now + w := by
      obtain ⟨heq, -⟩ | ⟨win, hwin, -, heq⟩ := hit_cases w now s
      · rw [heq]
      · rw [heq]
        exact hs win hwin now List.mem_cons_self
    obtain rfl | hmem := List.mem_cons.1 hmem
    · exact ⟨counted_hit w now s, hopened, fun hw => lt_resetAt_hit hw s⟩
    · refine ih hsorted (fun win heq t ht => ?_) hmem
      obtain rfl := Option.some.inj heq
      exact hopened.trans (Nat.add_le_add_right (hhead t ht) w)

/-! ## Counting what is admitted -/

/-- Requests of one window with counts up to `m` are at most `m`. -/
lemma length_le_of_same {m : ℕ} {hs : List Hit} (hw : 0 < w)
    (hpair : hs.Pairwise fun a b => Precedes w a.window b.window)
    (hsame : ∀ a ∈ hs, ∀ b ∈ hs, a.window.resetAt = b.window.resetAt)
    (hcount : ∀ a ∈ hs, 1 ≤ a.window.count ∧ a.window.count ≤ m) : hs.length ≤ m := by
  have hlt : hs.Pairwise fun a b => a.window.count < b.window.count := by
    refine hpair.imp_of_mem fun {a b} ha hb h => ?_
    obtain ⟨-, hlt⟩ | hfar := h
    · exact hlt
    · have := hsame a ha b hb
      omega
  have hnodup : (hs.map fun a => a.window.count).Nodup :=
    List.pairwise_map.2 (hlt.imp fun h => h.ne)
  have hsub : (hs.map fun a => a.window.count).toFinset ⊆ Finset.Icc 1 m := by
    intro n hn
    obtain ⟨a, ha, rfl⟩ := List.mem_map.1 (List.mem_toFinset.1 hn)
    exact Finset.mem_Icc.2 (hcount a ha)
  have hcard := Finset.card_le_card hsub
  rwa [List.toFinset_card_of_nodup hnodup, List.length_map, Nat.card_Icc, Nat.add_sub_cancel]
    at hcard

/-- The requests of a window are the ones at its times. -/
lemma resetAt_eq {hs : List Hit} (hw : 0 < w)
    (hpair : hs.Pairwise fun a b => Precedes w a.window b.window) (hfits : ∀ a ∈ hs, Fits w a)
    {a h : Hit} (ha : a ∈ hs) (hh : h ∈ hs) (hfrom : h.window.resetAt ≤ a.time + w)
    (hto : a.time < h.window.resetAt) : a.window.resetAt = h.window.resetAt := by
  have horder : a = h ∨ Precedes w a.window h.window ∨ Precedes w h.window a.window := by
    refine List.Pairwise.forall_of_forall_of_flip (l := hs) (R := fun a h =>
      a = h ∨ Precedes w a.window h.window ∨ Precedes w h.window a.window) ?_ ?_ ?_ ha hh
    · exact fun x _ => .inl rfl
    · exact hpair.imp fun h => .inr (.inl h)
    · exact hpair.imp fun h => .inr (.inr h)
  have hunexpired := (hfits a ha).unexpired hw
  have hopened := (hfits a ha).opened
  unfold Precedes at horder
  obtain rfl | h | h := horder
  · rfl
  · omega
  · omega

section Bounds

variable {m : ℕ} {times : List ℕ}

/-- Requests whose windows are closer to each other than `w` are of one window. -/
lemma length_le_of_close (hw : 0 < w) (hsorted : times.Pairwise (· ≤ ·)) {hs : List Hit}
    (hsub : hs.Sublist (hits w none times)) (hm : ∀ a ∈ hs, a.window.count ≤ m)
    (hclose : ∀ a ∈ hs, ∀ b ∈ hs, Fits w a → Fits w b →
      ¬ a.window.resetAt + w ≤ b.window.resetAt) : hs.length ≤ m := by
  have hfits : ∀ a ∈ hs, Fits w a := fun a ha =>
    fits_of_mem_hits hsorted (fun _ h => by cases h) (hsub.subset ha)
  have hpair := (pairwise_hits none times).sublist hsub
  have hsame : hs.Pairwise fun a b => a.window.resetAt = b.window.resetAt := by
    refine hpair.imp_of_mem fun {a b} ha hb h => ?_
    exact h.elim And.left fun h => absurd h (hclose a ha b hb (hfits a ha) (hfits b hb))
  apply length_le_of_same hw hpair
  · intro a ha b hb
    exact List.Pairwise.forall_of_forall_of_flip
      (R := fun a b : Hit => a.window.resetAt = b.window.resetAt) (fun _ _ => rfl) hsame
      (hsame.imp fun h => h.symm) ha hb
  · exact fun a ha => ⟨(hfits a ha).counted, hm a ha⟩

/-- At most `m` requests are admitted while a window is open. -/
theorem admitted_in_window (hsorted : times.Pairwise (· ≤ ·)) {h : Hit}
    (hh : h ∈ hits w none times) :
    ((hits w none times).filter fun a =>
      a.window.count ≤ m ∧ h.window.resetAt ≤ a.time + w ∧ a.time < h.window.resetAt).length
        ≤ m := by
  obtain rfl | hw := Nat.eq_zero_or_pos w
  · rw [List.filter_eq_nil_iff.2, List.length_nil]
    · exact Nat.zero_le m
    · intro a _
      simp only [decide_eq_true_eq]
      omega
  · have hp : ∀ a ∈ (hits w none times).filter fun a => a.window.count ≤ m ∧
        h.window.resetAt ≤ a.time + w ∧ a.time < h.window.resetAt,
        a.window.count ≤ m ∧ a.window.resetAt = h.window.resetAt := by
      intro a ha
      obtain ⟨hmem, hp⟩ := List.mem_filter.1 ha
      obtain ⟨hcount, hfrom, hto⟩ := of_decide_eq_true hp
      refine ⟨hcount, resetAt_eq hw (pairwise_hits none times) (fun a ha => ?_) hmem hh hfrom hto⟩
      exact fits_of_mem_hits hsorted (fun _ h => by cases h) ha
    refine length_le_of_close hw hsorted List.filter_sublist (fun a ha => (hp a ha).1) ?_
    intro a ha b hb _ _
    rw [(hp a ha).2, (hp b hb).2]
    omega

/-- At most `2 * m` requests are admitted in an interval of the length of a window. -/
theorem admitted_in_interval (hsorted : times.Pairwise (· ≤ ·)) (t : ℕ) :
    ((hits w none times).filter fun a =>
      a.window.count ≤ m ∧ t ≤ a.time ∧ a.time < t + w).length ≤ 2 * m := by
  obtain rfl | hw := Nat.eq_zero_or_pos w
  · rw [List.filter_eq_nil_iff.2, List.length_nil]
    · exact Nat.zero_le _
    · intro a _
      simp only [decide_eq_true_eq]
      omega
  · -- the windows that meet the interval and are over by its end are one, and so are the others
    have hp : ∀ q : Hit → Bool, ∀ a ∈ ((hits w none times).filter fun a =>
        a.window.count ≤ m ∧ t ≤ a.time ∧ a.time < t + w).filter q,
        (a.window.count ≤ m ∧ t ≤ a.time ∧ a.time < t + w) ∧ q a := by
      intro q a ha
      obtain ⟨hmem, hq⟩ := List.mem_filter.1 ha
      exact ⟨of_decide_eq_true (List.mem_filter.1 hmem).2, hq⟩
    rw [List.length_eq_length_filter_add fun a => decide (a.window.resetAt ≤ t + w), two_mul]
    apply Nat.add_le_add
    · refine length_le_of_close hw hsorted (List.filter_sublist.trans List.filter_sublist)
        (fun a ha => (hp _ a ha).1.1) ?_
      intro a ha b hb hfits _
      obtain ⟨⟨-, hfrom, -⟩, -⟩ := hp _ a ha
      obtain ⟨-, hover⟩ := hp _ b hb
      have hunexpired := hfits.unexpired hw
      rw [decide_eq_true_eq] at hover
      omega
    · refine length_le_of_close hw hsorted (List.filter_sublist.trans List.filter_sublist)
        (fun a ha => (hp _ a ha).1.1) ?_
      intro a ha b hb _ hfits
      obtain ⟨-, hover⟩ := hp _ a ha
      obtain ⟨⟨-, -, hto⟩, -⟩ := hp _ b hb
      have hopened := hfits.opened
      rw [Bool.not_eq_true', decide_eq_false_iff_not] at hover
      omega

/-- The requests before one in its window have all the smaller counts. -/
lemma exists_before {counted pre post : List Hit} {x : Hit}
    (hs : ∀ win, s = some win → ∀ j, 1 ≤ j → j ≤ win.count →
      ∃ a ∈ counted, a.window = ⟨j, win.resetAt⟩)
    (hsplit : hits w s times = pre ++ x :: post) {j : ℕ} (hj : 1 ≤ j) (hlt : j < x.window.count) :
    ∃ a ∈ counted ++ pre, a.window = ⟨j, x.window.resetAt⟩ := by
  induction times generalizing s counted pre with
  | nil => simp [hits] at hsplit
  | cons now later ih =>
    -- what is known of the window before the first request, carried over to the one it falls in
    have hfirst : ∀ j, 1 ≤ j → j < (hit w now s).count →
        ∃ a ∈ counted, a.window = ⟨j, (hit w now s).resetAt⟩ := by
      intro j hj hlt
      obtain ⟨heq, -⟩ | ⟨win, hwin, -, heq⟩ := hit_cases w now s
      · rw [heq] at hlt
        exact absurd hlt (not_lt.2 hj)
      · rw [heq] at hlt ⊢
        exact hs win hwin j hj (Nat.lt_succ_iff.1 hlt)
    cases pre with
    | nil =>
      obtain ⟨rfl, -⟩ := List.cons.inj hsplit
      rw [List.append_nil]
      exact hfirst j hj hlt
    | cons y pre =>
      obtain ⟨rfl, htail⟩ := List.cons.inj hsplit
      have hnext : ∀ win, some (hit w now s) = some win → ∀ j, 1 ≤ j → j ≤ win.count →
          ∃ a ∈ counted ++ [⟨now, hit w now s⟩], a.window = ⟨j, win.resetAt⟩ := by
        intro win hwin j hj hle
        obtain rfl := Option.some.inj hwin
        obtain hlt | rfl := hle.lt_or_eq
        · obtain ⟨a, ha, hwindow⟩ := hfirst j hj hlt
          exact ⟨a, List.mem_append_left _ ha, hwindow⟩
        · exact ⟨_, List.mem_append_right _ List.mem_cons_self, rfl⟩
      obtain ⟨a, ha, hwindow⟩ := ih hnext htail
      refine ⟨a, ?_, hwindow⟩
      rwa [List.append_assoc, List.singleton_append] at ha

/-- A request is turned away only after `m` of its window were admitted. -/
theorem admitted_before {pre post : List Hit} {x : Hit}
    (hsplit : hits w none times = pre ++ x :: post)
    (hx : m < x.window.count) :
    m ≤ (pre.filter fun a => a.window.count ≤ m ∧ a.window.resetAt = x.window.resetAt).length := by
  have hsub : Finset.Icc 1 m ⊆ ((pre.filter fun a => a.window.count ≤ m ∧
      a.window.resetAt = x.window.resetAt).map fun a => a.window.count).toFinset := by
    intro j hj
    obtain ⟨hj, hle⟩ := Finset.mem_Icc.1 hj
    obtain ⟨a, ha, hwindow⟩ : ∃ a ∈ [] ++ pre, a.window = ⟨j, x.window.resetAt⟩ :=
      exists_before (fun _ h => by cases h) hsplit hj (hle.trans_lt hx)
    rw [List.nil_append] at ha
    rw [List.mem_toFinset, List.mem_map]
    refine ⟨a, List.mem_filter.2 ⟨ha, ?_⟩, by rw [hwindow]⟩
    rw [hwindow]
    exact decide_eq_true ⟨hle, rfl⟩
  have hcard := (Finset.card_le_card hsub).trans (List.toFinset_card_le _)
  rwa [Nat.card_Icc, Nat.add_sub_cancel, List.length_map] at hcard

end Bounds

/-! ## What follows a request -/

section Later

variable {times : List ℕ} {win : Window} {i : ℕ} {h : Hit}

/-- The requests that come while a window is open are counted in it one by one. -/
lemma window_of_open (hsorted : times.Pairwise (· ≤ ·))
    (hi : (hits w (some win) times)[i]? = some h) (hopen : h.time < win.resetAt) :
    h.window = ⟨win.count + (i + 1), win.resetAt⟩ := by
  induction times generalizing win i with
  | nil => cases hi
  | cons now later ih =>
    obtain ⟨hhead, hsorted⟩ := List.pairwise_cons.1 hsorted
    cases i with
    | zero =>
      obtain rfl := Option.some.inj hi
      exact if_neg (not_le.2 hopen)
    | succ i =>
      have hmem : h ∈ hits w (some (hit w now (some win))) later := List.mem_of_getElem? hi
      have hfirst : hit w now (some win) = ⟨win.count + 1, win.resetAt⟩ :=
        if_neg (not_le.2 ((hhead h.time (time_mem_of_mem_hits hmem)).trans_lt hopen))
      have hlater := ih hsorted hi (by rw [hfirst]; exact hopen)
      rw [hlater, hfirst, Nat.add_assoc, Nat.add_comm 1]

/-- The first request after a window is over opens the next. -/
lemma window_of_over (hi : (hits w (some win) times)[i]? = some h)
    (hbefore : ∀ j < i, ∀ h', (hits w (some win) times)[j]? = some h' → h'.time < win.resetAt)
    (hover : win.resetAt ≤ h.time) : h.window = ⟨1, h.time + w⟩ := by
  induction times generalizing win i with
  | nil => cases hi
  | cons now later ih =>
    cases i with
    | zero =>
      obtain rfl := Option.some.inj hi
      exact if_pos hover
    | succ i =>
      have hfirst : hit w now (some win) = ⟨win.count + 1, win.resetAt⟩ :=
        if_neg (not_le.2 (hbefore 0 (Nat.succ_pos i) _ rfl))
      refine ih hi (fun j hj h' hh' => ?_) (by rw [hfirst]; exact hover)
      rw [hfirst]
      exact hbefore (j + 1) (Nat.succ_lt_succ hj) h' hh'

end Later

end FixedWindow
