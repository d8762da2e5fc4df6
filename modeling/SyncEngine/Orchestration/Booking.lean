import SyncEngine.Orchestration.FailedTicks

/-!
# Double booking

The queue is keyed by mode and a tick never looks at the matches that are on, so nothing keeps a
player from waiting twice, or for a match while in one.  `Bookable` is the condition on the inputs
under which no player is booked twice: a player enters the queue only while neither waiting nor in
a match that has not been ended, and ticks run to their end.

`Rostered` says that the matches are in order and that the players of a given set are in none of
them.  The loop keeps it while it moves players from the set into matches (`Rostered.loop`), and
`Booking` is the invariant of the run, where the set is that of the waiting players.
-/

namespace SyncEngine

open Js

namespace Orchestrator

variable {limits : ServerLimits} {σ τ : Orchestrator}

/-- The match has not been ended. -/
def Live (σ : Orchestrator) (id : MatchId) (m : MatchInfo) : Prop :=
  σ.matchMap.get? id = some m ∧ m.endedAt = none

/-- Nobody is booked twice: not in one match, not in two matches that have not been ended, and no
request in two matches at all. -/
structure BookedOnce (σ : Orchestrator) : Prop where
  players_nodup : ∀ id m, σ.matchMap.get? id = some m → m.players.Nodup
  apart : ∀ id id' m m' p, Live σ id m → Live σ id' m' → p ∈ m.players → p ∈ m'.players → id = id'
  requests_nodup : ((placedIn σ.placements).map fun q => q.ticket).Nodup

/-- Ticks run to their end. -/
def TicksEnd (limits : ServerLimits) (σ : Orchestrator) : Input → Prop
  | .tick => (σ.processQueues limits).2 = none
  | _ => True

/-- A player enters the queue only while neither waiting nor in a match that has not been ended,
and a tick runs to its end. -/
def Bookable (limits : ServerLimits) (σ : Orchestrator) : Input → Prop
  | .enqueue p _ _ _ _ =>
    (∀ q ∈ σ.queued, q.playerId ≠ p) ∧ ∀ id m, Live σ id m → p ∉ m.players
  | .tick => (σ.processQueues limits).2 = none
  | _ => True

/-! ## The matches -/

/-- The matches are in order, and the players in `waiting` are in none that has not been ended. -/
structure Rostered (waiting : PlayerId → Prop) (σ : Orchestrator) : Prop where
  id_lt : ∀ id m, σ.matchMap.get? id = some m → id < σ.nextMatch
  players_nodup : ∀ id m, σ.matchMap.get? id = some m → m.players.Nodup
  apart : ∀ id id' m m' p, Live σ id m → Live σ id' m' → p ∈ m.players → p ∈ m'.players → id = id'
  free : ∀ p, waiting p → ∀ id m, Live σ id m → p ∉ m.players

namespace Rostered

variable {waiting : PlayerId → Prop}

lemma mono {waiting' : PlayerId → Prop} (h : Rostered waiting σ)
    (himp : ∀ p, waiting' p → waiting p) : Rostered waiting' σ :=
  { h with free := fun p hp => h.free p (himp p hp) }

/-- The matches keep their players, and those that were ended stay so. -/
lemma of_kept (h : Rostered waiting σ) (hkept : ∀ id m, τ.matchMap.get? id = some m →
      ∃ m', σ.matchMap.get? id = some m' ∧ m'.players = m.players ∧
        (m.endedAt = none → m'.endedAt = none))
    (hnext : τ.nextMatch = σ.nextMatch) : Rostered waiting τ := by
  have hlive : ∀ {id m}, Live τ id m → ∃ m', Live σ id m' ∧ m'.players = m.players := by
    rintro id m ⟨hm, hend⟩
    obtain ⟨m', hm', hplayers, hended⟩ := hkept id m hm
    exact ⟨m', ⟨hm', hended hend⟩, hplayers⟩
  refine ⟨fun id m hm => ?_, fun id m hm => ?_, fun id id' m m' p hm hm' hp hp' => ?_,
    fun p hp id m hm hmem => ?_⟩
  · obtain ⟨m', hm', -⟩ := hkept id m hm
    rw [hnext]
    exact h.id_lt id m' hm'
  · obtain ⟨m', hm', hplayers, -⟩ := hkept id m hm
    rw [← hplayers]
    exact h.players_nodup id m' hm'
  · obtain ⟨n, hn, heq⟩ := hlive hm
    obtain ⟨n', hn', heq'⟩ := hlive hm'
    exact h.apart id id' n n' p hn hn' (heq ▸ hp) (heq' ▸ hp')
  · obtain ⟨n, hn, heq⟩ := hlive hm
    exact h.free p hp id n hn (heq ▸ hmem)

lemma of_eq (h : Rostered waiting σ) (hmatches : τ.matchMap = σ.matchMap)
    (hnext : τ.nextMatch = σ.nextMatch) : Rostered waiting τ :=
  h.of_kept (fun _ m hm => ⟨m, hmatches ▸ hm, rfl, id⟩) hnext

/-- A new match takes its players from those who wait. -/
lemma created {players : List MatchRequest} {chosen : Option GameServerInfo} {info : MatchInfo}
    (h : Rostered waiting σ) (hc : MatchCreated σ τ players chosen info)
    (hnodup : (players.map fun q => q.playerId).Nodup)
    (hwaiting : ∀ q ∈ players, waiting q.playerId) :
    Rostered (fun p => waiting p ∧ ∀ q ∈ players, q.playerId ≠ p) τ := by
  have hinfo : ∀ p ∈ info.players, waiting p := by
    intro p hp
    rw [hc.info_players] at hp
    obtain ⟨q, hq, rfl⟩ := List.mem_map.1 hp
    exact hwaiting q hq
  refine ⟨fun id m hm => ?_, fun id m hm => ?_, fun id id' m m' p hm hm' hp hp' => ?_,
    fun p hp id m hm hmem => ?_⟩
  · rw [hc.nextMatch]
    rcases hc.match_cases hm with ⟨rfl, -⟩ | ⟨-, hold⟩
    · exact Nat.lt_succ_self _
    · exact Nat.lt_succ_of_lt (h.id_lt id m hold)
  · rcases hc.match_cases hm with ⟨-, rfl⟩ | ⟨-, hold⟩
    · rwa [hc.info_players]
    · exact h.players_nodup id m hold
  · rcases hc.match_cases hm.1 with ⟨rfl, rfl⟩ | ⟨-, hold⟩ <;>
      rcases hc.match_cases hm'.1 with ⟨rfl, rfl⟩ | ⟨-, hold'⟩
    · rfl
    · exact absurd hp' (h.free p (hinfo p hp) id' m' ⟨hold', hm'.2⟩)
    · exact absurd hp (h.free p (hinfo p hp') id m ⟨hold, hm.2⟩)
    · exact h.apart id id' m m' p ⟨hold, hm.2⟩ ⟨hold', hm'.2⟩ hp hp'
  · rcases hc.match_cases hm.1 with ⟨-, rfl⟩ | ⟨-, hold⟩
    · rw [hc.info_players] at hmem
      obtain ⟨q, hq, heq⟩ := List.mem_map.1 hmem
      exact hp.2 q hq heq
    · exact h.free p hp.1 id m ⟨hold, hm.2⟩ hmem

/-- The loop moves the players of the requests it places from the waiting ones into matches. -/
lemma loop {mode : String} {cfg : MatchmakingConfig} {sorted : List MatchRequest}
    {r : Except OrchestrationError (List MatchRequest)} (h : Rostered waiting σ)
    (hloop : Loop limits mode cfg sorted σ τ r) (hnodup : (sorted.map fun q => q.playerId).Nodup)
    (hwaiting : ∀ q ∈ sorted, waiting q.playerId) :
    ∃ ps, τ.placements = σ.placements ++ ps ∧
      Rostered (fun p => waiting p ∧ ∀ q ∈ placedIn ps, q.playerId ≠ p) τ := by
  induction hloop generalizing waiting with
  | few _ | short _ _ | thrown _ _ =>
    exact ⟨[], (List.append_nil _).symm, h.mono fun p hp => hp.1⟩
  | @matched sorted σ τ υ r _ hmatch _ ih =>
    obtain ⟨chosen, info, hc⟩ := createMatch_created hmatch
    rw [← List.take_append_drop (groupSize cfg sorted) sorted, List.map_append,
      List.nodup_append] at hnodup
    obtain ⟨hgroup, hrest, hapart⟩ := hnodup
    have hone := h.created hc hgroup fun q hq => hwaiting q (List.mem_of_mem_take hq)
    obtain ⟨ps, hps, hrostered⟩ := ih hone hrest fun q hq =>
      ⟨hwaiting q (List.mem_of_mem_drop hq), fun g hg heq =>
        hapart _ (List.mem_map_of_mem hg) _ (List.mem_map_of_mem hq) heq⟩
    refine ⟨⟨σ.nextMatch, _, chosen, σ.seats info.serverId⟩ :: ps,
      by rw [hps, hc.placements, List.append_assoc, List.singleton_append], hrostered.mono ?_⟩
    rintro p ⟨hp, hout⟩
    rw [placedIn_cons] at hout
    exact ⟨⟨hp, fun q hq => hout q (List.mem_append_left _ hq)⟩,
      fun q hq => hout q (List.mem_append_right _ hq)⟩

end Rostered

/-- The matches behind a change to one of them that keeps its players and its end. -/
lemma matches_modify (id : MatchId) (f : MatchInfo → MatchInfo)
    (hf : ∀ m, (f m).players = m.players ∧ (f m).endedAt = m.endedAt) :
    ∀ j m, (σ.matchMap.modify id f).get? j = some m →
      ∃ m', σ.matchMap.get? j = some m' ∧ m'.players = m.players ∧
        (m.endedAt = none → m'.endedAt = none) := by
  intro j m hm
  rw [Js.Map.get?_modify] at hm
  split at hm
  next hj =>
    obtain ⟨m', hm', rfl⟩ := Option.map_eq_some_iff.1 hm
    exact ⟨m', hj ▸ hm', (hf m').1.symm, fun h => by rwa [(hf m').2] at h⟩
  · exact ⟨m, hm, rfl, fun h => h⟩

/-- Only ticks create matches; the others keep the players of every match, and a match that was
ended stays so. -/
lemma matches_step {i : Input} (htick : i ≠ .tick) :
    (step limits σ i).nextMatch = σ.nextMatch ∧
      ∀ id m, (step limits σ i).matchMap.get? id = some m →
        ∃ m', σ.matchMap.get? id = some m' ∧ m'.players = m.players ∧
          (m.endedAt = none → m'.endedAt = none) := by
  have hsame : ∀ {τ : Orchestrator}, τ.nextMatch = σ.nextMatch → τ.matchMap = σ.matchMap →
      τ.nextMatch = σ.nextMatch ∧ ∀ id m, τ.matchMap.get? id = some m →
        ∃ m', σ.matchMap.get? id = some m' ∧ m'.players = m.players ∧
          (m.endedAt = none → m'.endedAt = none) :=
    fun hnext hmatches => ⟨hnext, fun _ m hm => ⟨m, hmatches ▸ hm, rfl, fun h => h⟩⟩
  cases i with
  | tick => exact absurd rfl htick
  | enqueue p mode map skill t => exact hsame rfl rfl
  | setModeConfig mode cfg => exact hsame rfl rfl
  | stopServers => exact hsame rfl rfl
  | wait ms => exact hsame rfl rfl
  | dequeue p mode =>
    obtain ⟨_, heq⟩ := exists_dequeue p mode σ
    rw [step, heq]
    exact hsame rfl rfl
  | createServer cfg =>
    rcases step_createServer limits cfg σ with heq | ⟨_, _, -, -, heq⟩ <;> rw [heq]
    · exact hsame rfl rfl
    · exact hsame (τ := { σ with manager := _, timers := _ }) rfl rfl
  | stopServer id =>
    obtain ⟨_, heq⟩ := exists_stopServer id σ
    rw [step, heq]
    exact hsame rfl rfl
  | removeServer id =>
    obtain ⟨_, _, -, heq⟩ := exists_removeServer id σ
    rw [step, heq]
    exact hsame rfl rfl
  | endMatch id =>
    simp only [step, endMatch]
    split
    · exact hsame rfl rfl
    next m hm =>
      refine ⟨rfl, fun j n hn => ?_⟩
      rw [setTimeout, Js.Map.get?_set] at hn
      split at hn
      next hj =>
        obtain rfl := Option.some.inj hn
        exact ⟨m, hj ▸ hm, rfl, by simp⟩
      · exact ⟨n, hn, rfl, fun h => h⟩
  | fire i =>
    rcases step_fire limits i σ with heq | ⟨timer, _, -, heq⟩ <;> rw [heq]
    · exact hsame rfl rfl
    · cases timer.callback with
      | serverStarted id => exact hsame rfl rfl
      | serverStopped id => exact hsame rfl rfl
      | matchStarted id =>
        refine ⟨rfl, matches_modify id _ fun m => ?_⟩
        split <;> exact ⟨rfl, rfl⟩
      | matchCompleted id => exact ⟨rfl, matches_modify id _ fun m => ⟨rfl, rfl⟩⟩

/-! ## The run -/

/-- Every player waits at most once, and not while in a match that has not been ended. -/
structure Booking (σ : Orchestrator) : Prop where
  ticketed : Ticketed σ
  rostered : Rostered (fun p => ∃ m, ∃ q ∈ σ.queueAt m, q.playerId = p) σ
  players_nodup : ∀ m, ((σ.queueAt m).map fun q => q.playerId).Nodup
  players_inj : ∀ m m', ∀ q ∈ σ.queueAt m, ∀ q' ∈ σ.queueAt m',
    q.playerId = q'.playerId → q = q'

namespace Booking

lemma new : Booking new := by
  refine ⟨Ticketed.new, ⟨?_, ?_, ?_, ?_⟩, ?_, ?_⟩ <;>
    simp [queueAt, Live, Orchestrator.new]

lemma bookedOnce (h : Booking σ) : BookedOnce σ :=
  ⟨h.rostered.players_nodup, h.rostered.apart, h.ticketed.placed_nodup⟩

/-- Queues that shrink, while matches are kept. -/
lemma of_sublist (h : Booking σ) (hticketed : Ticketed τ)
    (hqueue : ∀ m, (τ.queueAt m).Sublist (σ.queueAt m))
    (hrostered : Rostered (fun p => ∃ m, ∃ q ∈ τ.queueAt m, q.playerId = p) τ) : Booking τ :=
  ⟨hticketed, hrostered, fun m => (h.players_nodup m).sublist ((hqueue m).map _),
    fun m m' q hq q' hq' => h.players_inj m m' q ((hqueue m).subset hq) q' ((hqueue m').subset hq')⟩

/-- A mode that is processed to its end. -/
lemma processQueue (h : Booking σ) {mode : String} {queue : List MatchRequest}
    {cfg : MatchmakingConfig} (hqueue : σ.queueAt mode = queue)
    (hp : processQueue limits mode queue cfg σ = (τ, none)) : Booking τ := by
  have hspec := @processQueue_processed limits mode queue cfg σ
  rw [hp] at hspec
  set active := activeOf σ.clock cfg queue with hactive
  have hsub : active.Sublist (σ.queueAt mode) := by
    rw [hqueue]
    exact activeOf_sublist _ _ _
  have hnodup : (active.map fun q => q.playerId).Nodup :=
    (h.players_nodup mode).sublist (hsub.map _)
  -- players wait once, so that nobody is both placed and left
  have hsafe : SafeMode limits mode cfg active σ none := by
    have hperm := ((placedOf_append_leftOf cfg active).map fun q => q.playerId).nodup_iff.2 hnodup
    rw [List.map_append, List.nodup_append] at hperm
    exact fun p hp l hl => hperm.2.2 _ (List.mem_map_of_mem hp) _ (List.mem_map_of_mem hl)
  have hshrinks := hspec.queueAt_sublist hsub
  refine h.of_sublist (h.ticketed.processed hspec hsub hsafe) hshrinks ?_
  rcases processQueue_cases limits mode queue cfg σ hactive.symm rfl with
    ⟨-, heq⟩ | ⟨υ, e, -, heq⟩ | ⟨υ, left, hloop, heq⟩
  · obtain ⟨rfl, -⟩ := Prod.mk.inj (hp.symm.trans heq)
    refine (h.rostered.mono ?_).of_eq rfl rfl
    rintro p ⟨m, q, hq, hplayer⟩
    exact ⟨m, q, (hshrinks m).subset hq, hplayer⟩
  · simp [hp] at heq
  · obtain ⟨queue', hrequeue⟩ := exists_requeue mode
      (active.filter fun q => q.playerId ∈ left.map fun s => s.playerId) υ
    rw [hrequeue] at heq
    obtain ⟨rfl, -⟩ := Prod.mk.inj (hp.symm.trans heq)
    have hsorted := ((sortBySkill_perm active).map fun q => q.playerId).nodup_iff.2 hnodup
    have hset := h.rostered.of_eq (τ := { σ with queue := σ.queue.set mode active }) rfl rfl
    obtain ⟨ps, hps, hrostered⟩ := hset.loop hloop hsorted fun q hq =>
      ⟨mode, q, hsub.subset ((sortBySkill_perm active).mem_iff.1 hq), rfl⟩
    have hgone := (hspec.placed_not_mem_iff hps).2 hsafe
    obtain ⟨ps', hps', hmem, -⟩ := hspec.placed
    obtain rfl : ps = ps' := List.append_cancel_left (hps.symm.trans hps')
    refine (hrostered.mono ?_).of_eq rfl rfl
    rintro p ⟨m, q, hq, rfl⟩
    refine ⟨⟨m, q, (hshrinks m).subset hq, rfl⟩, fun q' hq' heq' => ?_⟩
    obtain rfl := h.players_inj mode m q' (hsub.subset (hmem q' hq')) q
      ((hshrinks m).subset hq) heq'
    have hkey : q'.mode = mode := h.ticketed.keyed mode q' (hsub.subset (hmem q' hq'))
    have hkey' : q'.mode = m := h.ticketed.keyed m q' ((hshrinks m).subset hq)
    exact hgone q' hq' (by rw [← hkey, hkey']; exact hq)

lemma processModes (modes : List (String × List MatchRequest)) {σ : Orchestrator} (h : Booking σ)
    (hkeys : (modes.map Prod.fst).Nodup) (hholds : ∀ entry ∈ modes, σ.queueAt entry.1 = entry.2)
    (hr : (processModes limits modes σ).2 = none) : Booking (processModes limits modes σ).1 := by
  induction modes generalizing σ with
  | nil => exact h
  | cons entry modes ih =>
    obtain ⟨mode, queue⟩ := entry
    rw [List.map_cons, List.nodup_cons] at hkeys
    rcases hp : Orchestrator.processQueue limits mode queue (σ.configOf mode) σ with ⟨τ, - | e⟩
    · simp only [Orchestrator.processModes, hp] at hr ⊢
      have hspec := @processQueue_processed limits mode queue (σ.configOf mode) σ
      rw [hp] at hspec
      refine ih (h.processQueue (hholds (mode, queue) List.mem_cons_self) hp) hkeys.2
        (fun entry hentry => ?_) hr
      have hmem : entry.1 ∈ modes.map Prod.fst := List.mem_map_of_mem hentry
      have hne : entry.1 ≠ mode := fun heq => hkeys.1 (heq ▸ hmem)
      rw [hspec.others entry.1 hne]
      exact hholds entry (List.mem_cons_of_mem _ hentry)
    · simp [Orchestrator.processModes, hp] at hr

/-- A player enters the queue. -/
lemma enqueue (h : Booking σ) {p : PlayerId} (mode : String) (map : Option String)
    (skill : Option ℚ) (t : Timestamp) (hqueue : ∀ q ∈ σ.queued, q.playerId ≠ p)
    (hmatches : ∀ id m, Live σ id m → p ∉ m.players) :
    Booking (σ.enqueue p mode map skill t) := by
  have hnew : ∀ m, ∀ q ∈ σ.queueAt m, q.playerId ≠ p := fun m q hq =>
    hqueue q (mem_queued.2 ⟨m, hq⟩)
  refine ⟨h.ticketed.enqueue p mode map skill t, ⟨h.rostered.id_lt, h.rostered.players_nodup,
    h.rostered.apart, ?_⟩, fun m => ?_, fun m m' q hq q' hq' heq => ?_⟩
  · rintro p' ⟨m, q, hq, rfl⟩
    rcases mem_queueAt_enqueue hq with hq | ⟨-, rfl⟩
    · exact h.rostered.free q.playerId ⟨m, q, hq, rfl⟩
    · exact hmatches
  · rw [queueAt_enqueue]
    split
    · rw [List.map_append, List.nodup_append]
      refine ⟨h.players_nodup mode, by simp, ?_⟩
      rintro a ha b hb rfl
      obtain ⟨q, hq, heq⟩ := List.mem_map.1 ha
      simp only [List.map_cons, List.map_nil, List.mem_singleton] at hb
      exact hnew mode q hq (heq.trans hb)
    · exact h.players_nodup m
  · rcases mem_queueAt_enqueue hq with hq | ⟨-, rfl⟩ <;>
      rcases mem_queueAt_enqueue hq' with hq' | ⟨-, rfl⟩
    · exact h.players_inj m m' q hq q' hq' heq
    · exact absurd heq (hnew m q hq)
    · exact absurd heq.symm (hnew m' q' hq')
    · rfl

end Booking

lemma booking_step (h : Booking σ) {i : Input} (hi : Bookable limits σ i) :
    Booking (step limits σ i) := by
  by_cases htick : i = .tick
  · subst htick
    exact h.processModes σ.queue.entries σ.queue.nodup
      (fun entry hentry => queueAt_of_mem_entries hentry) hi
  obtain ⟨hnext, hmatches⟩ := @matches_step limits σ i htick
  -- queues that shrink, without a tick
  have hshrinks : (∀ m, ((step limits σ i).queueAt m).Sublist (σ.queueAt m)) →
      Ticketed (step limits σ i) → Booking (step limits σ i) := by
    intro hqueue hticketed
    refine h.of_sublist hticketed hqueue ((h.rostered.of_kept hmatches hnext).mono ?_)
    rintro p ⟨m, q, hq, hplayer⟩
    exact ⟨m, q, (hqueue m).subset hq, hplayer⟩
  cases i with
  | tick => exact absurd rfl htick
  | enqueue p mode map skill t => exact h.enqueue mode map skill t hi.1 hi.2
  | dequeue p mode =>
    exact hshrinks (dequeue_spec p mode).1 (ticketed_step h.ticketed trivial)
  | _ =>
    exact hshrinks (fun m => by rw [(idle_step (by simp) (by simp) (by simp)).queueAt])
      (ticketed_step h.ticketed trivial)

/-- **Nobody is booked twice**, in no state of a run in which players enter the queue only while
they neither wait nor are in a match that has not been ended, and ticks run to their end. -/
theorem bookedOnce_run (limits : ServerLimits) (inputs : List Input)
    (h : Machine.Along (step limits) (Bookable limits) .new inputs) :
    BookedOnce (run limits inputs) :=
  (@Machine.invariant _ _ (step limits) (Bookable limits) Booking
    (fun _ _ hσ hi => booking_step hσ hi) _ inputs Booking.new h).bookedOnce

/-- Two players meet. -/
def twoPlayers : List Input :=
  [.enqueue "a" "arena" none none 0, .enqueue "b" "arena" none none 0, .tick]

theorem bookedOnce_twoPlayers :
    Machine.Along (step ⟨1, 16⟩) (Bookable ⟨1, 16⟩) .new twoPlayers ∧
      BookedOnce (run ⟨1, 16⟩ twoPlayers) := by
  have hnone : ∀ {σ : Orchestrator} {p : PlayerId}, σ.matchMap = .empty →
      ∀ id m, Live σ id m → p ∉ m.players := by
    rintro σ p hempty id m ⟨hm, -⟩
    rw [hempty] at hm
    simp at hm
  have h : Machine.Along (step ⟨1, 16⟩) (Bookable ⟨1, 16⟩) .new twoPlayers :=
    ⟨⟨by decide +kernel, hnone rfl⟩, ⟨by decide +kernel, hnone rfl⟩, by
      show (Orchestrator.processQueues _ _).2 = none
      decide +kernel, trivial⟩
  exact ⟨h, bookedOnce_run ⟨1, 16⟩ twoPlayers h⟩

/-- One player enqueues twice. -/
def onePlayerTwice : List Input :=
  [.enqueue "a" "arena" none none 0, .enqueue "a" "arena" none none 0, .tick]

/-- The player is matched with themselves. -/
theorem matched_with_oneself :
    Machine.Along (step ⟨1, 16⟩) (TicksEnd ⟨1, 16⟩) .new onePlayerTwice ∧
      ¬ BookedOnce (run ⟨1, 16⟩ onePlayerTwice) := by
  refine ⟨⟨trivial, trivial, by
    show (Orchestrator.processQueues _ _).2 = none
    decide +kernel, trivial⟩, fun hbooked => ?_⟩
  have hmatch : (run ⟨1, 16⟩ onePlayerTwice).matchMap.get? 0 =
      some ⟨0, 0, "arena", "default", .starting, ["a", "a"], 10, 0, none, none⟩ := by
    decide +kernel
  have hnodup := hbooked.players_nodup 0 _ hmatch
  simp at hnodup

end Orchestrator

end SyncEngine
