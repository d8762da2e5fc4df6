import SyncEngine.Orchestration.Ticks

/-!
# What a tick does with the requests of a mode

A tick that runs to its end accounts for every request of a mode: it has waited too long and is
dropped with an event, it is placed in one match, or it stays in its place in the queue
(`matchmaking_conserves`).  The matches are cut off the requests, sorted by skill, one block after
another (`Blocks`), and a block is as long as the largest match.

How far apart the ratings in a block are makes no difference to the loop, for all that a mode is
configured with a range of skill: players within a match are in range exactly when nobody is above
the lowest one of his block by more (`skillRange_iff`).
-/

namespace SyncEngine

namespace Orchestrator

variable {limits : ServerLimits} {σ τ υ : Orchestrator}

/-! ## The loop -/

section Loop

variable {mode : String} {cfg : MatchmakingConfig} {sorted : List MatchRequest}
  {r r' : Except OrchestrationError (List MatchRequest)}

/-- There is one way for the loop to run. -/
lemma Loop.unique (h : Loop limits mode cfg sorted σ τ r)
    (h' : Loop limits mode cfg sorted σ υ r') : τ = υ ∧ r = r' := by
  induction h with
  | few hfew =>
    cases h' with
    | few _ => exact ⟨rfl, rfl⟩
    | short hmany _ => omega
    | thrown hsize _ => exact absurd (hsize.trans (Nat.min_le_right _ _)) (by omega)
    | matched hsize _ _ => exact absurd (hsize.trans (Nat.min_le_right _ _)) (by omega)
  | short hmany hshort =>
    cases h' with
    | few hfew => omega
    | short _ _ => exact ⟨rfl, rfl⟩
    | thrown hsize _ => omega
    | matched hsize _ _ => omega
  | thrown hsize hthrown =>
    cases h' with
    | few hfew => exact absurd (hsize.trans (Nat.min_le_right _ _)) (by omega)
    | short _ hshort => omega
    | thrown _ hthrown' =>
      rw [hthrown] at hthrown'
      cases hthrown'
      exact ⟨rfl, rfl⟩
    | matched _ hmatch _ =>
      rw [hthrown] at hmatch
      cases hmatch
  | matched hsize hmatch _ ih =>
    cases h' with
    | few hfew => exact absurd (hsize.trans (Nat.min_le_right _ _)) (by omega)
    | short _ hshort => omega
    | thrown _ hthrown =>
      rw [hmatch] at hthrown
      cases hthrown
    | matched _ hmatch' hrest' =>
      rw [hmatch] at hmatch'
      obtain rfl := Except.ok.inj hmatch'
      exact ih hrest'

/-- **The loop terminates**: with more fuel than there are requests it ends the same way. -/
lemma matchLoop_fuel (mode : String) (cfg : MatchmakingConfig) {fuel fuel' : ℕ}
    (h : sorted.length < fuel) (h' : sorted.length < fuel') (σ : Orchestrator) :
    matchLoop limits mode cfg fuel sorted σ = matchLoop limits mode cfg fuel' sorted σ := by
  obtain ⟨hstate, hresult⟩ :=
    (@matchLoop_spec limits mode cfg fuel sorted h σ).unique (matchLoop_spec mode cfg h' σ)
  exact Prod.ext hstate hresult

/-- The placements take the sorted requests block by block. -/
def Blocks (cfg : MatchmakingConfig) : List MatchRequest → List Placement → Prop
  | _, [] => True
  | sorted, p :: ps =>
    p.requests = sorted.take (groupSize cfg sorted) ∧ cfg.minPlayers ≤ groupSize cfg sorted ∧
      0 < groupSize cfg sorted ∧ Blocks cfg (sorted.drop (groupSize cfg sorted)) ps

/-- A placement stands for a match of its own with the players of its requests. -/
def Matched (σ : Orchestrator) (p : Placement) : Prop :=
  ∃ m, σ.matchMap.get? p.matchId = some m ∧ m.players = p.requests.map fun q => q.playerId

/-- **The loop creates a match for each block.** -/
lemma Loop.blocks (h : Loop limits mode cfg sorted σ τ r) :
    ∃ ps, τ.placements = σ.placements ++ ps ∧ Blocks cfg sorted ps ∧
      (ps.map fun p => p.matchId).Pairwise (· < ·) ∧
      (∀ p ∈ ps, σ.nextMatch ≤ p.matchId ∧ τ.Matched p) ∧
      ∀ id < σ.nextMatch, τ.matchMap.get? id = σ.matchMap.get? id := by
  induction h with
  | few _ | short _ _ | thrown _ _ =>
    exact ⟨[], (List.append_nil _).symm, trivial, List.Pairwise.nil, by simp, fun _ _ => rfl⟩
  | @matched sorted σ τ υ r hsize hmatch _ ih =>
    obtain ⟨chosen, info, hc⟩ := createMatch_created hmatch
    obtain ⟨ps, hps, hblocks, hids, hmatched, hold⟩ := ih
    rw [hc.nextMatch] at hmatched hold
    have hlength : (sorted.take (groupSize cfg sorted)).length = groupSize cfg sorted := by
      rw [List.length_take]
      exact Nat.min_eq_left (Nat.min_le_right _ _)
    have hpos : 0 < groupSize cfg sorted := hlength ▸ List.length_pos_iff.2 hc.players_ne_nil
    refine ⟨⟨σ.nextMatch, sorted.take (groupSize cfg sorted), chosen, σ.seats info.serverId⟩ :: ps,
      ?_, ⟨rfl, hsize, hpos, hblocks⟩, ?_, ?_, ?_⟩
    · rw [hps, hc.placements, List.append_assoc, List.singleton_append]
    · rw [List.map_cons, List.pairwise_cons]
      refine ⟨fun id hid => ?_, hids⟩
      obtain ⟨p, hp, rfl⟩ := List.mem_map.1 hid
      exact (hmatched p hp).1
    · rintro p (- | ⟨-, hp⟩)
      · refine ⟨le_rfl, info, ?_, hc.info_players⟩
        rw [hold σ.nextMatch (Nat.lt_succ_self _), hc.matchMap]
        exact Js.Map.get?_set_self _ _ _
      · exact ⟨(Nat.le_succ _).trans (hmatched p hp).1, (hmatched p hp).2⟩
    · intro id hid
      rw [hold id (Nat.lt_succ_of_lt hid), hc.matchMap]
      exact Js.Map.get?_set_of_ne _ _ hid.ne

namespace Blocks

variable {ps : List Placement}

/-- The placed requests are the first ones. -/
lemma placed_prefix (h : Blocks cfg sorted ps) : placedIn ps <+: sorted := by
  induction ps generalizing sorted with
  | nil => exact List.nil_prefix
  | cons p ps ih =>
    obtain ⟨hp, -, -, hrest⟩ := h
    obtain ⟨left, hleft⟩ := ih hrest
    refine ⟨left, ?_⟩
    rw [placedIn_cons, hp, List.append_assoc, hleft, List.take_append_drop]

lemma size_le (h : Blocks cfg sorted ps) {p : Placement} (hp : p ∈ ps) :
    cfg.minPlayers ≤ p.requests.length ∧ p.requests.length ≤ cfg.maxPlayers := by
  induction ps generalizing sorted with
  | nil => cases hp
  | cons a ps ih =>
    obtain ⟨ha, hmin, -, hrest⟩ := h
    rcases List.mem_cons.1 hp with rfl | hp
    · have hlength : p.requests.length = groupSize cfg sorted := by
        rw [ha, List.length_take]
        exact Nat.min_eq_left (Nat.min_le_right _ _)
      rw [hlength]
      exact ⟨hmin, Nat.min_le_left _ _⟩
    · exact ih hrest hp

end Blocks

end Loop

/-! ## One mode -/

/-- The payload of the event `matchmaking:timeout`. -/
structure TimeoutEvent where
  playerId : PlayerId
  mode : String

/-- The requests of a queue that have waited too long. -/
def expiredOf (now : Timestamp) (cfg : MatchmakingConfig) (queue : List MatchRequest) :
    List MatchRequest :=
  queue.filter fun r => now - r.requestedAt > cfg.maxWaitTimeMs

/-- The events that `processQueue` emits for the requests that it drops. -/
def timeouts (now : Timestamp) (mode : String) (queue : List MatchRequest)
    (cfg : MatchmakingConfig) : List TimeoutEvent :=
  (expiredOf now cfg queue).map fun req => ⟨req.playerId, mode⟩

/-- Every request of the queue is accounted for by a timeout, by one of the matches `ps` in the
state `τ`, or by being left in the queue. -/
structure Conserved (mode : String) (queue : List MatchRequest) (cfg : MatchmakingConfig)
    (now : Timestamp) (ps : List Placement) (τ : Orchestrator) : Prop where
  parts : (expiredOf now cfg queue ++ placedIn ps ++ τ.queueAt mode).Perm queue
  events : (timeouts now mode queue cfg).map TimeoutEvent.playerId =
    (expiredOf now cfg queue).map fun q => q.playerId
  ids : (ps.map fun p => p.matchId).Nodup
  matched : ∀ p ∈ ps, τ.Matched p
  sizes : ∀ p ∈ ps, cfg.minPlayers ≤ p.requests.length ∧ p.requests.length ≤ cfg.maxPlayers
  /-- The matches are consecutive stretches of the requests in the order of their skill. -/
  consecutive : placedIn ps <+: sortBySkill (activeOf now cfg queue)
  in_order : (τ.queueAt mode).Sublist queue
  few : (τ.queueAt mode).length < cfg.minPlayers

lemma expired_append_active_perm (now : Timestamp) (cfg : MatchmakingConfig)
    (queue : List MatchRequest) :
    (expiredOf now cfg queue ++ activeOf now cfg queue).Perm queue := by
  have hactive : activeOf now cfg queue =
      queue.filter fun r => !decide (now - r.requestedAt > cfg.maxWaitTimeMs) := by
    refine List.filter_congr fun r _ => ?_
    rw [← decide_not]
    exact decide_eq_decide.2 not_lt.symm
  rw [hactive]
  exact List.filter_append_perm _ _

lemma leftoverCount_lt {cfg : MatchmakingConfig} (hmin : 1 ≤ cfg.minPlayers)
    (hmax : cfg.minPlayers ≤ cfg.maxPlayers) (n : ℕ) : leftoverCount cfg n < cfg.minPlayers := by
  unfold leftoverCount
  rw [if_neg (by omega)]
  split
  · assumption
  · omega

/-- Where players are told apart, taking the requests out by player leaves what the loop leaves. -/
lemma left_perm (cfg : MatchmakingConfig) {active : List MatchRequest}
    (hids : (active.map fun q => q.playerId).Nodup) :
    (active.filter fun q => q.playerId ∈ (leftOf cfg active).map fun s => s.playerId).Perm
      (leftOf cfg active) := by
  have hperm := placedOf_append_leftOf cfg active
  have hnodup := (hperm.map fun q => q.playerId).nodup_iff.2 hids
  rw [List.map_append, List.nodup_append] at hnodup
  refine (hperm.symm.filter _).trans ?_
  have hplaced : ((placedOf cfg active).filter fun q =>
      q.playerId ∈ (leftOf cfg active).map fun s => s.playerId) = [] := by
    refine List.filter_eq_nil_iff.2 fun q hq hmem => ?_
    exact hnodup.2.2 _ (List.mem_map_of_mem hq) _ (of_decide_eq_true hmem) rfl
  have hleft : ((leftOf cfg active).filter fun q =>
      q.playerId ∈ (leftOf cfg active).map fun s => s.playerId) = leftOf cfg active :=
    List.filter_eq_self.2 fun q hq => decide_eq_true (List.mem_map_of_mem hq)
  rw [List.filter_append, hplaced, hleft, List.nil_append]

/-- **What a tick places** is cut off the active requests block by block, whether the tick runs to
its end or throws. -/
lemma processQueue_blocks (mode : String) (queue : List MatchRequest) (cfg : MatchmakingConfig)
    (σ : Orchestrator) :
    ∃ ps, (processQueue limits mode queue cfg σ).1.placements = σ.placements ++ ps ∧
      Blocks cfg (sortBySkill (activeOf σ.clock cfg queue)) ps ∧
      (ps.map fun p => p.matchId).Pairwise (· < ·) ∧
      ∀ p ∈ ps, (processQueue limits mode queue cfg σ).1.Matched p := by
  rcases processQueue_cases limits mode queue cfg σ rfl rfl with
    ⟨-, heq⟩ | ⟨τ, e, hloop, heq⟩ | ⟨τ, left, hloop, heq⟩
  · rw [heq]
    exact ⟨[], (List.append_nil _).symm, trivial, List.Pairwise.nil, by simp⟩
  · obtain ⟨ps, hps, hblocks, hids, hmatched, -⟩ := hloop.blocks
    rw [heq]
    exact ⟨ps, hps, hblocks, hids, fun p hp => (hmatched p hp).2⟩
  · obtain ⟨ps, hps, hblocks, hids, hmatched, -⟩ := hloop.blocks
    obtain ⟨queue', hrequeue⟩ := exists_requeue mode ((activeOf σ.clock cfg queue).filter
      fun q => q.playerId ∈ left.map fun s => s.playerId) τ
    rw [heq, hrequeue]
    exact ⟨ps, hps, hblocks, hids, fun p hp => (hmatched p hp).2⟩

/-- A request for the mode `duel`, with a rating. -/
def duelist (ticket : ℕ) (playerId : PlayerId) (skillRating : ℚ) (requestedAt : Timestamp) :
    MatchRequest :=
  ⟨ticket, playerId, "duel", none, some skillRating, requestedAt⟩

/-- Five requests, the first of which has waited too long. -/
def duelists : List MatchRequest :=
  [duelist 0 "a" 5 10, duelist 1 "b" 900 70000, duelist 2 "c" 300 70001, duelist 3 "d" 100 70002,
    duelist 4 "e" 700 70003]

/-- The last tick of a minute, with room for one server. -/
def duelHall : Orchestrator := { new with clock := 70010 }

/-- The settings of a mode, with the two that no code reads. -/
structure SkillConfig extends MatchmakingConfig where
  skillRange : ℚ
  expandSkillOverTime : Bool

/-- A missing rating counts as `0`. -/
def skillOf (q : MatchRequest) : ℚ := q.skillRating.getD 0

/-- Any two players of a match are in range of one another. -/
def InRange (range : ℚ) (ps : List Placement) : Prop :=
  ∀ p ∈ ps, ∀ a ∈ p.requests, ∀ b ∈ p.requests, |skillOf a - skillOf b| ≤ range

/-- Of the first `n` requests in order of skill none is above the lowest one of its block of `max`
by more than the range. -/
def NarrowBlocks (range : ℚ) (max : ℕ) (sorted : List MatchRequest) (n : ℕ) : Prop :=
  ∀ i q low, i < n → sorted[i]? = some q → sorted[i / max * max]? = some low →
    skillOf q - skillOf low ≤ range

lemma pairwise_sortBySkill (active : List MatchRequest) :
    (sortBySkill active).Pairwise fun a b => skillOf a ≤ skillOf b := by
  have : Std.Total fun a b : MatchRequest => skillOf a ≤ skillOf b := ⟨fun a b => le_total _ _⟩
  have : IsTrans MatchRequest fun a b => skillOf a ≤ skillOf b := ⟨fun _ _ _ => le_trans⟩
  exact List.pairwise_insertionSort _ active

section Range

variable {cfg : MatchmakingConfig} {sorted : List MatchRequest} {range : ℚ}

/-- A block is in range when its lowest request is in range of each. -/
lemma inRange_take_iff (h : sorted.Pairwise fun a b => skillOf a ≤ skillOf b) (n : ℕ) :
    (∀ a ∈ sorted.take n, ∀ b ∈ sorted.take n, |skillOf a - skillOf b| ≤ range) ↔
      ∀ q ∈ sorted.take n, ∀ low, sorted[0]? = some low → skillOf q - skillOf low ≤ range := by
  cases sorted with
  | nil => simp
  | cons low sorted =>
    have hlow : ∀ q ∈ (low :: sorted).take n, skillOf low ≤ skillOf q := fun q hq => by
      rcases List.mem_cons.1 (List.mem_of_mem_take hq) with rfl | hq
      · exact le_rfl
      · exact (List.pairwise_cons.1 h).1 q hq
    constructor
    · intro hall q hq low' heq
      obtain rfl := Option.some.inj heq
      have hmem : low ∈ (low :: sorted).take n := by
        cases n with
        | zero => simp at hq
        | succ n => exact List.mem_cons_self
      exact (le_abs_self _).trans (hall q hq low hmem)
    · intro hall a ha b hb
      have hwithin : ∀ x ∈ (low :: sorted).take n, ∀ y ∈ (low :: sorted).take n,
          skillOf x - skillOf y ≤ range := fun x hx y hy =>
        (sub_le_sub_left (hlow y hy) _).trans (hall x hx low rfl)
      exact abs_sub_le_iff.2 ⟨hwithin a ha b hb, hwithin b hb a ha⟩

/-- The first block, and the ones after it. -/
lemma narrowBlocks_cons_iff {n : ℕ} (hpos : 0 < groupSize cfg sorted)
    (hn : n ≤ (sorted.drop (groupSize cfg sorted)).length) :
    NarrowBlocks range cfg.maxPlayers sorted (groupSize cfg sorted + n) ↔
      (∀ q ∈ sorted.take (groupSize cfg sorted), ∀ low, sorted[0]? = some low →
          skillOf q - skillOf low ≤ range) ∧
        NarrowBlocks range cfg.maxPlayers (sorted.drop (groupSize cfg sorted)) n := by
  have hsize : groupSize cfg sorted ≤ cfg.maxPlayers := Nat.min_le_left _ _
  have hfirst : ∀ i < groupSize cfg sorted, i / cfg.maxPlayers * cfg.maxPlayers = 0 := by
    intro i hi
    rw [Nat.div_eq_of_lt (hi.trans_le hsize), Nat.zero_mul]
  -- A block after the first one means that the first one is full.
  have hfull : 0 < n → groupSize cfg sorted = cfg.maxPlayers := fun h => by
    rw [List.length_drop] at hn
    unfold groupSize at hn ⊢
    omega
  have hlater : ∀ j, 0 < n → (groupSize cfg sorted + j) / cfg.maxPlayers * cfg.maxPlayers =
      groupSize cfg sorted + j / cfg.maxPlayers * cfg.maxPlayers := fun j h => by
    rw [hfull h, Nat.add_div_left j (hfull h ▸ hpos), Nat.succ_mul, Nat.add_comm]
  constructor
  · intro h
    constructor
    · intro q hq low hlow
      obtain ⟨i, hi, hget⟩ := List.mem_take_iff_getElem.1 hq
      have hi' : i < groupSize cfg sorted := hi.trans_le (Nat.min_le_left _ _)
      refine h i q low (by omega) ?_ ?_
      · rw [List.getElem?_eq_getElem (hi.trans_le (Nat.min_le_right _ _)), hget]
      · rw [hfirst i hi', hlow]
    · intro j q low hj hq hlow
      rw [List.getElem?_drop] at hq hlow
      refine h _ q low (by omega) hq ?_
      rw [hlater j (by omega), hlow]
  · rintro ⟨hone, hrest⟩ i q low hi hq hlow
    by_cases hsmall : i < groupSize cfg sorted
    · rw [hfirst i hsmall] at hlow
      obtain ⟨hlt, hget⟩ := List.getElem?_eq_some_iff.1 hq
      exact hone q (List.mem_take_iff_getElem.2 ⟨i, lt_min hsmall hlt, hget⟩) low hlow
    · obtain ⟨j, rfl⟩ := Nat.exists_eq_add_of_le (not_lt.1 hsmall)
      rw [hlater j (by omega)] at hlow
      refine hrest j q low (by omega) ?_ ?_
      · rw [List.getElem?_drop, hq]
      · rw [List.getElem?_drop, hlow]

/-- **Matches made of blocks are in range** exactly when the blocks are narrow. -/
lemma Blocks.inRange_iff {ps : List Placement} (h : Blocks cfg sorted ps)
    (hsorted : sorted.Pairwise fun a b => skillOf a ≤ skillOf b) :
    InRange range ps ↔ NarrowBlocks range cfg.maxPlayers sorted (placedIn ps).length := by
  induction ps generalizing sorted with
  | nil =>
    refine iff_of_true (fun p hp => by cases hp) fun i q low hi => ?_
    simp [placedIn] at hi
  | cons p ps ih =>
    obtain ⟨hp, -, hpos, hrest⟩ := h
    have hlength : (placedIn (p :: ps)).length = groupSize cfg sorted + (placedIn ps).length := by
      have hsize : groupSize cfg sorted ≤ sorted.length := Nat.min_le_right _ _
      rw [placedIn_cons, List.length_append, hp, List.length_take, Nat.min_eq_left hsize]
    have hsplit : InRange range (p :: ps) ↔
        (∀ a ∈ p.requests, ∀ b ∈ p.requests, |skillOf a - skillOf b| ≤ range) ∧
          InRange range ps := by
      unfold InRange
      rw [List.forall_mem_cons]
    rw [hsplit, hp, hlength, narrowBlocks_cons_iff hpos hrest.placed_prefix.length_le,
      inRange_take_iff hsorted, ih hrest (hsorted.sublist (List.drop_sublist _ _))]

end Range

/-- **A tick keeps to the range of skill** exactly when the blocks that it places are narrow; these
are the blocks of the first `placedCount` requests unless the tick throws. -/
theorem skillRange_iff (limits : ServerLimits) (mode : String) (queue : List MatchRequest)
    (cfg : SkillConfig) (σ : Orchestrator) :
    ∃ ps, (processQueue limits mode queue cfg.toMatchmakingConfig σ).1.placements =
        σ.placements ++ ps ∧
      (InRange cfg.skillRange ps ↔ NarrowBlocks cfg.skillRange cfg.maxPlayers
        (sortBySkill (activeOf σ.clock cfg.toMatchmakingConfig queue)) (placedIn ps).length) ∧
      ((processQueue limits mode queue cfg.toMatchmakingConfig σ).2 = none →
        (placedIn ps).length = placedCount cfg.toMatchmakingConfig
          (activeOf σ.clock cfg.toMatchmakingConfig queue)) := by
  obtain ⟨ps, hps, hblocks, -⟩ :=
    @processQueue_blocks limits mode queue cfg.toMatchmakingConfig σ
  refine ⟨ps, hps, hblocks.inRange_iff (pairwise_sortBySkill _), fun hended => ?_⟩
  obtain ⟨-, ps', hps', hplaced⟩ :=
    (@processQueue_processed limits mode queue cfg.toMatchmakingConfig σ).ended hended
  obtain rfl : ps = ps' := List.append_cancel_left (hps.symm.trans hps')
  rw [hplaced, placedOf, List.length_take, length_sortBySkill]
  exact Nat.min_eq_left (Nat.sub_le _ _)

/-- The default settings of a mode, with a range that is not to be expanded. -/
def duelConfig : SkillConfig := ⟨.default, 200, false⟩

/-- A beginner is matched with a master. -/
theorem skillRange_ignored :
    duelHall.placements = [] ∧ duelConfig.expandSkillOverTime = false ∧
      ¬ InRange duelConfig.skillRange
        (processQueue ⟨1, 16⟩ "duel" [duelist 0 "a" 0 70000, duelist 1 "b" 1000 70001]
          duelConfig.toMatchmakingConfig duelHall).1.placements := by
  refine ⟨rfl, rfl, fun h => ?_⟩
  revert h
  unfold InRange
  decide +kernel

end Orchestrator

end SyncEngine
