import Mathlib.Data.List.TakeWhile
import SailwindOnline.SnapshotVisits
import SailwindOnline.Visibility

/-!
Sweeps over a selection that stays the same. The selection is the others in view,
in turn after the recipient, up to the ceiling. From a visit that starts afresh,
each visit advertises the next chunk of the selection's circle, and as many visits
in a row as a sweep takes advertise the selection once around.
-/

namespace SailwindOnline.SnapshotSweeps
open World (Cell SetOrder cellOfEntity entitiesInRadius mem_entitiesInRadius nodup_entitiesInRadius)
open OrderedSet Server SessionIndex SessionRuns Traces SnapshotLane SnapshotSchedule SnapshotFreshness SnapshotVisits

/-! Sweeps of a lane. -/
section Lanes
variable {visible start done : Nat} {lane after : Lane}

/-- How many players the first visits of a row of sweeps advertise. -/
def shownBy (visible visits : Nat) : Nat :=
  visits / packets visible * visible + snapshotEntitiesPerPacket * (visits % packets visible)

/-- The lane `done` visits after one that started a sweep at `start`. -/
structure Sweeping (visible start done : Nat) (lane : Lane) : Prop where
  planned : lane.planned visible = visible - snapshotEntitiesPerPacket * (done % packets visible)
  start : lane.start visible = (start + shownBy visible done) % visible

theorem sweeping_fresh (inhabited : 0 < visible) (fresh : lane.remaining = 0 ∨ lane.position = none) :
    Sweeping visible (lane.start visible) 0 lane where
  planned := by simp [Lane.planned, fresh]
  start := by
    have bounded : lane.start visible < visible := by
      unfold Lane.start
      split
      · exact inhabited
      · exact Nat.mod_lt _ inhabited
    simp [shownBy, Nat.mod_eq_of_lt bounded]

theorem packets_pos (inhabited : 0 < visible) : 0 < packets visible := by
  unfold packets snapshotEntitiesPerPacket
  omega

theorem round_eq {rounds visits : Nat} (inside : visits < packets visible) :
    (packets visible * rounds + visits) / packets visible = rounds ∧
      (packets visible * rounds + visits) % packets visible = visits := by
  rw [Nat.mul_add_div (by omega), Nat.mul_add_mod, Nat.div_eq_of_lt inside, Nat.mod_eq_of_lt inside]
  exact ⟨rfl, rfl⟩

theorem shownBy_round {rounds visits : Nat} (inside : visits < packets visible) :
    shownBy visible (packets visible * rounds + visits) = rounds * visible + snapshotEntitiesPerPacket * visits := by
  have turned : (packets visible * rounds + visits) / packets visible = rounds ∧
    (packets visible * rounds + visits) % packets visible = visits := round_eq inside
  rw [shownBy, turned.1, turned.2]

/-- A sweep's worth of visits goes once around, wherever it starts. -/
theorem shownBy_add (inhabited : 0 < visible) (visits : Nat) :
    shownBy visible (visits + packets visible) = shownBy visible visits + visible := by
  rw [shownBy, Nat.add_div_right _ (packets_pos inhabited), Nat.add_mod_right, Nat.succ_mul, shownBy]
  omega

/-- The next visit of a sweep, or the first of the next one. -/
theorem Sweeping.counts (inhabited : 0 < visible) (sweeping : Sweeping visible start done lane) :
    shownBy visible (done + 1) = shownBy visible done + lane.emitted visible ∧
      (if lane.planned visible - lane.emitted visible = 0 then visible
        else lane.planned visible - lane.emitted visible) =
        visible - snapshotEntitiesPerPacket * ((done + 1) % packets visible) := by
  have whole : packets visible = (visible + 4) / 5 := rfl
  have planned := sweeping.planned
  have place := Nat.mod_lt done (packets_pos inhabited)
  have turned : done = packets visible * (done / packets visible) + done % packets visible :=
    (Nat.div_add_mod done _).symm
  generalize done / packets visible = rounds at turned
  generalize done % packets visible = visits at turned place planned
  subst turned
  rw [shownBy_round place, Lane.emitted, planned]
  rcases Nat.lt_or_ge (visits + 1) (packets visible) with inside | last
  · rw [Nat.add_assoc, shownBy_round inside, (round_eq inside).2]
    unfold snapshotEntitiesPerPacket
    split <;> omega
  · have rounded : packets visible * rounds + visits + 1 = packets visible * (rounds + 1) + 0 := by
      rw [Nat.mul_succ]
      omega
    rw [rounded, shownBy_round (packets_pos inhabited), (round_eq (packets_pos inhabited)).2, Nat.succ_mul]
    unfold snapshotEntitiesPerPacket
    split <;> omega

theorem Sweeping.next (inhabited : 0 < visible) (sweeping : Sweeping visible start done lane)
    (position : after.position = some ((lane.start visible + lane.emitted visible - 1) % visible))
    (remaining : after.remaining = lane.planned visible - lane.emitted visible) :
    Sweeping visible start (done + 1) after where
  planned := by
    have bounded := planned_le visible lane
    rw [← (sweeping.counts inhabited).2, Lane.planned, remaining, position]
    simp only [reduceCtorEq, or_false]
    split
    · rfl
    · exact Nat.min_eq_left (by omega)
  start := by
    have positive := emitted_pos lane inhabited
    rw [Lane.start, position, (sweeping.counts inhabited).1]
    show ((lane.start visible + lane.emitted visible - 1) % visible + 1) % visible = _
    rw [Nat.mod_add_mod, Nat.sub_add_cancel (by omega), sweeping.start, Nat.mod_add_mod, Nat.add_assoc]

theorem Sweeping.advertised (sweeping : Sweeping visible start done lane) :
    lane.advertised visible =
      (List.range (lane.emitted visible)).map fun offset => (start + shownBy visible done + offset) % visible := by
  rw [Lane.advertised, sweeping.start]
  exact List.map_congr_left fun offset _ => Nat.mod_add_mod _ _ _

end Lanes
/-! The selection. -/
section Selections
variable {F : Type} [Platform F] {server : Server F} {peer : PeerId} {session : Session F} {cell : Cell}
  {pending : List Event}

/-- Another session, in a cell within the interest radius of `cell`. -/
def OtherInView (server : Server F) (own : UInt64) (cell : Cell) (player : UInt64) : Prop :=
  player ≠ own ∧ ∃ peer session place, server.sessions.get? peer = some session ∧ session.playerId = player ∧
    session.cell = some place ∧ place.chebyshevDistance cell ≤ (server.cfg.aoiRadiusI32 : Int)

/-- In ascending order from `own` on, and then from the lowest up to it. -/
def InTurnAfter (own : UInt64) (players : List UInt64) : Prop :=
  ∃ above below, players = above ++ below ∧ above.Pairwise (· < ·) ∧ below.Pairwise (· < ·) ∧
    (∀ player ∈ above, own < player) ∧ ∀ player ∈ below, player < own

theorem inTurnAfter_circle (keys : Finset UInt64) (own : UInt64) (keep : UInt64 → Bool)
    (others : ∀ player, keep player = true → player ≠ own) :
    InTurnAfter own ((circle keys (some own)).filter keep) := by
  have sorted := ascending_sorted keys
  refine ⟨_, _, List.filter_append _ _, (sorted.filter _).filter _, (sorted.filter _).filter _, ?_, ?_⟩
  · intro player listed
    simpa using (List.mem_filter.mp (List.mem_of_mem_filter listed)).2
  · intro player listed
    obtain ⟨inside, kept⟩ := List.mem_filter.mp listed
    have low : player ≤ own := by simpa using (List.mem_filter.mp inside).2
    exact lt_of_le_of_ne low (others player kept)

theorem InTurnAfter.nodup {own : UInt64} {players : List UInt64} (turn : InTurnAfter own players) : players.Nodup := by
  obtain ⟨above, below, rfl, upper, lower, high, low⟩ := turn
  refine List.nodup_append.mpr ⟨upper.imp ne_of_lt, lower.imp ne_of_lt, ?_⟩
  rintro player higher other lesser rfl
  exact absurd ((high player higher).trans (low player lesser)) (lt_irrefl _)

theorem inView_iff (agree : SessionsAgree noStray server) (player : UInt64) (cell : Cell) :
    server.inView cell player = true ↔
      ∃ peer session place, server.sessions.get? peer = some session ∧ session.playerId = player ∧
        session.cell = some place ∧ place.chebyshevDistance cell ≤ (server.cfg.aoiRadiusI32 : Int) := by
  constructor
  · intro seen
    unfold inView at seen
    split at seen
    · cases seen
    rename_i held lookup
    split at seen
    · cases seen
    rename_i place there
    have known : player ∈ server.playerOrder := by
      rw [agree.order]
      refine (FiniteMap.mem_keys_iff_exists _ _).mpr ?_
      unfold sessionByPlayer at lookup
      cases owner : server.playerPeers.get? player with
      | none => simp [owner] at lookup
      | some peer => exact ⟨peer, rfl⟩
    obtain ⟨peer, session, found, own, again⟩ := sessionByPlayer_of agree known
    rw [lookup, Option.some.injEq] at again
    subst again
    exact ⟨peer, held, place, found, own, there, of_decide_eq_true seen⟩
  · rintro ⟨peer, session, place, found, own, there, near⟩
    have owner := (agree.owner_iff player peer).mpr ⟨session, found, own⟩
    have lookup : server.sessionByPlayer player = some session := by simp [sessionByPlayer, owner, found, own]
    simp only [inView, lookup, there]
    exact decide_eq_true near

theorem candidates_eq (inv : Inv pending server) (own : UInt64) :
    server.playerCandidatesAfter (some own) snapshotEntityScanPerPacket = circle server.playerOrder (some own) := by
  have few : server.playerOrder.card ≤ 1024 := by
    rw [players_card inv.agree]
    refine inv.hosted.size_le.trans ?_
    simp only [Config.maxTransportPeersUsize, clampNat, maxTransportPeersCeiling]
    omega
  rw [playerCandidatesAfter, orderedAfter_eq_take, List.take_of_length_le]
  rw [circle_length, snapshotEntityScanPerPacket]
  omega

/-- All the others in view, in turn after the recipient. -/
def othersInTurn (server : Server F) (own : UInt64) (cell : Cell) : List UInt64 :=
  (circle server.playerOrder (some own)).filter fun player => player ≠ own && server.inView cell player

theorem mem_othersInTurn (agree : SessionsAgree noStray server) (own : UInt64) (cell : Cell) (player : UInt64) :
    player ∈ othersInTurn server own cell ↔ OtherInView server own cell player := by
  simp only [othersInTurn, List.mem_filter, mem_circle, Bool.and_eq_true, decide_eq_true_eq, inView_iff agree,
    OtherInView]
  constructor
  · rintro ⟨-, other, seen⟩
    exact ⟨other, seen⟩
  · rintro ⟨other, peer, session, place, found, own, rest⟩
    refine ⟨?_, other, peer, session, place, found, own, rest⟩
    rw [agree.order]
    exact (FiniteMap.mem_keys_iff_exists _ _).mpr ⟨peer, (agree.owner_iff player peer).mpr ⟨session, found, own⟩⟩

theorem selection_eq_take (inv : Inv pending server) (own : UInt64) (cell : Cell) :
    server.snapshotSelection own cell = (othersInTurn server own cell).take snapshotVisibilityCeiling := by
  rw [snapshotSelection, candidates_eq inv, List.filter_filter, othersInTurn]
  congr 2
  funext player
  exact Bool.and_comm _ _

theorem othersInTurn_inTurn (server : Server F) (own : UInt64) (cell : Cell) :
    InTurnAfter own (othersInTurn server own cell) :=
  inTurnAfter_circle _ _ _ fun _ kept => of_decide_eq_true (Bool.and_eq_true_iff.mp kept).1

/-- The world index and the session table see the same players. -/
theorem othersInTurn_perm (order : SetOrder) (inv : Inv pending server) (own : UInt64) (cell : Cell) :
    (othersInTurn server own cell).Perm
      ((entitiesInRadius order server.world cell server.cfg.aoiRadiusI32).filter (· ≠ own)) := by
  have agree := inv.agree
  refine (List.perm_ext_iff_of_nodup (othersInTurn_inTurn server own cell).nodup
    ((nodup_entitiesInRadius order agree.coherent _ _).filter _)).mpr fun player => ?_
  simp only [mem_othersInTurn agree, List.mem_filter, mem_entitiesInRadius order agree.coherent, decide_eq_true_eq,
    OtherInView]
  constructor
  · rintro ⟨other, peer, session, place, found, named, there, near⟩
    obtain ⟨cell, here, indexed, -⟩ := agree.cells peer session found
    rw [there, Option.some.injEq] at here
    subst here named
    exact ⟨⟨place, indexed, near⟩, other⟩
  · rintro ⟨⟨place, indexed, near⟩, other⟩
    rw [cellOfEntity] at indexed
    rcases agree.placed player (Option.isSome_of_eq_some indexed) with owned | stray
    · obtain ⟨peer, owner⟩ := Option.isSome_iff_exists.mp owned
      obtain ⟨session, found, named⟩ := (agree.owner_iff player peer).mp owner
      obtain ⟨cell, here, same, -⟩ := agree.cells peer session found
      rw [named, indexed, Option.some.injEq] at same
      subst same
      exact ⟨other, peer, session, place, found, named, here, near⟩
    · exact absurd stray (by simp [noStray])

end Selections

/-! Due visits of a run. -/
section Runs
variable {F : Type} [Platform F] [Codec F] {db : Persistence.Db F} {pending : List Event} {server : Server F}
  {trace earlier middle : List (Stage F)} {first stage : Stage F} {peer : PeerId} {session later : Session F}
  {selected : List UInt64} {start done : Nat}

/-- The players that the visit of this stage advertises. -/
def advertisedAt (peer : PeerId) (stage : Stage F) : List UInt64 :=
  match stage.before.sessions.get? peer with
  | none => []
  | some session =>
    (snapshotChunk (selectedFor stage.before session) session.snapshotCursor session.snapshotRemaining).advertised

/-- The players that the visit of this stage may advertise. -/
def selectionAt (peer : PeerId) (stage : Stage F) : List UInt64 :=
  match stage.before.sessions.get? peer with
  | none => []
  | some session => selectedFor stage.before session

/-- The session of the stage starts a sweep of `selected`, from its first player or the one after the cursor. -/
def startsAfresh (peer : PeerId) (selected : List UInt64) (stage : Stage F) : Prop :=
  ∃ session, stage.before.sessions.get? peer = some session ∧
    (session.snapshotRemaining = 0 ∨ ∀ mark ∈ session.snapshotCursor, mark ∉ selected)

/-- `count` players of the selection's circle from the one at `place` on. -/
def stretch (selected : List UInt64) (place count : Nat) : List UInt64 :=
  ((List.range count).map fun offset => (place + offset) % selected.length).filterMap (selected[·]?)

omit [Platform F] [Codec F] in
theorem stretch_add (selected : List UInt64) (place first rest : Nat) :
    stretch selected place (first + rest) = stretch selected place first ++ stretch selected (place + first) rest := by
  simp [stretch, List.range_add, Function.comp_def, Nat.add_assoc]

theorem filterMap_range (list : List UInt64) : (List.range list.length).filterMap (list[·]?) = list := by
  induction list with
  | nil => rfl
  | cons head rest ih =>
      have tail : ((List.range rest.length).map Nat.succ).filterMap ((head :: rest)[·]?) = rest := by
        rw [List.filterMap_map]
        exact ih
      rw [List.length_cons, List.range_succ_eq_map]
      simp [tail]

/-- Once around. -/
theorem stretch_whole (selected : List UInt64) (place : Nat) :
    stretch selected place selected.length = selected.rotate place := by
  have listed := filterMap_range (selected.rotate place)
  rw [List.length_rotate] at listed
  rw [← listed, stretch, List.filterMap_map]
  refine List.filterMap_congr fun offset inside => ?_
  rw [List.getElem?_rotate (List.mem_range.mp inside), Nat.add_comm]
  rfl

omit [Platform F] [Codec F] in
theorem advertised_stretch (sweeping : Sweeping selected.length start done (sweepLane selected session)) :
    (snapshotChunk selected session.snapshotCursor session.snapshotRemaining).advertised =
      stretch selected (start + shownBy selected.length done)
        ((sweepLane selected session).emitted selected.length) := by
  have chunk := chunk_advertised (sweepLane selected session) (rfl : _ = sweepPosition selected session.snapshotCursor)
  rw [sweeping.advertised] at chunk
  exact chunk

/-- The visits of a stretch of the run have advertised the selection's circle from `start` on. -/
structure Swept (selected : List UInt64) (start : Nat) (peer : PeerId) (window : List (Stage F))
    (server : Server F) : Prop where
  shown : (window.filter (visits peer)).flatMap (advertisedAt peer) =
    stretch selected start (shownBy selected.length (window.filter (visits peer)).length)
  sweeping : ∃ session, server.sessions.get? peer = some session ∧
    Sweeping selected.length start (window.filter (visits peer)).length (sweepLane selected session)

omit [Codec F] in
theorem advertisedAt_eq (found : stage.before.sessions.get? peer = some session)
    (same : selectionAt peer stage = selected) :
    selectedFor stage.before session = selected ∧ advertisedAt peer stage =
      (snapshotChunk selected session.snapshotCursor session.snapshotRemaining).advertised := by
  simp only [selectionAt, found] at same
  simp only [advertisedAt, found, same, true_and]

/-- A visit continues the sweep it finds. -/
theorem visit_sweeping (run : Run db (trace ++ [stage]) server pending) (visited : visits peer stage = true)
    (found : stage.before.sessions.get? peer = some session)
    (kept : (stage.after.sessions.get? peer).isSome = true) (same : selectionAt peer stage = selected)
    (unique : selected.Nodup) (inhabited : selected ≠ [])
    (sweeping : Sweeping selected.length start done (sweepLane selected session)) :
    advertisedAt peer stage = stretch selected (start + shownBy selected.length done)
        (shownBy selected.length (done + 1) - shownBy selected.length done) ∧
      ∃ later, server.sessions.get? peer = some later ∧
        Sweeping selected.length start (done + 1) (sweepLane selected later) := by
  have positive := List.length_pos_of_ne_nil inhabited
  obtain ⟨later, present⟩ := Option.isSome_iff_exists.mp kept
  obtain ⟨chosen, advertised⟩ := advertisedAt_eq found same
  have swept := stage_visited run found present visited
  rw [chosen] at swept
  obtain ⟨-, -, rfl⟩ := run.unsnoc
  refine ⟨?_, later, present, ?_⟩
  · rw [advertised, advertised_stretch sweeping, (sweeping.counts positive).1, Nat.add_sub_cancel_left]
  · obtain ⟨cursor, remaining⟩ := swept.swept inhabited
    refine sweeping.next positive ?_ ?_
    · show sweepPosition selected later.snapshotCursor = _
      rw [cursor]
      exact chunk_cursor (sweepLane selected session) unique positive rfl
    · show later.snapshotRemaining = _
      rw [remaining]
      exact chunk_remaining (sweepLane selected session) rfl

omit [Codec F] in
theorem sweeping_start (inhabited : selected ≠ []) (afresh : startsAfresh peer selected first) :
    ∃ session start, first.before.sessions.get? peer = some session ∧
      Sweeping selected.length start 0 (sweepLane selected session) := by
  obtain ⟨session, found, fresh⟩ := afresh
  refine ⟨session, _, found, sweeping_fresh (List.length_pos_of_ne_nil inhabited) (fresh.imp_right fun outside => ?_)⟩
  show sweepPosition selected session.snapshotCursor = none
  unfold sweepPosition
  cases cursor : session.snapshotCursor with
  | none => rfl
  | some mark =>
      rw [Option.bind_some, List.findIdx?_eq_none_iff]
      intro player listed
      rw [decide_eq_false_iff_not]
      rintro rfl
      exact outside player cursor listed

/-- The first visit and all that follow it, with the session and its selection kept. -/
theorem swept_run (run : Run db (earlier ++ [first] ++ middle) server pending) (opened : visits peer first = true)
    (unique : selected.Nodup) (inhabited : selected ≠ [])
    (found : first.before.sessions.get? peer = some session)
    (fresh : Sweeping selected.length start 0 (sweepLane selected session))
    (same : ∀ stage ∈ first :: middle, visits peer stage = true → selectionAt peer stage = selected)
    (kept : ∀ stage ∈ first :: middle, (stage.after.sessions.get? peer).isSome = true) :
    Swept selected start peer (first :: middle) server := by
  induction middle using List.reverseRecOn generalizing server pending with
  | nil =>
      rw [List.append_nil] at run
      obtain ⟨advertised, later⟩ := visit_sweeping run opened found (kept first List.mem_cons_self)
        (same first List.mem_cons_self opened) unique inhabited fresh
      refine ⟨?_, by simpa [opened] using later⟩
      simpa [opened, shownBy] using advertised
  | append_singleton middle stage ih =>
      rw [← List.append_assoc] at run
      have inside : ∀ other ∈ first :: middle, other ∈ first :: (middle ++ [stage]) := by
        intro other listed
        rw [← List.cons_append]
        exact List.mem_append_left _ listed
      have here : stage ∈ first :: (middle ++ [stage]) := by simp
      obtain ⟨⟨waiting, shorter⟩, -, -⟩ := Run.unsnoc run
      have swept := ih shorter (fun other listed => same other (inside other listed))
        (fun other listed => kept other (inside other listed))
      obtain ⟨session, present, sweeping⟩ := swept.sweeping
      rw [← List.cons_append]
      -- A stage without a visit leaves the sweep where it was.
      by_cases visited : visits peer stage = true
      · obtain ⟨advertised, later⟩ := visit_sweeping run visited present (kept stage here) (same stage here visited)
          unique inhabited sweeping
        have grown : (first :: middle ++ [stage]).filter (visits peer) =
            (first :: middle).filter (visits peer) ++ [stage] := by
          rw [List.filter_append]
          simp [visited]
        have counted := (sweeping.counts (List.length_pos_of_ne_nil inhabited)).1
        refine ⟨?_, ?_⟩
        · rw [grown, List.flatMap_append, swept.shown, List.flatMap_singleton, advertised, ← stretch_add,
            List.length_append, List.length_singleton, counted]
          congr 1
          omega
        · rw [grown, List.length_append]
          exact later
      · have still : (first :: middle ++ [stage]).filter (visits peer) = (first :: middle).filter (visits peer) := by
          rw [List.filter_append]
          simp [visited]
        obtain ⟨later, stays⟩ := Option.isSome_iff_exists.mp (kept stage here)
        have sweep := stage_unvisited run present stays (Bool.eq_false_iff.mpr visited)
        simp only [sweepOf, Prod.mk.injEq] at sweep
        have lane : sweepLane selected later = sweepLane selected session := by
          rw [sweepLane, sweepLane, sweep.2.2.1, sweep.2.2.2]
        obtain ⟨-, -, rfl⟩ := Run.unsnoc run
        refine ⟨by rw [still]; exact swept.shown, later, stays, ?_⟩
        rw [still, lane]
        exact sweeping

/-- The run up to a place between its stages. -/
theorem run_front {front rest : List (Stage F)} (run : Run db (front ++ rest) server pending) :
    ∃ server pending, Run db front server pending := by
  induction rest using List.reverseRecOn generalizing server pending with
  | nil => exact ⟨server, pending, by simpa using run⟩
  | append_singleton rest stage ih =>
      rw [← List.append_assoc] at run
      obtain ⟨⟨waiting, shorter⟩, -, -⟩ := run.unsnoc
      exact ih shorter

/-- The first visits of the row, however many of them. -/
theorem front_shown (run : Run db (earlier ++ [first] ++ middle) server pending) (opened : visits peer first = true)
    (unique : selected.Nodup) (inhabited : selected ≠ [])
    (found : first.before.sessions.get? peer = some session)
    (fresh : Sweeping selected.length start 0 (sweepLane selected session))
    (same : ∀ stage ∈ first :: middle, visits peer stage = true → selectionAt peer stage = selected)
    (kept : ∀ stage ∈ first :: middle, (stage.after.sessions.get? peer).isSome = true) {front rest : List (Stage F)}
    (split : (first :: middle).filter (visits peer) = front ++ rest) :
    front.flatMap (advertisedAt peer) = stretch selected start (shownBy selected.length front.length) := by
  obtain ⟨begun, left, whole, rfl, rfl⟩ := List.filter_eq_append_iff.mp split
  cases begun with
  | nil => simp [shownBy, stretch]
  | cons head begun =>
      rw [List.cons_append, List.cons.injEq] at whole
      obtain ⟨rfl, rfl⟩ := whole
      rw [← List.append_assoc] at run
      obtain ⟨_, _, shorter⟩ := run_front run
      have inside : ∀ stage ∈ first :: begun, stage ∈ first :: (begun ++ left) := by
        intro stage listed
        rw [← List.cons_append]
        exact List.mem_append_left _ listed
      exact (swept_run shorter opened unique inhabited found fresh
        (fun stage listed => same stage (inside stage listed))
        (fun stage listed => kept stage (inside stage listed))).shown

/-- As many visits in a row as a sweep takes go once around the selection. -/
theorem turns_shown (run : Run db (earlier ++ [first] ++ middle) server pending) (opened : visits peer first = true)
    (unique : selected.Nodup) (inhabited : selected ≠ [])
    (found : first.before.sessions.get? peer = some session)
    (fresh : Sweeping selected.length start 0 (sweepLane selected session))
    (same : ∀ stage ∈ first :: middle, visits peer stage = true → selectionAt peer stage = selected)
    (kept : ∀ stage ∈ first :: middle, (stage.after.sessions.get? peer).isSome = true)
    {early turns late : List (Stage F)} (split : (first :: middle).filter (visits peer) = early ++ turns ++ late)
    (round : turns.length = packets selected.length) :
    turns.flatMap (advertisedAt peer) = selected.rotate (start + shownBy selected.length early.length) := by
  have whole := front_shown run opened unique inhabited found fresh same kept split
  rw [List.append_assoc] at split
  have before := front_shown run opened unique inhabited found fresh same kept split
  rw [List.flatMap_append, before, List.length_append, round, shownBy_add (List.length_pos_of_ne_nil inhabited),
    stretch_add, stretch_whole] at whole
  exact List.append_cancel_left whole

end Runs

/-! Packets of a call. -/
section Packets
variable {F : Type} [Platform F] [Codec F] {server : Server F} {peer : PeerId} {session : Session F}

theorem chunk_length_le (selected : List UInt64) (cursor : Option UInt64) (remaining : Nat) :
    (snapshotChunk selected cursor remaining).advertised.length ≤ snapshotEntitiesPerPacket := by
  refine (List.length_filterMap_le _ _).trans ?_
  rw [List.length_range]
  exact Nat.min_le_right _ _

/-- The packets sent between two states, each about few players. -/
def SendsFew (server after : Server F) : Prop :=
  ∃ packets, after.sent = server.sent ++ packets ∧
    ∀ packet ∈ packets, (shownIn packet.2).length ≤ snapshotEntitiesPerPacket

omit [Codec F] in
theorem sendsFew_of_sent {after : Server F} (same : after.sent = server.sent) : SendsFew server after :=
  ⟨[], by rw [same, List.append_nil], by simp⟩

omit [Codec F] in
theorem SendsFew.trans {middle after : Server F} (first : SendsFew server middle) (second : SendsFew middle after) :
    SendsFew server after := by
  obtain ⟨early, sent, few⟩ := first
  obtain ⟨late, after, rest⟩ := second
  refine ⟨early ++ late, by rw [after, sent, List.append_assoc], ?_⟩
  intro packet listed
  rcases List.mem_append.mp listed with before | later
  · exact few packet before
  · exact rest packet later

theorem sendSnapshot_few (server : Server F) (peer : PeerId) (sessions : List (Session F))
    (few : sessions.length ≤ snapshotEntitiesPerPacket) : SendsFew server (server.sendSnapshot peer sessions) := by
  unfold sendSnapshot postBounded
  split
  · exact sendsFew_of_sent rfl
  split
  · exact sendsFew_of_sent rfl
  · refine ⟨_, rfl, ?_⟩
    intro packet listed
    rw [List.mem_singleton.mp listed]
    simpa [shownIn, playerSnaps] using few

theorem visit_few (server : Server F) (peer : PeerId) : SendsFew server (server.visitSnapshotRecipient peer) := by
  unfold visitSnapshotRecipient
  split
  · exact sendsFew_of_sent rfl
  split
  · exact sendsFew_of_sent rfl
  split
  · exact sendsFew_of_sent rfl
  simp only
  split
  · exact sendsFew_of_sent rfl
  · exact sendSnapshot_few _ _ _ ((List.length_filterMap_le _ _).trans (chunk_length_le _ _ _))

theorem broadcast_few (server : Server F) : SendsFew server server.broadcastSnapshots := by
  have folded : ∀ (peers : List PeerId) (start : Server F),
      SendsFew start (peers.foldl visitSnapshotRecipient start) := by
    intro peers
    induction peers with
    | nil => exact fun _ => sendsFew_of_sent rfl
    | cons peer rest ih => exact fun start => (visit_few start peer).trans (ih _)
  exact (sendsFew_of_sent rfl : SendsFew server (callStart server)).trans (folded _ _)

end Packets

/-! Selection and sweeps together. -/
section Sweeps
variable {F : Type} [Platform F] [Codec F] {db : Persistence.Db F} {pending : List Event} {server : Server F}
  {trace earlier middle : List (Stage F)} {first stage : Stage F} {peer : PeerId} {selected : List UInt64}

/-- The state in which the next call comes to `peer`. -/
def visitState (server : Server F) (peer : PeerId) : Server F :=
  ((callWindow server).takeWhile (· ≠ peer)).foldl visitSnapshotRecipient (callStart server)

theorem visitState_quiet (server : Server F) (peer : PeerId) : Quiet peer server (visitState server peer) := by
  have started : Quiet peer server (callStart server) := ⟨rfl, rfl, keeps_callStart server⟩
  refine started.trans (visits_other ?_ _)
  intro listed
  simpa using List.mem_takeWhile_imp listed

theorem visited_packets (fit : SnapshotsFit F) (run : Run db trace server pending) (listed : stage ∈ trace)
    (visited : visits peer stage = true) {packets : List (PeerId × Envelope F)}
    (sent : stage.after.sent = stage.before.sent ++ packets) :
    (packets.filter fun packet => packet.1 = peer).flatMap (fun packet => shownIn packet.2) =
      advertisedAt peer stage := by
  obtain ⟨front, rest, rfl⟩ := List.append_of_mem listed
  obtain ⟨⟨_, before⟩, -, -⟩ := TickEffects.run_upto run
  obtain ⟨_, upto⟩ := Run.upto run
  obtain ⟨calling, due⟩ := Bool.and_eq_true_iff.mp visited
  obtain ⟨session, found⟩ := SnapshotVisits.visit_found visited
  have showing := broadcast_shows fit before.inv.agree found due
  rw [← call_after upto calling, shown, sent, List.filter_append, List.flatMap_append] at showing
  simp only [advertisedAt, found]
  exact List.append_cancel_left showing

/-- The selection of a recipient, due or not, is the others in view, in turn after it and at most fifteen; while it
stays the same, as many due visits in a row as a sweep takes advertise each of them once, five to a packet. -/
theorem snapshot_sweeps (run : Run db trace server pending) (peer : PeerId) :
    (∀ session cell, server.sessions.get? peer = some session → session.cell = some cell →
      ∃ others, InTurnAfter session.playerId others ∧
        (∀ player, player ∈ others ↔ OtherInView server session.playerId cell player) ∧
        (visitState server peer).snapshotSelection session.playerId cell = others.take 15 ∧
        (others.length ≤ 15 → ∀ order : SetOrder,
          ((visitState server peer).snapshotSelection session.playerId cell).Perm
            ((entitiesInRadius order server.world cell server.cfg.aoiRadiusI32).filter (· ≠ session.playerId)))) ∧
    ∀ earlier first middle selected, trace = earlier ++ [first] ++ middle → visits peer first = true →
      selected ≠ [] → startsAfresh peer selected first →
      (∀ stage ∈ first :: middle, visits peer stage = true → selectionAt peer stage = selected) →
      (∀ stage ∈ first :: middle, (stage.after.sessions.get? peer).isSome = true) →
      ∀ early turns late, (first :: middle).filter (visits peer) = early ++ turns ++ late →
        turns.length = (selected.length + 4) / 5 →
        (turns.flatMap (advertisedAt peer)).Perm selected ∧
        ∀ turn ∈ turns, ∃ packets, turn.after.sent = turn.before.sent ++ packets ∧
          (∀ packet ∈ packets, (shownIn packet.2).length ≤ 5) ∧
          (SnapshotsFit F → (packets.filter fun packet => packet.1 = peer).flatMap (fun packet => shownIn packet.2) =
            advertisedAt peer turn) := by
  refine ⟨?_, ?_⟩
  · intro session cell found here
    have inv := run.inv
    have chosen : (visitState server peer).snapshotSelection session.playerId cell =
        (othersInTurn server session.playerId cell).take snapshotVisibilityCeiling := by
      rw [selection_of_keeps (visitState_quiet server peer).keeps, selection_eq_take inv]
    refine ⟨_, othersInTurn_inTurn server session.playerId cell,
      mem_othersInTurn inv.agree session.playerId cell, chosen, ?_⟩
    intro few order
    have whole : (othersInTurn server session.playerId cell).take snapshotVisibilityCeiling = _ :=
      List.take_of_length_le few
    rw [chosen, whole]
    exact othersInTurn_perm order inv session.playerId cell
  · intro earlier first middle selected split opened inhabited afresh same kept early turns late filtered round
    subst split
    have here : first ∈ earlier ++ [first] ++ middle := by simp
    obtain ⟨session, start, found, fresh⟩ := sweeping_start inhabited afresh
    have unique : selected.Nodup := by
      rw [← same first List.mem_cons_self opened]
      obtain ⟨front, rest, whole⟩ := List.append_of_mem here
      rw [whole] at run
      obtain ⟨⟨_, before⟩, -, -⟩ := TickEffects.run_upto run
      obtain ⟨cell, placed, -, -⟩ := before.inv.agree.cells peer session found
      simp only [selectionAt, found, selectedFor_eq placed, selection_eq_take before.inv]
      exact (othersInTurn_inTurn _ _ _).nodup.sublist (List.take_sublist _ _)
    refine ⟨?_, ?_⟩
    · rw [turns_shown run opened unique inhabited found fresh same kept filtered round]
      exact List.rotate_perm _ _
    · intro turn listed
      have member : turn ∈ (first :: middle).filter (visits peer) := by
        rw [filtered]
        simp [listed]
      obtain ⟨inside, visited⟩ := List.mem_filter.mp member
      have present : turn ∈ earlier ++ [first] ++ middle := by
        rw [List.append_assoc]
        exact List.mem_append_right _ inside
      obtain ⟨front, rest, whole⟩ := List.append_of_mem present
      have upto := run
      rw [whole] at upto
      obtain ⟨_, upto⟩ := Run.upto upto
      obtain ⟨packets, sent, few⟩ := broadcast_few turn.before
      rw [← call_after upto (Bool.and_eq_true_iff.mp visited).1] at sent
      exact ⟨packets, sent, few, fun fit => visited_packets fit run present visited sent⟩

end Sweeps

/-! A sweep over the nine others of a fleet, with six calls between its two turns in which nobody is due. -/
section Fleet

local instance : Codec Int := fleetCodec

def snapshotCalls : Nat → Server Int → List (Stage Int)
  | 0, _ => []
  | n + 1, server => ⟨server, .tick .snapshots, server.broadcastSnapshots⟩ :: snapshotCalls n server.broadcastSnapshots

theorem snapshotCalls_run {db : Persistence.Db Int} (n : Nat) {trace : List (Stage Int)} {server : Server Int}
    (run : Run db trace server []) : ∃ after, Run db (trace ++ snapshotCalls n server) after [] := by
  induction n generalizing trace server with
  | zero => exact ⟨server, by simpa [snapshotCalls] using run⟩
  | succ n ih =>
      obtain ⟨after, longer⟩ := ih (run.tick .snapshots)
      exact ⟨after, by simpa [snapshotCalls, Tick.run] using longer⟩

theorem fleetCodec_fits : SnapshotsFit Int := by
  intro seq tick players boats few fewer
  have most : 64 + 64 * players.length + 80 * boats.length ≤ payloadLimit := by
    have room : 64 + 64 * 5 + 80 * 5 ≤ payloadLimit := by decide
    unfold snapshotEntitiesPerPacket at few fewer
    omega
  simpa [Codec.encode, encodedBytes] using most

def fleetOthers : List UInt64 := [4, 5, 6, 7, 8, 9, 10, 1, 2]

def fleetSweep : List (Stage Int) := snapshotCalls 8 fleetJoined

theorem fleetSweep_view : (∀ stage ∈ fleetSweep, visits 3 stage = true → selectionAt 3 stage = fleetOthers) ∧
    (∀ stage ∈ fleetSweep, (stage.after.sessions.get? 3).isSome = true) ∧
    (fleetSweep.filter (visits 3)).length = 2 ∧ (fleetSweep.head?.map (visits 3)) = some true ∧
    (fleetJoined.sessions.get? 3).map Session.snapshotRemaining = some 0 := by
  decide +kernel

theorem snapshot_sweeps_fleet : ((fleetSweep.filter (visits 3)).flatMap (advertisedAt 3)).Perm fleetOthers ∧
    ∀ turn ∈ fleetSweep.filter (visits 3), ∃ packets, turn.after.sent = turn.before.sent ++ packets ∧
      (packets.filter fun packet => packet.1 = 3).flatMap (fun packet => shownIn packet.2) = advertisedAt 3 turn := by
  obtain ⟨same, kept, round, opened, unswept⟩ := fleetSweep_view
  obtain ⟨trace, joined⟩ := fleet_run
  obtain ⟨after, run⟩ := snapshotCalls_run 8 joined
  obtain ⟨session, found, fresh⟩ := Option.map_eq_some_iff.mp unswept
  obtain ⟨-, sweeps⟩ := snapshot_sweeps run 3
  obtain ⟨once, packets⟩ := sweeps trace ⟨fleetJoined, .tick .snapshots, fleetJoined.broadcastSnapshots⟩ _ fleetOthers
    (by simp [snapshotCalls]) (Option.some.inj opened) (by simp [fleetOthers]) ⟨session, found, .inl fresh⟩ same kept
    [] (fleetSweep.filter (visits 3)) [] (by simp [fleetSweep, snapshotCalls]) round
  refine ⟨once, ?_⟩
  intro turn listed
  obtain ⟨sent, grown, -, whole⟩ := packets turn listed
  exact ⟨sent, grown, whole fleetCodec_fits⟩

end Fleet
end SailwindOnline.SnapshotSweeps
