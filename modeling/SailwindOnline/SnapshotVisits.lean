import SailwindOnline.ServiceFairness
import SailwindOnline.SnapshotFreshness

/-!
Due visits over whole runs. A call of the broadcaster visits a recipient of its
window whose cadence has passed; nothing else touches the recipient's sweep, its
last visit or the clock.
-/

namespace SailwindOnline.SnapshotVisits
open World (Cell)
open Server SessionIndex SessionRuns Effects TickEffects Traces SnapshotLane SnapshotSchedule SnapshotFreshness
  ServiceFairness

section Calls
variable {F : Type} [Platform F] {server : Server F} {peer : PeerId} {session : Session F}

/-- Whether the next call visits `peer`. -/
def visitDue (server : Server F) (peer : PeerId) : Bool :=
  decide (peer ∈ callWindow server) &&
    (server.sessions.get? peer).any fun session => session.cell.isSome && (callStart server).snapshotDue session

/-- The players that the next call may advertise to the session. -/
def selectedFor (server : Server F) (session : Session F) : List UInt64 :=
  match session.cell with
  | none => []
  | some cell => server.snapshotSelection session.playerId cell

theorem callWindow_unique (server : Server F) : (callWindow server).Nodup :=
  CyclicService.served_nodup snapshotPacketsPerTick (Rota.snapshots.call server)

theorem snapshotDue_congr {before : Server F} (cfg : before.cfg = server.cfg)
    (tick : before.snapshotTick = server.snapshotTick) (session : Session F) :
    before.snapshotDue session = server.snapshotDue session := by
  rw [snapshotDue, snapshotDue, nominalCadence, nominalCadence, cfg, tick]

theorem visitDue_iff (found : server.sessions.get? peer = some session) {cell : Cell}
    (here : session.cell = some cell) :
    visitDue server peer = true ↔ peer ∈ callWindow server ∧ (callStart server).snapshotDue session = true := by
  simp [visitDue, found, here]

variable [Codec F]

theorem broadcast_unvisited (agree : SessionsAgree noStray server) (found : server.sessions.get? peer = some session)
    (idle : visitDue server peer = false) : Quiet peer server server.broadcastSnapshots := by
  obtain ⟨cell, here, -, -⟩ := agree.cells peer session found
  have started : Quiet peer server (callStart server) := ⟨rfl, rfl, keeps_callStart server⟩
  by_cases inside : peer ∈ callWindow server
  · obtain ⟨before, quiet, clock, rest⟩ := visits_reach (callWindow_unique server) inside (callStart server)
    have late : before.snapshotDue session = false := by
      rw [snapshotDue_congr quiet.keeps.cfg clock, ← Bool.not_eq_true]
      intro due
      rw [(visitDue_iff found here).mpr ⟨inside, due⟩] at idle
      cases idle
    have reached := started.trans quiet
    rw [visit_idle late (reached.session.trans found)] at rest
    exact reached.trans rest
  · exact started.trans (visits_other inside _)

/-- What a due visit leaves of the session. -/
structure Visited (tick : UInt32) (selected : List UInt64) (session later : Session F) : Prop where
  player : later.playerId = session.playerId
  tick : later.snapshotLastVisitTick = tick
  nobody : selected = [] → later.snapshotCursor = none ∧ later.snapshotRemaining = 0
  swept : selected ≠ [] →
    later.snapshotCursor = (snapshotChunk selected session.snapshotCursor session.snapshotRemaining).cursor ∧
    later.snapshotRemaining = (snapshotChunk selected session.snapshotCursor session.snapshotRemaining).remaining

omit [Codec F] in
theorem selectedFor_eq {cell : Cell} (here : session.cell = some cell) :
    selectedFor server session = server.snapshotSelection session.playerId cell := by
  simp only [selectedFor, here]

/-- The state in which a due visit is made differs from the one before the call in other recipients alone. -/
theorem broadcast_reach (agree : SessionsAgree noStray server) (found : server.sessions.get? peer = some session)
    (due : visitDue server peer = true) :
    ∃ before cell, session.cell = some cell ∧ Quiet peer server before ∧
      before.snapshotTick = server.snapshotTick + 1 ∧ before.snapshotDue session = true ∧
      before.snapshotSelection session.playerId cell = selectedFor server session ∧
      Quiet peer (before.visitSnapshotRecipient peer) server.broadcastSnapshots := by
  obtain ⟨cell, here, -, -⟩ := agree.cells peer session found
  obtain ⟨inside, ready⟩ := (visitDue_iff found here).mp due
  obtain ⟨before, quiet, clock, rest⟩ := visits_reach (callWindow_unique server) inside (callStart server)
  have started : Quiet peer server (callStart server) := ⟨rfl, rfl, keeps_callStart server⟩
  have reached := started.trans quiet
  refine ⟨before, cell, here, reached, clock, ?_, ?_, rest⟩
  · rw [snapshotDue_congr quiet.keeps.cfg clock]
    exact ready
  · rw [selection_of_keeps reached.keeps, selectedFor_eq here]

theorem broadcast_visited (agree : SessionsAgree noStray server) (found : server.sessions.get? peer = some session)
    (due : visitDue server peer = true) :
    ∃ later, server.broadcastSnapshots.sessions.get? peer = some later ∧
      Visited (server.snapshotTick + 1) (selectedFor server session) session later := by
  obtain ⟨before, cell, here, reached, clock, ready, chosen, rest⟩ := broadcast_reach agree found due
  obtain ⟨later, present, player, tick, swept⟩ := visit_sweeps (reached.session.trans found) here ready chosen
  refine ⟨later, rest.session.trans present, player, tick.trans clock, ?_, ?_⟩
  · intro nobody
    rwa [if_pos (by rw [nobody]; rfl)] at swept
  · intro some
    rwa [if_neg (fun empty => some (List.length_eq_zero_iff.mp empty))] at swept

theorem broadcast_shows (fit : SnapshotsFit F) (agree : SessionsAgree noStray server)
    (found : server.sessions.get? peer = some session) (due : visitDue server peer = true) :
    shown server.broadcastSnapshots peer = shown server peer ++
      (snapshotChunk (selectedFor server session) session.snapshotCursor session.snapshotRemaining).advertised := by
  obtain ⟨before, cell, here, reached, -, ready, chosen, rest⟩ := broadcast_reach agree found due
  rw [rest.shown, visit_shows fit (reached.keeps.agree agree) (reached.session.trans found) here ready chosen,
    reached.shown]

end Calls

/-! Stages of a run. -/
section Stages
variable {F : Type} [Platform F] [Codec F] {db : Persistence.Db F} {pending : List Event} {server : Server F}
  {trace : List (Stage F)} {stage : Stage F} {peer : PeerId} {session later : Session F}

abbrev isCall (stage : Stage F) : Bool := Rota.snapshots.calls stage

/-- The stage visits the session of `peer`. -/
def visits (peer : PeerId) (stage : Stage F) : Bool := isCall stage && visitDue stage.before peer

omit [Codec F] in
theorem visit_found (visited : visits peer stage = true) :
    ∃ session, stage.before.sessions.get? peer = some session := by
  simp only [visits, visitDue, Bool.and_eq_true, Option.any_eq_true] at visited
  obtain ⟨-, -, session, found, -⟩ := visited
  exact ⟨session, found⟩

omit [Codec F] in
theorem isCall_iff : isCall stage = true ↔ stage.action = .tick .snapshots := by
  unfold isCall Rota.calls
  split <;> simp_all

theorem call_after (run : Run db (trace ++ [stage]) server pending) (calling : isCall stage = true) :
    stage.after = stage.before.broadcastSnapshots := by
  obtain ⟨-, lawful, -⟩ := run.unsnoc
  obtain ⟨before, action, after⟩ := stage
  cases isCall_iff.mp calling
  exact lawful

omit [Codec F] in
theorem touched_sweep {rest : Server F → Server F} {view : Session F → Session F} {topics : List Topic}
    {server after : Server F} (touches : Touches rest view topics server after)
    (seen : ∀ session, sweepOf (view session) = sweepOf session) (found : server.sessions.get? peer = some session)
    (kept : after.sessions.get? peer = some later) : sweepOf later = sweepOf session := by
  have same := touches.sessions peer
  rw [found, kept, Option.map_some, Option.map_some, Option.some.injEq] at same
  rw [← seen later, same, seen]

/-- Other work than the broadcaster's leaves the sweep and the clock alone. -/
theorem tick_sweep {server : Server F} (tick : Tick) (other : tick ≠ .snapshots)
    (found : server.sessions.get? peer = some session)
    (kept : (tick.run server).sessions.get? peer = some later) : sweepOf later = sweepOf session := by
  cases tick with
  | aoi fails => exact touched_sweep (processAoiWork_effect server fails) (fun _ => rfl) found kept
  | snapshots => exact absurd rfl other
  | fanout =>
      have frame := (processFanoutWork_run server).frame
      have sessions : server.processFanoutWork.sessions = server.sessions := (congrArg Server.sessions frame :)
      rw [show (Tick.fanout.run server).sessions = server.sessions from sessions, found, Option.some.injEq] at kept
      rw [kept]
  | dirtyFlush fails now =>
      exact touched_sweep (processDirtyFlushAt_effect server fails now).toTouches (fun _ => rfl) found kept
  | beginFlush =>
      rw [show (Tick.beginFlush.run server).sessions = server.sessions from rfl, found, Option.some.injEq] at kept
      rw [kept]
  | clock clockMs =>
      have frame := broadcastClock_frame server clockMs
      have sessions : (server.broadcastClock clockMs).sessions = server.sessions := (congrArg Server.sessions frame :)
      rw [show ((Tick.clock clockMs).run server).sessions = server.sessions from sessions, found,
        Option.some.injEq] at kept
      rw [kept]

theorem stage_unvisited (run : Run db (trace ++ [stage]) server pending)
    (found : stage.before.sessions.get? peer = some session) (kept : stage.after.sessions.get? peer = some later)
    (idle : visits peer stage = false) : sweepOf later = sweepOf session := by
  obtain ⟨start, action, after, rfl, move, -, waiting, before⟩ := run_move run
  cases move with
  | poll host =>
      replace kept : start.sessions.get? peer = some later := kept
      rw [found, Option.some.injEq] at kept
      rw [kept]
  | handle outcome => exact outcome.kept_session sweepOf (fun _ _ _ _ _ => rfl) (fun _ _ => rfl) found kept
  | tick tick =>
      by_cases calling : tick = .snapshots
      · subst calling
        have late : visitDue start peer = false := idle
        have quiet := broadcast_unvisited before.inv.agree found late
        replace kept : start.broadcastSnapshots.sessions.get? peer = some later := kept
        rw [quiet.session, found, Option.some.injEq] at kept
        rw [kept]
      · exact tick_sweep tick calling found kept

theorem stage_visited (run : Run db (trace ++ [stage]) server pending)
    (found : stage.before.sessions.get? peer = some session) (kept : stage.after.sessions.get? peer = some later)
    (due : visits peer stage = true) :
    Visited (stage.before.snapshotTick + 1) (selectedFor stage.before session) session later := by
  obtain ⟨calling, ready⟩ := Bool.and_eq_true_iff.mp due
  obtain ⟨⟨waiting, before⟩, -, -⟩ := run.unsnoc
  obtain ⟨visited, present, swept⟩ := broadcast_visited before.inv.agree found ready
  rw [call_after run calling, present, Option.some.injEq] at kept
  exact kept ▸ swept

theorem tick_clock (server : Server F) (tick : Tick) (other : tick ≠ .snapshots) :
    (tick.run server).snapshotTick = server.snapshotTick := by
  cases tick with
  | aoi fails => exact (congrArg Server.snapshotTick (processAoiWork_effect server fails).frame :)
  | snapshots => exact absurd rfl other
  | fanout => exact (congrArg Server.snapshotTick (processFanoutWork_run server).frame :)
  | dirtyFlush fails now =>
      exact (congrArg Server.snapshotTick (processDirtyFlushAt_effect server fails now).frame :)
  | beginFlush => rfl
  | clock clockMs => exact (congrArg Server.snapshotTick (broadcastClock_frame server clockMs) :)

/-- Calls of the broadcaster alone advance the clock, each by one. -/
theorem stage_clock (run : Run db (trace ++ [stage]) server pending) :
    stage.after.snapshotTick = if isCall stage then stage.before.snapshotTick + 1 else stage.before.snapshotTick := by
  obtain ⟨start, action, after, rfl, move, -⟩ := run_move run
  cases move with
  | poll host => rfl
  | handle outcome => exact congrArg (fun schedule => schedule.2.2) (outcome_schedule outcome)
  | tick tick =>
      by_cases calling : tick = .snapshots
      · subst calling
        exact (visits_clock (callWindow start) (callStart start)).1
      · rw [if_neg (by rw [isCall_iff]; exact fun same => calling (by cases same; rfl))]
        exact tick_clock start tick calling

end Stages
end SailwindOnline.SnapshotVisits
