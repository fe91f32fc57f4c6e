import SailwindOnline.HostRuns
import SailwindOnline.ServerTicks

/-!
The session indices of the server. Sessions are reached by peer and by player,
walked by two recipient sets and placed in the world; every handler keeps the
five views in agreement. While an identity moves to a new peer the world still
holds a player that has no session: such a player is a stray.
-/

namespace SailwindOnline.SessionIndex
open World (Cell)
open Server Persistence

section Agreement
variable {F : Type} [Platform F]

structure SessionsAgree (stray : UInt64 → Prop) (server : Server F) : Prop where
  owner_iff : ∀ player peer, server.playerPeers.get? player = some peer ↔
    ∃ session, server.sessions.get? peer = some session ∧ session.playerId = player
  order : server.playerOrder = server.playerPeers.keys
  recipients : server.snapshotRecipients = server.sessions.keys
  scheduled : server.aoiRecipients ⊆ server.sessions.keys
  coherent : server.world.Coherent
  placed : ∀ player, (server.world.cellOf.get? player).isSome →
    (server.playerPeers.get? player).isSome ∨ stray player
  cells : ∀ peer session, server.sessions.get? peer = some session →
    ∃ cell, session.cell = some cell ∧ server.world.cellOf.get? session.playerId = some cell ∧
      session.sub.center = some cell

def noStray : UInt64 → Prop := fun _ => False

/-- What the indices know about a session. -/
def placeOf (session : Session F) : UInt64 × Option Cell × Option Cell :=
  (session.playerId, session.cell, session.sub.center)

/-- The part of a server that its session indices are read from. -/
def indexedPart (server : Server F) :=
  (server.cfg, server.host, server.world, server.playerPeers, server.playerOrder, server.snapshotRecipients,
    server.aoiRecipients, server.sessions)

structure KeepsIndex (server after : Server F) : Prop where
  cfg : after.cfg = server.cfg
  host : after.host = server.host
  world : after.world = server.world
  owners : after.playerPeers = server.playerPeers
  order : after.playerOrder = server.playerOrder
  recipients : after.snapshotRecipients = server.snapshotRecipients
  scheduled : after.aoiRecipients ⊆ server.aoiRecipients ∪ server.sessions.keys
  places : ∀ peer, (after.sessions.get? peer).map placeOf = (server.sessions.get? peer).map placeOf
  accounts : server.db.SameAccounts after.db

namespace KeepsIndex
variable {server middle after : Server F}

theorem keys_eq (keeps : KeepsIndex server after) : after.sessions.keys = server.sessions.keys := by
  ext peer
  rw [FiniteMap.mem_keys, FiniteMap.mem_keys]
  have equal := congrArg Option.isSome (keeps.places peer)
  simpa using Bool.eq_iff_iff.mp equal

theorem trans (first : KeepsIndex server middle) (second : KeepsIndex middle after) :
    KeepsIndex server after where
  cfg := second.cfg.trans first.cfg
  host := second.host.trans first.host
  world := second.world.trans first.world
  owners := second.owners.trans first.owners
  order := second.order.trans first.order
  recipients := second.recipients.trans first.recipients
  scheduled := by
    intro peer member
    rcases Finset.mem_union.mp (second.scheduled member) with earlier | held
    · exact first.scheduled earlier
    · rw [first.keys_eq] at held
      exact Finset.mem_union_right _ held
  places := fun peer => (second.places peer).trans (first.places peer)
  accounts := first.accounts.trans second.accounts

theorem session_of (keeps : KeepsIndex server after) {peer : PeerId} {session : Session F}
    (found : after.sessions.get? peer = some session) :
    ∃ old, server.sessions.get? peer = some old ∧ placeOf old = placeOf session := by
  have equal := keeps.places peer
  rw [found, Option.map_some, eq_comm, Option.map_eq_some_iff] at equal
  exact equal

theorem session_to (keeps : KeepsIndex server after) {peer : PeerId} {session : Session F}
    (found : server.sessions.get? peer = some session) :
    ∃ kept, after.sessions.get? peer = some kept ∧ placeOf kept = placeOf session := by
  have equal := keeps.places peer
  rw [found, Option.map_some, Option.map_eq_some_iff] at equal
  exact equal

theorem player_exists_iff (keeps : KeepsIndex server after) (peer : PeerId) (player : UInt64) :
    (∃ session, after.sessions.get? peer = some session ∧ session.playerId = player) ↔
      ∃ session, server.sessions.get? peer = some session ∧ session.playerId = player := by
  constructor
  · rintro ⟨session, found, own⟩
    obtain ⟨old, present, place⟩ := keeps.session_of found
    exact ⟨old, present, (congrArg Prod.fst place).trans own⟩
  · rintro ⟨session, found, own⟩
    obtain ⟨kept, present, place⟩ := keeps.session_to found
    exact ⟨kept, present, (congrArg Prod.fst place).trans own⟩

theorem agree (keeps : KeepsIndex server after) {stray : UInt64 → Prop}
    (agree : SessionsAgree stray server) : SessionsAgree stray after where
  owner_iff := by
    intro player peer
    rw [keeps.owners, agree.owner_iff, keeps.player_exists_iff]
  order := by rw [keeps.order, keeps.owners, agree.order]
  recipients := by rw [keeps.recipients, keeps.keys_eq, agree.recipients]
  scheduled := by
    rw [keeps.keys_eq]
    exact keeps.scheduled.trans (Finset.union_subset agree.scheduled (Finset.Subset.refl _))
  coherent := keeps.world ▸ agree.coherent
  placed := by
    rw [keeps.world, keeps.owners]
    exact agree.placed
  cells := by
    intro peer session found
    obtain ⟨old, present, place⟩ := keeps.session_of found
    simp only [placeOf, Prod.mk.injEq] at place
    obtain ⟨cell, here, indexed, center⟩ := agree.cells peer old present
    rw [keeps.world]
    exact ⟨cell, place.2.1 ▸ here, place.1 ▸ indexed, place.2.2 ▸ center⟩

/-- A change to fields the indices do not read, and to tables that hold no accounts. -/
theorem of_accounts (same : indexedPart after = indexedPart server) (accounts : server.db.SameAccounts after.db) :
    KeepsIndex server after := by
  simp only [indexedPart, Prod.mk.injEq] at same
  obtain ⟨cfg, host, world, owners, order, recipients, scheduled, sessions⟩ := same
  exact ⟨cfg, host, world, owners, order, recipients, scheduled ▸ Finset.subset_union_left,
    fun peer => by rw [sessions], accounts⟩

theorem of_sessions_eq (same : indexedPart after = indexedPart server) (db : after.db = server.db) :
    KeepsIndex server after :=
  of_accounts same (.of_eq db)

theorem refl (server : Server F) : KeepsIndex server server :=
  of_sessions_eq rfl rfl

theorem modifySession (server : Server F) (peer : PeerId) (change : Session F → Session F)
    (kept : ∀ session, placeOf (change session) = placeOf session) :
    KeepsIndex server (server.modifySession peer change) := by
  refine ⟨rfl, rfl, rfl, rfl, rfl, rfl, Finset.subset_union_left, ?_, .refl _⟩
  intro other
  simp only [Server.modifySession, FiniteMap.get?_modify]
  split <;> rename_i own
  · rw [own, Option.map_map]
    congr 1
    funext session
    exact kept session
  · rfl

theorem scheduleAoi (server : Server F) (peer : PeerId) : KeepsIndex server (server.scheduleAoi peer) := by
  unfold Server.scheduleAoi
  split <;> rename_i held
  · refine ⟨rfl, rfl, rfl, rfl, rfl, rfl, ?_, fun _ => rfl, .refl _⟩
    intro other member
    rcases Finset.mem_insert.mp member with rfl | earlier
    · exact Finset.mem_union_right _ ((FiniteMap.mem_keys _ _).mpr held)
    · exact Finset.mem_union_left _ earlier
  · exact refl server

theorem emitAoi (server : Server F) (peer : PeerId) (aoi : World.AoiUpdate) :
    KeepsIndex server (server.emitAoi peer aoi) := by
  unfold Server.emitAoi
  split
  · exact refl server
  · exact scheduleAoi server peer

theorem post (server : Server F) (peer : PeerId) (payload : ServerMessage F) :
    KeepsIndex server (server.post peer payload) :=
  of_sessions_eq rfl rfl

theorem postBounded [Codec F] (server : Server F) (peer : PeerId) (payload : ServerMessage F) :
    KeepsIndex server (server.postBounded peer payload).1 := by
  unfold Server.postBounded
  split
  · exact of_sessions_eq rfl rfl
  · exact post server peer payload

end KeepsIndex
end Agreement

/-! The fixed-tick work never moves a session. -/
section Ticks
variable {F : Type} [Platform F] [Codec F]

omit [Codec F] in
theorem keeps_foldl {Item : Type} (step : Server F → Item → Server F)
    (kept : ∀ server item, KeepsIndex server (step server item)) (items : List Item) (server : Server F) :
    KeepsIndex server (items.foldl step server) := by
  induction items generalizing server with
  | nil => exact .refl server
  | cons item rest ih => exact (kept server item).trans (ih (step server item))

theorem keeps_sendSnapshot (server : Server F) (peer : PeerId) (sessions : List (Session F)) :
    KeepsIndex server (server.sendSnapshot peer sessions) := by
  unfold sendSnapshot
  split
  · exact .refl server
  · exact .postBounded _ _ _

theorem keeps_visitSnapshotRecipient (server : Server F) (peer : PeerId) :
    KeepsIndex server (server.visitSnapshotRecipient peer) := by
  have visited := KeepsIndex.modifySession server peer (visitedAt server.snapshotTick) fun _ => rfl
  unfold visitSnapshotRecipient
  split
  · exact .refl server
  · split
    · exact .refl server
    · split
      · exact .refl server
      · simp only
        split
        · exact visited.trans (.modifySession _ _ _ fun _ => rfl)
        · refine KeepsIndex.trans (KeepsIndex.trans visited ?_) (keeps_sendSnapshot _ _ _)
          exact .modifySession _ _ _ fun _ => rfl

theorem keeps_broadcastSnapshots (server : Server F) : KeepsIndex server server.broadcastSnapshots := by
  unfold broadcastSnapshots
  refine KeepsIndex.trans ?_ (keeps_foldl _ keeps_visitSnapshotRecipient _ _)
  exact .of_sessions_eq rfl rfl

omit [Codec F] in
theorem keeps_nextAoiChunk (server : Server F) (peer : PeerId) :
    KeepsIndex server (server.nextAoiChunk peer).1 := by
  unfold nextAoiChunk
  split
  · exact .refl server
  · simp only
    split
    · exact .refl server
    · exact .modifySession _ _ _ fun _ => rfl

omit [Platform F] [Codec F] in
theorem placeOf_prepareHydration (session : Session F) (activePlayers : Nat) :
    placeOf (prepareHydration session activePlayers).1 = placeOf session := by
  unfold prepareHydration
  split
  · rfl
  · split <;> rfl

omit [Codec F] in
theorem keeps_prepareCellHydration (server : Server F) (peer : PeerId) :
    KeepsIndex server (server.prepareCellHydration peer).1 := by
  unfold prepareCellHydration
  cases found : server.sessions.get? peer with
  | none => exact .refl server
  | some session =>
      refine ⟨rfl, rfl, rfl, rfl, rfl, rfl, Finset.subset_union_left, ?_, .refl _⟩
      intro other
      simp only [Server.modifySession, FiniteMap.get?_modify]
      split <;> rename_i own
      · simp [own, found, placeOf_prepareHydration]
      · rfl

theorem keeps_sendCellSnapshot (server : Server F) (peer : PeerId) (cell : Cell)
    (sessions : List (Session F)) (moorings : List (MooringSnap F)) :
    KeepsIndex server (server.sendCellSnapshot peer cell sessions moorings) := by
  have posted := KeepsIndex.postBounded server peer
    (.cellSnapshot cell (playerSnaps sessions) (boatSnaps sessions) moorings)
  unfold sendCellSnapshot
  split <;> rename_i sending
  · rw [sending] at posted
    exact posted
  · rw [sending] at posted
    exact posted.trans (.modifySession _ _ _ fun _ => rfl)

omit [Codec F] in
theorem keeps_modifyHydration (server : Server F) (peer : PeerId)
    (change : CellHydration → CellHydration) : KeepsIndex server (server.modifyHydration peer change) :=
  .modifySession _ _ _ fun _ => rfl

theorem keeps_hydratePlayers (server : Server F) (peer : PeerId) (hydration : CellHydration) :
    KeepsIndex server (server.hydratePlayers peer hydration).1 := by
  unfold hydratePlayers
  simp only
  split
  · exact keeps_modifyHydration _ _ _
  · exact KeepsIndex.trans (keeps_modifyHydration _ _ _) (keeps_sendCellSnapshot _ _ _ _ _)

theorem keeps_completeHydration (server : Server F) (peer : PeerId) (hydration : CellHydration) :
    KeepsIndex server (server.completeHydration peer hydration).1 := by
  unfold completeHydration
  refine KeepsIndex.trans ?_ (.modifySession _ peer _ fun _ => rfl)
  split
  · exact .refl server
  · exact .postBounded _ _ _

theorem keeps_hydrateMooring (server : Server F) (peer : PeerId) (hydration : CellHydration)
    (row : Persistence.MooringRow F) : KeepsIndex server (server.hydrateMooring peer hydration row) := by
  unfold hydrateMooring
  simp only
  split
  · exact KeepsIndex.trans (keeps_modifyHydration _ _ _) (keeps_sendCellSnapshot _ _ _ _ _)
  · exact keeps_modifyHydration _ _ _

theorem keeps_processOneAoiWork (server : Server F) (peer : PeerId) (fails : Bool) :
    KeepsIndex server (server.processOneAoiWork peer fails).1 := by
  have chunked := keeps_nextAoiChunk server peer
  unfold processOneAoiWork
  split <;> rename_i chunking
  · rw [chunking] at chunked
    exact chunked.trans (.postBounded _ _ _)
  · rename_i settled
    rw [chunking] at chunked
    have prepared := keeps_prepareCellHydration settled peer
    refine chunked.trans ?_
    split <;> rename_i preparing
    · rw [preparing] at prepared
      exact prepared
    · rw [preparing] at prepared
      refine prepared.trans ?_
      split
      · exact keeps_hydratePlayers _ _ _
      · split
        · exact .refl _
        · exact keeps_completeHydration _ _ _
        · exact keeps_hydrateMooring _ _ _ _

theorem keeps_serveAoiRecipient (fails : PeerId → Bool) (server : Server F) (peer : PeerId) :
    KeepsIndex server (serveAoiRecipient fails server peer) := by
  have taken : KeepsIndex server { server with aoiRecipients := server.aoiRecipients.erase peer } :=
    ⟨rfl, rfl, rfl, rfl, rfl, rfl, (Finset.erase_subset _ _).trans Finset.subset_union_left, fun _ => rfl,
      .refl _⟩
  have worked := keeps_processOneAoiWork
    { server with aoiRecipients := server.aoiRecipients.erase peer } peer (fails peer)
  unfold serveAoiRecipient
  refine taken.trans ?_
  simp only
  split
  · exact .refl _
  · split
    · exact worked.trans (.scheduleAoi _ _)
    · exact worked

theorem keeps_processAoiWork (server : Server F) (fails : PeerId → Bool) :
    KeepsIndex server (server.processAoiWork fails) := by
  unfold processAoiWork
  refine KeepsIndex.trans ?_ (keeps_foldl _ (keeps_serveAoiRecipient fails) _ _)
  exact .of_sessions_eq rfl rfl

omit [Codec F] in
theorem keeps_captureFanoutRecipients (server : Server F) :
    KeepsIndex server server.captureFanoutRecipients.1 := by
  unfold captureFanoutRecipients
  split
  · exact .refl server
  · simp only
    split
    · exact .refl server
    · exact .of_sessions_eq rfl rfl

omit [Codec F] in
theorem keeps_broadcastClock (server : Server F) (clockMs : Int64) :
    KeepsIndex server (server.broadcastClock clockMs) := by
  have captured := keeps_captureFanoutRecipients
    { server with seq := server.seq + 1, clockFanout := none }
  have cleared : KeepsIndex server { server with seq := server.seq + 1, clockFanout := none } :=
    .of_sessions_eq rfl rfl
  unfold broadcastClock
  refine cleared.trans ?_
  simp only
  split <;> rename_i capturing
  · rw [capturing] at captured
    exact captured
  · rw [capturing] at captured
    exact captured.trans (.of_sessions_eq rfl rfl)

omit [Codec F] in
theorem keeps_fanoutRecipients (job : FanoutJob F) (recipients : List FanoutRecipient)
    (budget : FanoutBudget) (server : Server F) :
    KeepsIndex server (server.fanoutRecipients job recipients budget).1 := by
  induction recipients generalizing server job budget with
  | nil => exact .refl server
  | cons recipient rest ih =>
      unfold fanoutRecipients
      split
      · exact .refl server
      · simp only
        split
        · refine KeepsIndex.trans ?_ (ih _ _ _)
          exact .of_sessions_eq rfl rfl
        · exact ih _ _ _

omit [Codec F] in
theorem keeps_takeFanoutJob (server : Server F) (fromClock : Bool) :
    KeepsIndex server (server.takeFanoutJob fromClock).1 := by
  unfold takeFanoutJob
  split <;> exact .of_sessions_eq rfl rfl

theorem keeps_finishFanoutJob (server : Server F) (fromClock : Bool) (job : FanoutJob F) :
    KeepsIndex server (server.finishFanoutJob fromClock job) := by
  unfold finishFanoutJob
  split <;> exact .of_sessions_eq rfl rfl

omit [Codec F] in
theorem keeps_returnFanoutJob (server : Server F) (fromClock : Bool) (job : FanoutJob F) :
    KeepsIndex server (server.returnFanoutJob fromClock job) := by
  unfold returnFanoutJob
  split <;> exact .of_sessions_eq rfl rfl

theorem keeps_fanoutTurns (turns : Nat) (server : Server F) (budget : FanoutBudget) :
    KeepsIndex server (fanoutTurns turns server budget) := by
  induction turns generalizing server budget with
  | zero => exact .refl server
  | succ turns ih =>
      unfold fanoutTurns
      split
      · exact .refl server
      · simp only
        have taken := keeps_takeFanoutJob server
          (server.clockFanout.isSome && (server.fanoutPreferClock || server.chatFanout.isEmpty))
        split <;> rename_i taking
        · rw [taking] at taken
          refine taken.trans ?_
          split
          · exact .refl _
          · refine KeepsIndex.trans ?_ (ih _ _)
            exact .of_sessions_eq rfl rfl
        · rename_i opened job
          rw [taking] at taken
          have examined := keeps_fanoutRecipients job
            (job.audience.recipients.drop job.nextRecipient) budget opened
          refine taken.trans (examined.trans ?_)
          split
          · exact (keeps_finishFanoutJob _ _ _).trans (ih _ _)
          · exact keeps_returnFanoutJob _ _ _

omit [Codec F] in
theorem keeps_settleFlushed (server : Server F) (playerId : UInt64) :
    KeepsIndex server (server.settleFlushed playerId) := by
  unfold settleFlushed
  simp only
  split
  · exact .refl server
  · refine .modifySession _ _ _ fun session => ?_
    split <;> rfl

omit [Codec F] in
theorem keeps_flushEach (fails : UInt64 → Bool) (now : Int64) (players : List UInt64) (server : Server F) :
    KeepsIndex server (flushEach fails now players server).1 := by
  induction players generalizing server with
  | nil => exact .refl server
  | cons player rest ih =>
      unfold flushEach
      split <;> rename_i touched
      · exact .of_sessions_eq rfl rfl
      · cases attempt_eq_ok touched
        refine KeepsIndex.trans (KeepsIndex.trans ?_ (keeps_settleFlushed _ player)) (ih _)
        exact .of_accounts rfl (.touchLastSeen _ _ _)

omit [Codec F] in
theorem keeps_processDirtyFlushAt (server : Server F) (fails : UInt64 → Bool) (now : Int64) :
    KeepsIndex server (server.processDirtyFlushAt fails now).1 := by
  unfold processDirtyFlushAt
  split
  · exact .refl server
  · exact keeps_flushEach _ _ _ _

omit [Codec F] in
theorem keeps_beginDirtyFlush (server : Server F) : KeepsIndex server server.beginDirtyFlush :=
  .of_sessions_eq rfl rfl

end Ticks

/-! Readers of the index. -/
section Readers
variable {F : Type} [Platform F] {server after : Server F}

theorem cell_of_keeps (keeps : KeepsIndex server after) (player : UInt64) :
    (after.sessionByPlayer player).bind Session.cell = (server.sessionByPlayer player).bind Session.cell := by
  unfold sessionByPlayer
  rw [keeps.owners]
  cases server.playerPeers.get? player with
  | none => rfl
  | some peer =>
      have place := keeps.places peer
      simp only
      cases found : server.sessions.get? peer with
      | none =>
          rw [found, Option.map_none, Option.map_eq_none_iff] at place
          rw [place]
      | some session =>
          rw [found, Option.map_some, Option.map_eq_some_iff] at place
          obtain ⟨later, present, same⟩ := place
          simp only [placeOf, Prod.mk.injEq] at same
          rw [present]
          simp only [same.1]
          split
          · exact same.2.1
          · rfl

theorem inView_of_keeps (keeps : KeepsIndex server after) (cell : World.Cell) (player : UInt64) :
    after.inView cell player = server.inView cell player := by
  have bound : ∀ any : Server F, any.inView cell player = ((any.sessionByPlayer player).bind Session.cell).any
      fun other => decide (other.chebyshevDistance cell ≤ (any.cfg.aoiRadiusI32 : Int)) := by
    intro any
    unfold inView
    cases any.sessionByPlayer player with
    | none => rfl
    | some session => cases here : session.cell <;> simp [here]
  rw [bound, bound, cell_of_keeps keeps, keeps.cfg]

theorem selection_of_keeps (keeps : KeepsIndex server after) (selfPid : UInt64) (cell : World.Cell) :
    after.snapshotSelection selfPid cell = server.snapshotSelection selfPid cell := by
  unfold snapshotSelection playerCandidatesAfter
  rw [keeps.order, funext (inView_of_keeps keeps cell)]

end Readers
end SailwindOnline.SessionIndex
