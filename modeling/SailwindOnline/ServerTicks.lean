import SailwindOnline.Server

/-!
The fixed-tick work of the server: interest delivery and cell hydration,
snapshot broadcasting, chat and clock fanout, and the bounded flush of dirty
players. Each tick walks its recipients round robin under a fixed budget.
-/

namespace SailwindOnline
open World (Cell)
open OrderedSet Persistence

def aoiWorkItemsPerTick : Nat := 8
def aoiCellsPerUpdate : Nat := 32
def cellEntityScanPerWork : Nat := 8
def cellEntitiesPerPacket : Nat := 5
def cellMooringsPerPacket : Nat := 1
def snapshotEntityScanPerPacket : Nat := 1024
def fanoutRecipientScansPerTick : Nat := 1024
def fanoutSendsPerTick : Nat := 1024
def dirtyDbUpdatesPerTick : Nat := 8
def shutdownFlushAttempts : Nat := 3

def orderedPeersAfter (peers : Finset PeerId) (cursor : Option PeerId) (limit : Nat) : List PeerId :=
  orderedAfter peers cursor limit

section Snaps
variable {F : Type}

def playerSnap (session : Session F) : PlayerSnap F :=
  { playerId := session.playerId
    pos := session.pos
    rot := session.rot
    aboardBoat := session.aboardBoat
    tMs := session.tMs }

def boatSnap (session : Session F) : BoatSnap F :=
  { boatId := session.aboardBoat
    owner := session.playerId
    pos := session.pos
    rot := session.rot
    vel := session.vel
    tMs := session.tMs }

def mooringSnap (row : MooringRow F) : MooringSnap F :=
  { boatId := row.boatId.toUInt64
    owner := row.owner.toUInt64
    cell := (row.cellX, row.cellZ)
    pos := row.pos
    rot := row.rot
    name := row.name
    createdAt := row.createdAt.toUInt64 }

def playerSnaps (sessions : List (Session F)) : List (PlayerSnap F) := sessions.map playerSnap

def boatSnaps (sessions : List (Session F)) : List (BoatSnap F) :=
  (sessions.filter fun session => session.aboardBoat ≠ 0).map boatSnap

end Snaps

namespace Server
variable {F : Type} [Platform F]

def playerCandidatesAfter (server : Server F) (cursor : Option UInt64) (limit : Nat) : List UInt64 :=
  orderedAfter server.playerOrder cursor limit

def modifySession (server : Server F) (peer : PeerId) (change : Session F → Session F) : Server F :=
  { server with sessions := server.sessions.modify peer change }

/-! Snapshots. -/

-- `other` lies within the configured interest radius of `cell`.
def inView (server : Server F) (cell : Cell) (playerId : UInt64) : Bool :=
  match server.sessionByPlayer playerId with
  | none => false
  | some session =>
    match session.cell with
    | none => false
    | some other => decide (other.chebyshevDistance cell ≤ (server.cfg.aoiRadiusI32 : Int))

def snapshotSelection (server : Server F) (selfPid : UInt64) (cell : Cell) : List UInt64 :=
  (((server.playerCandidatesAfter (some selfPid) snapshotEntityScanPerPacket).filter
    fun playerId => playerId ≠ selfPid).filter (server.inView cell)).take snapshotVisibilityCeiling

/-- The part of the selection one packet advertises, and the cursor state it leaves. -/
structure SnapshotChunk where
  advertised : List UInt64
  cursor : Option UInt64
  remaining : Nat

def snapshotChunk (selected : List UInt64) (cursor : Option UInt64) (remaining : Nat) : SnapshotChunk :=
  let cursorPosition := cursor.bind fun cursor => selected.findIdx? (· = cursor)
  let remaining :=
    if remaining = 0 ∨ cursorPosition = none then selected.length else min remaining selected.length
  let start :=
    match cursorPosition with
    | none => 0
    | some position => (position + 1) % selected.length
  let emitCount := min remaining snapshotEntitiesPerPacket
  let advertised := (List.range emitCount).filterMap fun offset =>
    selected[(start + offset) % selected.length]?
  { advertised, cursor := advertised.getLast?, remaining := remaining - emitCount }

def nominalCadence (server : Server F) : UInt32 :=
  UInt32.ofNat (min server.cfg.ticksPerSnapshot (2 ^ 32 - 1))

def snapshotDue (server : Server F) (session : Session F) : Bool :=
  !(session.snapshotLastVisitTick ≠ 0 &&
    decide (server.snapshotTick - session.snapshotLastVisitTick < server.nominalCadence))

def sendSnapshot [Codec F] (server : Server F) (peer : PeerId) (sessions : List (Session F)) : Server F :=
  if sessions.isEmpty then server
  else
    (server.postBounded peer
      (.snapshotDelta server.snapshotTick (playerSnaps sessions) (boatSnaps sessions))).1

def visitedAt (tick : UInt32) (session : Session F) : Session F :=
  { session with snapshotLastVisitTick := tick }

def withSnapshotCursor (cursor : Option UInt64) (remaining : Nat) (session : Session F) : Session F :=
  { session with snapshotCursor := cursor, snapshotRemaining := remaining }

def visitSnapshotRecipient [Codec F] (server : Server F) (peer : PeerId) : Server F :=
  match server.sessions.get? peer with
  | none => server
  | some session =>
    match session.cell with
    | none => server
    | some cell =>
      if !server.snapshotDue session then server
      else
        let server := server.modifySession peer (visitedAt server.snapshotTick)
        let selected := server.snapshotSelection session.playerId cell
        if selected.isEmpty then server.modifySession peer (withSnapshotCursor none 0)
        else
          let chunk := snapshotChunk selected session.snapshotCursor session.snapshotRemaining
          let advertised := chunk.advertised.filterMap server.sessionByPlayer
          (server.modifySession peer (withSnapshotCursor chunk.cursor chunk.remaining)).sendSnapshot peer
            advertised

def broadcastSnapshots [Codec F] (server : Server F) : Server F :=
  let server := { server with snapshotTick := server.snapshotTick + 1 }
  let recipients :=
    orderedPeersAfter server.snapshotRecipients server.snapshotRecipientCursor snapshotPacketsPerTick
  let server := { server with
    snapshotRecipientCursor := recipients.getLast?.or server.snapshotRecipientCursor }
  recipients.foldl visitSnapshotRecipient server

/-! Interest updates and cell hydration. -/

structure AoiChunk where
  added : List Cell
  removed : List Cell

def aoiChunk (session : Session F) : AoiChunk :=
  let removed := (ascending (session.publishedCells \ session.sub.cells)).take aoiCellsPerUpdate
  let added := (ascending (session.sub.cells \ session.publishedCells)).take
    (aoiCellsPerUpdate - removed.length)
  { added, removed }

def applyAoiChunk (session : Session F) (chunk : AoiChunk) : Session F :=
  { session with
    publishedCells := (session.publishedCells \ chunk.removed.toFinset) ∪ chunk.added.toFinset
    hydrationCells := (session.hydrationCells \ chunk.removed.toFinset) ∪ chunk.added.toFinset
    activeHydration := session.activeHydration.filter fun active => active.cell ∉ chunk.removed }

def nextAoiChunk (server : Server F) (peer : PeerId) : Server F × Option AoiChunk :=
  match server.sessions.get? peer with
  | none => (server, none)
  | some session =>
    let chunk := aoiChunk session
    if chunk.added.isEmpty && chunk.removed.isEmpty then (server, none)
    else (server.modifySession peer fun session => applyAoiChunk session chunk, some chunk)

def nextHydrationCell (cells : Finset Cell) (cursor : Option Cell) : Option Cell :=
  let later := cursor.bind fun cursor => ((ascending cells).filter (cursor < ·)).head?
  later.or (ascending cells).head?

/-- A hydration whose cell left the interest or the published set is abandoned. -/
def standingHydration (session : Session F) : Option CellHydration :=
  session.activeHydration.filter fun active =>
    session.sub.contains active.cell && decide (active.cell ∈ session.publishedCells)

def prepareHydration (session : Session F) (activePlayers : Nat) : Session F × Option CellHydration :=
  match standingHydration session with
  | some active => ({ session with activeHydration := some active }, some active)
  | none =>
    match nextHydrationCell session.hydrationCells session.hydrationCursor with
    | none => ({ session with activeHydration := none }, none)
    | some cell =>
      let hydration : CellHydration :=
        { cell, playersRemaining := activePlayers, playersComplete := decide (activePlayers = 0) }
      ({ session with
          hydrationCells := session.hydrationCells.erase cell
          hydrationCursor := some cell
          activeHydration := some hydration }, some hydration)

def prepareCellHydration (server : Server F) (peer : PeerId) : Server F × Option CellHydration :=
  match server.sessions.get? peer with
  | none => (server, none)
  | some session =>
    let (prepared, hydration) := prepareHydration session server.playerOrder.card
    (server.modifySession peer fun _ => prepared, hydration)

def sessionHasAoiWork (server : Server F) (peer : PeerId) : Bool :=
  match server.sessions.get? peer with
  | none => false
  | some session =>
    decide (session.publishedCells ≠ session.sub.cells) || session.activeHydration.isSome ||
      decide (session.hydrationCells ≠ ∅)

def modifyHydration (server : Server F) (peer : PeerId) (change : CellHydration → CellHydration) :
    Server F :=
  server.modifySession peer fun session =>
    { session with activeHydration := session.activeHydration.map change }

/-- The scan stops once a packet is full; `examined` counts the players it looked at. -/
structure PlayerScan (F : Type) where
  found : List (Session F) := []
  examined : Nat := 0
  lastExamined : Option UInt64 := none

def scanPlayers (server : Server F) (cell : Cell) : List UInt64 → PlayerScan F → PlayerScan F
  | [], scan => scan
  | playerId :: rest, scan =>
    let scan := { scan with examined := scan.examined + 1, lastExamined := some playerId }
    match server.sessionByPlayer playerId with
    | none => scanPlayers server cell rest scan
    | some session =>
      if session.cell ≠ some cell then scanPlayers server cell rest scan
      else
        let scan := { scan with found := scan.found ++ [session] }
        if scan.found.length = cellEntitiesPerPacket then scan else scanPlayers server cell rest scan

def recordScan (hydration : CellHydration) (scan : PlayerScan F) : CellHydration :=
  let playersRemaining := hydration.playersRemaining - scan.examined
  { hydration with
    playerCursor := scan.lastExamined.or hydration.playerCursor
    playersRemaining
    playersComplete := hydration.playersComplete || decide (playersRemaining = 0 ∨ scan.examined = 0) }

def sendCellSnapshot [Codec F] (server : Server F) (peer : PeerId) (cell : Cell)
    (sessions : List (Session F)) (moorings : List (MooringSnap F)) : Server F :=
  match server.postBounded peer
      (.cellSnapshot cell (playerSnaps sessions) (boatSnaps sessions) moorings) with
  | (server, false) => server
  | (server, true) => server.modifyHydration peer fun hydration => { hydration with sentAny := true }

def hydratePlayers [Codec F] (server : Server F) (peer : PeerId) (hydration : CellHydration) :
    Server F × Bool :=
  let candidates := server.playerCandidatesAfter hydration.playerCursor
    (min hydration.playersRemaining cellEntityScanPerWork)
  let scan := scanPlayers server hydration.cell candidates {}
  let completed := decide (hydration.playersRemaining - scan.examined = 0 ∨ scan.examined = 0)
  let server := server.modifyHydration peer fun hydration => recordScan hydration scan
  let server :=
    if scan.found.isEmpty then server else server.sendCellSnapshot peer hydration.cell scan.found []
  (server, if completed then server.sessionHasAoiWork peer else true)

def completeHydration [Codec F] (server : Server F) (peer : PeerId) (hydration : CellHydration) :
    Server F × Bool :=
  let server :=
    if hydration.sentAny then server
    else (server.postBounded peer (.cellSnapshot hydration.cell [] [] [])).1
  let server := server.modifySession peer fun session => { session with activeHydration := none }
  (server, server.sessionHasAoiWork peer)

def hydrateMooring [Codec F] (server : Server F) (peer : PeerId) (hydration : CellHydration)
    (row : MooringRow F) : Server F :=
  let server := server.modifyHydration peer fun hydration =>
    { hydration with mooringCursor := some row.boatId }
  if row.name.utf8ByteSize ≤ maxMooringNameBytes then
    server.sendCellSnapshot peer hydration.cell [] [mooringSnap row]
  else server

/-- A failed page read leaves the hydration where it stands; the recipient is scheduled again. -/
def processOneAoiWork [Codec F] (server : Server F) (peer : PeerId) (fails : Bool) : Server F × Bool :=
  match server.nextAoiChunk peer with
  | (server, some chunk) =>
    let server := (server.postBounded peer (.aoiUpdate chunk.added chunk.removed)).1
    (server, server.sessionHasAoiWork peer)
  | (server, none) =>
    match server.prepareCellHydration peer with
    | (server, none) => (server, server.sessionHasAoiWork peer)
    | (server, some hydration) =>
      if !hydration.playersComplete then server.hydratePlayers peer hydration
      else
        match attempt fails (server.db.mooringsInCellAfter hydration.cell.cx hydration.cell.cz
            hydration.mooringCursor (min cellMooringsPerPacket maxMooringsPageRows)) with
        | .error _ => (server, true)
        | .ok [] => server.completeHydration peer hydration
        | .ok (row :: _) => (server.hydrateMooring peer hydration row, true)

def serveAoiRecipient [Codec F] (fails : PeerId → Bool) (server : Server F) (peer : PeerId) : Server F :=
  let server := { server with aoiRecipients := server.aoiRecipients.erase peer }
  if (server.sessions.get? peer).isNone then server
  else
    match server.processOneAoiWork peer (fails peer) with
    | (server, needsMore) => if needsMore then server.scheduleAoi peer else server

-- `fails peer` is the disk failing the page read made for that recipient.
def processAoiWork [Codec F] (server : Server F) (fails : PeerId → Bool) : Server F :=
  let recipients := orderedPeersAfter server.aoiRecipients server.aoiRecipientCursor aoiWorkItemsPerTick
  let server := { server with aoiRecipientCursor := recipients.getLast?.or server.aoiRecipientCursor }
  recipients.foldl (serveAoiRecipient fails) server

/-! Fanout. -/

def broadcastClock (server : Server F) (clockMs : Int64) : Server F :=
  let envelope : Envelope F :=
    { seq := server.seq + 1, payload := .worldClock (Platform.clockFromEpoch server.epochMs clockMs) }
  let server := { server with seq := server.seq + 1, clockFanout := none }
  match server.captureFanoutRecipients with
  | (server, none) => server
  | (server, some audience) =>
    { server with clockFanout := some { envelope, senderCell := none, audience } }

def shouldSend (server : Server F) (job : FanoutJob F) (recipient : FanoutRecipient) : Bool :=
  match server.sessions.get? recipient.peer with
  | none => false
  | some session =>
    session.generation == recipient.generation &&
      match job.senderCell with
      | none => true
      | some cell => session.sub.contains cell

structure FanoutBudget where
  scans : Nat
  sends : Nat

/-- Recipients of one job are examined in order until the job or a budget is spent. -/
def fanoutRecipients (server : Server F) (job : FanoutJob F) :
    List FanoutRecipient → FanoutBudget → Server F × FanoutJob F × FanoutBudget
  | [], budget => (server, job, budget)
  | recipient :: rest, budget =>
    if budget.scans = 0 ∨ budget.sends = 0 then (server, job, budget)
    else
      let job := { job with nextRecipient := job.nextRecipient + 1 }
      let budget := { budget with scans := budget.scans - 1 }
      if server.shouldSend job recipient then
        let server := { server with sent := server.sent ++ [(recipient.peer, job.envelope)] }
        fanoutRecipients server job rest { budget with sends := budget.sends - 1 }
      else fanoutRecipients server job rest budget

def takeFanoutJob (server : Server F) (fromClock : Bool) : Server F × Option (FanoutJob F) :=
  if fromClock then ({ server with clockFanout := none }, server.clockFanout)
  else ({ server with chatFanout := server.chatFanout.tail }, server.chatFanout.head?)

def finishFanoutJob [Codec F] (server : Server F) (fromClock : Bool) (job : FanoutJob F) : Server F :=
  if fromClock then { server with fanoutPreferClock := false }
  else
    { server with
      chatFanoutBytes := server.chatFanoutBytes - encodedLength job.envelope
      fanoutPreferClock := true }

def returnFanoutJob (server : Server F) (fromClock : Bool) (job : FanoutJob F) : Server F :=
  if fromClock then { server with clockFanout := some job }
  else { server with chatFanout := job :: server.chatFanout }

-- `turns` bounds the jobs one call can take up: each turn ends one job or the call.
def fanoutTurns [Codec F] : Nat → Server F → FanoutBudget → Server F
  | 0, server, _ => server
  | turns + 1, server, budget =>
    if budget.scans = 0 ∨ budget.sends = 0 then server
    else
      let fromClock := server.clockFanout.isSome && (server.fanoutPreferClock || server.chatFanout.isEmpty)
      match server.takeFanoutJob fromClock with
      | (server, none) =>
        if server.clockFanout.isNone && server.chatFanout.isEmpty then server
        else fanoutTurns turns { server with fanoutPreferClock := !server.fanoutPreferClock } budget
      | (server, some job) =>
        match server.fanoutRecipients job (job.audience.recipients.drop job.nextRecipient) budget with
        | (server, job, budget) =>
          if job.nextRecipient = job.audience.recipients.length then
            fanoutTurns turns (server.finishFanoutJob fromClock job) budget
          else server.returnFanoutJob fromClock job

def processFanoutWorkWithBudget [Codec F] (server : Server F) (recipientScanBudget sendBudget : Nat) :
    Server F :=
  fanoutTurns (server.chatFanout.length + 3) server { scans := recipientScanBudget, sends := sendBudget }

def processFanoutWork [Codec F] (server : Server F) : Server F :=
  server.processFanoutWorkWithBudget fanoutRecipientScansPerTick fanoutSendsPerTick

/-! Dirty flush. -/

def beginDirtyFlush (server : Server F) : Server F :=
  { server with
    flushPaused := false
    flushPlayers := server.flushPlayers ∪ server.dirtyPlayers
    dirtyPlayers := ∅ }

def settleFlushed (server : Server F) (playerId : UInt64) : Server F :=
  let stillDirty := decide (playerId ∈ server.dirtyPlayers)
  match server.playerPeers.get? playerId with
  | none => server
  | some peer =>
    server.modifySession peer fun session =>
      if session.playerId = playerId then { session with dirty := stillDirty } else session

def flushEach (fails : UInt64 → Bool) (now : Int64) : List UInt64 → Server F → Handled F
  | [], server => (server, .ok ())
  | playerId :: rest, server =>
    match attempt (fails playerId) (.ok (server.db.touchLastSeen playerId.toInt64 now)) with
    | .error failure => ({ server with flushPaused := true }, .error (.db failure))
    | .ok db =>
      flushEach fails now rest
        (({ server with db, flushPlayers := server.flushPlayers.erase playerId }).settleFlushed playerId)

-- `fails player` is the disk failing the touch of that player's row.
def processDirtyFlushAt (server : Server F) (fails : UInt64 → Bool) (now : Int64) : Handled F :=
  if server.flushPaused then (server, .ok ())
  else flushEach fails now ((ascending server.flushPlayers).take dirtyDbUpdatesPerTick) server

/-! The flush at shutdown. -/

structure ShutdownError where
  failed : Nat
  lastError : Option DbError

def ShutdownError.text (describe : DbError → String) (error : ShutdownError) : String :=
  let failed := error.failed
  let cause := (error.lastError.map describe).getD "unknown persistence failure"
  s!"shutdown persistence failed for {failed} player(s) after {shutdownFlushAttempts} attempts: {cause}"

structure ShutdownFlush (F : Type) [Platform F] where
  server : Server F
  pending : Finset UInt64
  lastError : Option DbError := none

/-- A failed touch is noted and the pass goes on. -/
def shutdownTouch (fails : UInt64 → Bool) (now : Int64) (flush : ShutdownFlush F) (playerId : UInt64) :
    ShutdownFlush F :=
  match attempt (fails playerId) (.ok (flush.server.db.touchLastSeen playerId.toInt64 now)) with
  | .error failure => { flush with lastError := some failure }
  | .ok db =>
    { flush with
      pending := flush.pending.erase playerId
      server :=
        ({ flush.server with
          db
          flushPlayers := flush.server.flushPlayers.erase playerId
          dirtyPlayers := flush.server.dirtyPlayers.erase playerId }).settleFlushed playerId }

-- `fails attempt player` is the disk failing that player's touch, `attempt` passes before the last.
def shutdownAttempts (fails : Nat → UInt64 → Bool) (now : Int64) :
    Nat → ShutdownFlush F → Server F × Except ShutdownError Unit
  | 0, flush => (flush.server, .error { failed := flush.pending.card, lastError := flush.lastError })
  | attempts + 1, flush =>
    if flush.pending = ∅ then (flush.server, .ok ())
    else
      shutdownAttempts fails now attempts
        ((ascending flush.pending).foldl (shutdownTouch (fails attempts) now) flush)

def sessionPlayers (server : Server F) : Finset UInt64 :=
  ((ascending server.sessions.keys).filterMap fun peer =>
    (server.sessions.get? peer).map Session.playerId).toFinset

def flushAll (server : Server F) (fails : Nat → UInt64 → Bool) (now : Int64) :
    Server F × Except ShutdownError Unit :=
  let pending := server.sessionPlayers ∪ server.dirtyPlayers ∪ server.flushPlayers
  shutdownAttempts fails now shutdownFlushAttempts
    { server := { server with flushPlayers := server.flushPlayers ∪ pending }, pending }

end Server
end SailwindOnline
