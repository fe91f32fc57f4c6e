import Mathlib.Algebra.Ring.Nat
import SailwindOnline.EconStore
import SailwindOnline.Messages
import SailwindOnline.RateLimiting

/-!
The authoritative server: its state and its message handlers. A handler returns
the server it leaves behind together with its result; an error is logged by the
caller and undoes nothing. Readings of the clocks and the disk failures of one
handler call are its `Moment`. Datagrams handed to the transport are recorded
in `sent`.
-/

namespace SailwindOnline
open World (Cell Subscription AoiUpdate)
open OrderedSet RateLimiting Persistence

def serverFeatures : List String := ["unreliable", "aoi", "econ", "market", "moorage", "chat"]

def chatQueueItems : Nat := 256
def payloadLimit : Nat := WireProtocol.mtu - WireProtocol.headerSize
def chatQueueBytes : Nat := chatQueueItems * payloadLimit
def fanoutQueueRecipients : Nat := (chatQueueItems + 1) * 1024
def maxMooringNameBytes : Nat := 835
def moorNameTooLongReason : String := "mooring name exceeds server limit"

structure CellHydration where
  cell : Cell
  playerCursor : Option UInt64 := none
  playersRemaining : Nat
  mooringCursor : Option Int64 := none
  playersComplete : Bool
  sentAny : Bool := false

structure FanoutRecipient where
  peer : PeerId
  generation : UInt64
deriving DecidableEq

/-- A captured audience is shared by reference; `tag` is the identity of the allocation. -/
structure Audience where
  tag : Nat
  recipients : List FanoutRecipient

structure FanoutJob (F : Type) where
  envelope : Envelope F
  senderCell : Option Cell
  audience : Audience
  nextRecipient : Nat := 0

structure Session (F : Type) where
  generation : UInt64
  playerId : UInt64
  identityHash : String
  displayName : String
  aboardBoat : UInt64
  pos : Vec3 F
  rot : Quat F
  vel : Vec3 F
  tMs : UInt32
  sub : Subscription
  cell : Option Cell
  dirty : Bool
  snapshotCursor : Option UInt64 := none
  snapshotRemaining : Nat := 0
  snapshotLastVisitTick : UInt32 := 0
  publishedCells : Finset Cell := ∅
  hydrationCells : Finset Cell := ∅
  hydrationCursor : Option Cell := none
  activeHydration : Option CellHydration := none

structure Server (F : Type) [Platform F] where
  cfg : ValidConfig F
  host : Host
  db : Db F
  world : World F
  sessions : FiniteMap PeerId (Session F)
  playerPeers : FiniteMap UInt64 PeerId
  playerOrder : Finset UInt64
  snapshotRecipients : Finset PeerId
  snapshotRecipientCursor : Option PeerId
  aoiRecipients : Finset PeerId
  aoiRecipientCursor : Option PeerId
  chatFanout : List (FanoutJob F)
  chatFanoutBytes : Nat
  clockFanout : Option (FanoutJob F)
  fanoutAudienceCache : Option Audience
  nextAudience : Nat
  fanoutPreferClock : Bool
  dirtyPlayers : Finset UInt64
  flushPlayers : Finset UInt64
  flushPaused : Bool
  identityPlayers : FiniteMap String UInt64
  nextSessionGeneration : UInt64
  seq : UInt32
  snapshotTick : UInt32
  epochMs : Int64
  weatherSeed : UInt64
  weatherEpochDay : UInt32
  helloLimiter : RateLimiter
  sourceSessionLimiter : BoundedRateLimiter IpAddr
  reconnectLimiter : BoundedRateLimiter UInt64
  newSessionLimiter : GlobalRateLimiter
  tradeLimiter : RateLimiter
  clientStateLimiter : RateLimiter
  chatLimiter : RateLimiter
  econLimiter : RateLimiter
  moorLimiter : RateLimiter
  sent : List (PeerId × Envelope F)

/-- What one handler call reads from outside; `fails n` is the disk failing its n-th operation. -/
structure Moment where
  admissionMs : Int64
  persistenceMs : Int64
  clockMs : Int64
  uptimeMs : UInt32
  fails : Nat → Bool

inductive ServerError where
  | db (failure : DbError)
  | negativePlayerId
  | identityIndexDisagrees
  | identityIndexFull
  | evictionFailed
  | peerOwnsSession
  | playerOwnsSession (peer : PeerId)
  | sessionCountExceedsLimit
  | generationExhausted
  | playersTableTooLarge (maxPlayers : Nat)
  | invalidIdentityHash
  | negativePersistedId
  | panic (panic : Panic)
deriving DecidableEq

/-- The text of every error the server itself makes; a database error keeps its own. -/
def ServerError.text : ServerError → Option String
  | .db _ | .panic _ => none
  | .negativePlayerId => some "admitted player id must be nonnegative"
  | .identityIndexDisagrees => some "persisted identity index disagrees with admitted player"
  | .identityIndexFull => some "persisted identity index reached its hard ceiling"
  | .evictionFailed => some "failed to evict superseded transport peer"
  | .peerOwnsSession => some "peer already owns a session"
  | .playerOwnsSession peer => some s!"player already owns session peer {peer}"
  | .sessionCountExceedsLimit => some "live session count exceeds configured transport limit"
  | .generationExhausted => some "session generation exhausted"
  | .playersTableTooLarge maxPlayers =>
    some s!"players table exceeds the hard identity ceiling of {maxPlayers}"
  | .invalidIdentityHash => some "persisted player identity hash has an invalid shape"
  | .negativePersistedId => some "persisted player id must be nonnegative"

abbrev Handled (F : Type) [Platform F] := Server F × Except ServerError Unit

def maxU64 : UInt64 := UInt64.ofNat (2 ^ 64 - 1)

namespace Server
variable {F : Type} [Platform F]

/-! Start of the server. -/

def isHexIdentity (hash : String) : Bool :=
  hash.utf8ByteSize == 16 && hash.toList.all fun c => c.isDigit || ('a' ≤ c && c ≤ 'f') || ('A' ≤ c && c ≤ 'F')

def identityEntry (row : String × Int64) : Except ServerError (String × UInt64) :=
  if !isHexIdentity row.1 then .error .invalidIdentityHash
  else if row.2 < 0 then .error .negativePersistedId
  else .ok (row.1, row.2.toUInt64)

def loadIdentityPlayersUpTo (db : Db F) (maxPlayers : Nat) :
    Except ServerError (FiniteMap String UInt64) := do
  let rows := db.playerIdentities (UInt32.ofNat (maxPlayers + 1))
  if rows.length > maxPlayers then throw (.playersTableTooLarge maxPlayers)
  let entries ← rows.mapM identityEntry
  return entries.foldl (fun index entry => index.insert entry.1 entry.2) FiniteMap.empty

def loadIdentityPlayers (db : Db F) : Except ServerError (FiniteMap String UInt64) :=
  loadIdentityPlayersUpTo db maxPlayerRowsCeiling

def connectKey : String := "sailwind-online"

def opened (cfg : ValidConfig F) (db : Db F) (identityPlayers : FiniteMap String UInt64)
    (epochMs : Int64) (weatherSeed : UInt64) : Server F :=
  { cfg, db
    host := Host.bound (ValidConfig.hostLimits cfg.toConfig) connectKey
    world := { grid := ⟨cfg.cellSizeM⟩ }
    sessions := FiniteMap.empty
    playerPeers := FiniteMap.empty
    playerOrder := ∅
    snapshotRecipients := ∅
    snapshotRecipientCursor := none
    aoiRecipients := ∅
    aoiRecipientCursor := none
    chatFanout := []
    chatFanoutBytes := 0
    clockFanout := none
    fanoutAudienceCache := none
    nextAudience := 0
    fanoutPreferClock := true
    dirtyPlayers := ∅
    flushPlayers := ∅
    flushPaused := false
    identityPlayers
    nextSessionGeneration := 0
    seq := 0
    snapshotTick := 0
    epochMs
    weatherSeed
    weatherEpochDay := (Platform.clockFromEpoch (F := F) epochMs epochMs).day
    helloLimiter := { minIntervalMs := cfg.helloMinIntervalMsI64 }
    sourceSessionLimiter :=
      { minIntervalMs := cfg.sourceSessionMinIntervalMsI64, maxKeys := cfg.maxTransportPeersUsize }
    reconnectLimiter :=
      { minIntervalMs := cfg.helloMinIntervalMsI64
        maxKeys := max identityPlayers.size cfg.maxPlayerRowsU32.toNat }
    newSessionLimiter := { minIntervalMs := cfg.newSessionMinIntervalMsI64 }
    tradeLimiter := { minIntervalMs := cfg.tradeMinIntervalMsI64 }
    clientStateLimiter := { minIntervalMs := cfg.clientStateMinIntervalMsI64 }
    chatLimiter := { minIntervalMs := cfg.chatMinIntervalMsI64 }
    econLimiter := { minIntervalMs := cfg.econMinIntervalMsI64 }
    moorLimiter := { minIntervalMs := cfg.moorMinIntervalMsI64 }
    sent := [] }

/-- The stored epoch and seed are read back from the `world` table; here they are given. -/
def new (cfg : ValidConfig F) (db : Db F) (epochMs : Int64) (weatherSeed : UInt64) :
    Except ServerError (Server F) :=
  (loadIdentityPlayers db).map fun identityPlayers => opened cfg db identityPlayers epochMs weatherSeed

/-! Sending. -/

/-- Take the next sequence number for `payload` and hand the datagram to the transport. The transport refuses one
that is beyond its payload, which the source only logs: `sent` lists what was handed over. -/
def post (server : Server F) (peer : PeerId) (payload : ServerMessage F) : Server F :=
  { server with
    seq := server.seq + 1
    sent := server.sent ++ [(peer, { seq := server.seq + 1, payload })] }

/-- A packet beyond the transport payload is dropped after it took its sequence number. -/
def postBounded [Codec F] (server : Server F) (peer : PeerId) (payload : ServerMessage F) :
    Server F × Bool :=
  if (Codec.encode ({ seq := server.seq + 1, payload } : Envelope F)).length > payloadLimit then
    ({ server with seq := server.seq + 1 }, false)
  else (server.post peer payload, true)

/-! Session lifecycle. -/

def sessionByPlayer (server : Server F) (playerId : UInt64) : Option (Session F) :=
  match server.playerPeers.get? playerId with
  | none => none
  | some peer =>
    match server.sessions.get? peer with
    | none => none
    | some session => if session.playerId = playerId then some session else none

def scheduleAoi (server : Server F) (peer : PeerId) : Server F :=
  if (server.sessions.get? peer).isSome then
    { server with aoiRecipients := insert peer server.aoiRecipients }
  else server

def emitAoi (server : Server F) (peer : PeerId) (aoi : AoiUpdate) : Server F :=
  if aoi.isEmpty then server else server.scheduleAoi peer

def invalidateFanoutJobs (server : Server F) : Server F :=
  { server with
    chatFanout := []
    chatFanoutBytes := 0
    clockFanout := none
    fanoutAudienceCache := none }

/-- Live sessions are numbered again from one, in ascending order of their peers. -/
def rekeyedSessions (sessions : FiniteMap PeerId (Session F)) : FiniteMap PeerId (Session F) :=
  (ascending sessions.keys).zipIdx.foldl
    (fun sessions entry => sessions.modify entry.1 fun session =>
      { session with generation := UInt64.ofNat (entry.2 + 1) }) sessions

def rekeyLiveSessionGenerations (server : Server F) : Handled F :=
  if server.sessions.size > server.cfg.maxTransportPeersUsize then (server, .error .sessionCountExceedsLimit)
  else
    let server := server.invalidateFanoutJobs
    ({ server with
        sessions := rekeyedSessions server.sessions
        nextSessionGeneration := UInt64.ofNat server.sessions.size }, .ok ())

def allocateSessionGeneration (server : Server F) : Server F × Except ServerError UInt64 :=
  let rekeyed : Handled F :=
    if server.nextSessionGeneration = maxU64 then server.rekeyLiveSessionGenerations else (server, .ok ())
  match rekeyed with
  | (server, .error failure) => (server, .error failure)
  | (server, .ok ()) =>
    if server.nextSessionGeneration = maxU64 then (server, .error .generationExhausted)
    else
      let generation := server.nextSessionGeneration + 1
      ({ server with nextSessionGeneration := generation }, .ok generation)

def insertSession (server : Server F) (peer : PeerId) (session : Session F) : Server F :=
  { server with
    sessions := server.sessions.insert peer session
    playerPeers := server.playerPeers.insert session.playerId peer
    playerOrder := insert session.playerId server.playerOrder
    snapshotRecipients := insert peer server.snapshotRecipients
    fanoutAudienceCache := none
    dirtyPlayers :=
      if session.dirty then insert session.playerId server.dirtyPlayers else server.dirtyPlayers }

def registerSession (server : Server F) (peer : PeerId) (session : Session F) : Handled F :=
  if (server.sessions.get? peer).isSome then (server, .error .peerOwnsSession)
  else
    match server.playerPeers.get? session.playerId with
    | some existing => (server, .error (.playerOwnsSession existing))
    | none =>
      match server.allocateSessionGeneration with
      | (server, .error failure) => (server, .error failure)
      | (server, .ok generation) =>
        ((server.insertSession peer { session with generation }).scheduleAoi peer, .ok ())

def unregisterSession (server : Server F) (peer : PeerId) : Server F × Option (Session F) :=
  match server.sessions.get? peer with
  | none => (server, none)
  | some session =>
    let owned := server.playerPeers.get? session.playerId = some peer
    ({ server with
        sessions := server.sessions.erase peer
        playerPeers := if owned then server.playerPeers.erase session.playerId else server.playerPeers
        playerOrder := if owned then server.playerOrder.erase session.playerId else server.playerOrder
        snapshotRecipients := server.snapshotRecipients.erase peer
        aoiRecipients := server.aoiRecipients.erase peer
        fanoutAudienceCache := none }, some session)

/-! Hello. -/

-- `tick_hz` and `snapshot_hz` fit their wire byte in every validated configuration.
def caps (server : Server F) : Caps F :=
  { tickHz := UInt8.ofNat server.cfg.tickHz.toNat
    snapshotHz := UInt8.ofNat server.cfg.snapshotHz.toNat
    aoiRadiusCells := UInt8.ofNat (min server.cfg.aoiRadiusCells.toNat maxU8)
    cellSizeM := server.world.grid.cellSizeM
    features := serverFeatures }

def helloReply (server : Server F) (moment : Moment) (accepted : Bool) (reason : String)
    (playerId : UInt64) (balanceGold : Int64) : ServerMessage F :=
  .serverHello
    { accepted, reason, playerId, balanceGold
      serverName := server.cfg.serverName
      capabilities := server.caps
      clock := Platform.clockFromEpoch server.epochMs moment.clockMs
      weatherSeed := server.weatherSeed
      weatherEpochDay := server.weatherEpochDay }

def sendAcceptedHello (server : Server F) (moment : Moment) (peer : PeerId) (playerId : UInt64)
    (balanceGold : Int64) : Server F :=
  server.post peer (server.helloReply moment true "" playerId balanceGold)

def rejectHello (server : Server F) (moment : Moment) (peer : PeerId) (reason : String) : Handled F :=
  (server.post peer (server.helloReply moment false reason 0 0), .ok ())

/-- The strings of a hello in the order they are checked; the token and the display name are kept. -/
def validateHello (maxLen : Nat) (hello : ClientHello) : Except String (String × String) := do
  let _ ← validateHelloString hello.apiSurfaceHash "API surface hash" true maxLen
  let token ← validateHelloString hello.token "token" true maxLen
  let displayName ← validateHelloString hello.displayName "display name" false maxLen
  let _ ← validateHelloString hello.gameBuild "game build" false maxLen
  let _ ← validateHelloString hello.modVersion "mod version" false maxLen
  return (token.getD "", displayName.getD "sailor")

def newSession (playerId : UInt64) (identityHash displayName : String) (sub : Subscription) (origin : Cell) :
    Session F :=
  { generation := 0
    playerId, identityHash, displayName
    aboardBoat := 0
    pos := (Platform.zero, Platform.zero, Platform.zero)
    rot := (Platform.zero, Platform.zero, Platform.zero, Platform.one)
    vel := (Platform.zero, Platform.zero, Platform.zero)
    tMs := 0
    sub
    cell := some origin
    dirty := true }

def openSession (server : Server F) (moment : Moment) (peer : PeerId) (playerId : UInt64)
    (identityHash name : String) (gold : Int64) : Handled F :=
  let origin := server.world.grid.cellOf Platform.zero Platform.zero
  let (sub, aoi) := ({ radius := server.cfg.aoiRadiusI32 } : Subscription).recenter origin
  let server := { server with world := server.world.placeInCell playerId origin }
  match server.registerSession peer (newSession playerId identityHash name sub origin) with
  | (server, .error failure) => (server, .error failure)
  | (server, .ok ()) => ((server.sendAcceptedHello moment peer playerId gold).emitAoi peer aoi, .ok ())

/-- A live transport peer is evicted before its session is dropped. -/
def evictTransport (server : Server F) (peer : PeerId) : Handled F :=
  match server.host.peerAddr peer with
  | none => (server, .ok ())
  | some _ =>
    match server.host.disconnect peer with
    | .error panic => (server, .error (.panic panic))
    | .ok (host, none) => ({ server with host }, .error .evictionFailed)
    | .ok (host, some _) => ({ server with host }, .ok ())

def supersede (server : Server F) (peer : PeerId) (playerId : UInt64) : Handled F :=
  match server.playerPeers.get? playerId with
  | none => (server, .ok ())
  | some prior =>
    if prior = peer then (server, .ok ())
    else
      match server.evictTransport prior with
      | (server, .error failure) => (server, .error failure)
      | (server, .ok ()) =>
        let server := (server.unregisterSession prior).1
        ({ server with helloLimiter := server.helloLimiter.clear (UInt64.ofNat prior) }, .ok ())

def joinPlayer (server : Server F) (moment : Moment) (peer : PeerId) (playerId : UInt64)
    (identityHash name : String) (gold : Int64) : Handled F :=
  match server.supersede peer playerId with
  | (server, .error failure) => (server, .error failure)
  | (server, .ok ()) => server.openSession moment peer playerId identityHash name gold

def admitPlayer (server : Server F) (moment : Moment) (peer : PeerId) (identityHash name : String)
    (known : Option UInt64) : Handled F :=
  match attempt (moment.fails 0)
      (server.db.admitPlayerByToken identityHash name moment.persistenceMs server.cfg.maxPlayerRowsU32) with
  | .error failure => (server, .error (.db failure))
  | .ok (.capacityReached, db) =>
    ({ server with db }).rejectHello moment peer "server player capacity reached"
  | .ok (.admitted player, db) =>
    let server := { server with db }
    if player.id < 0 then (server, .error .negativePlayerId)
    else
      let playerId := player.id.toUInt64
      match known with
      | some expected =>
        if playerId ≠ expected then (server, .error .identityIndexDisagrees)
        else server.joinPlayer moment peer playerId identityHash name player.gold
      | none =>
        if server.identityPlayers.size ≥ maxPlayerRowsCeiling then (server, .error .identityIndexFull)
        else
          let server :=
            { server with
              identityPlayers := server.identityPlayers.insert identityHash playerId
              reconnectLimiter := (server.reconnectLimiter.allow playerId moment.admissionMs).1 }
          server.joinPlayer moment peer playerId identityHash name player.gold

def admitHello (server : Server F) (moment : Moment) (peer : PeerId) (identityHash name : String)
    (sourceIp : IpAddr) : Handled F :=
  let (sourceSessionLimiter, fresh) := server.sourceSessionLimiter.allow sourceIp moment.admissionMs
  let server := { server with sourceSessionLimiter }
  if !fresh then server.rejectHello moment peer "server busy; retry"
  else
    match server.identityPlayers.get? identityHash with
    | some playerId =>
      let (reconnectLimiter, rested) := server.reconnectLimiter.allow playerId moment.admissionMs
      let server := { server with reconnectLimiter }
      if !rested then server.rejectHello moment peer "server busy; retry"
      else server.admitPlayer moment peer identityHash name (some playerId)
    | none =>
      let (newSessionLimiter, rested) := server.newSessionLimiter.allow moment.admissionMs
      let server := { server with newSessionLimiter }
      if !rested then server.rejectHello moment peer "server busy; retry"
      else server.admitPlayer moment peer identityHash name none

def repeatHello (server : Server F) (moment : Moment) (peer : PeerId) (session : Session F)
    (identityHash : String) : Handled F :=
  if session.identityHash ≠ identityHash then
    server.rejectHello moment peer "identity change requires a new connection"
  else
    match attempt (moment.fails 0) (.ok (server.db.playerBalance session.playerId.toInt64)) with
    | .error failure => (server, .error (.db failure))
    | .ok balance => (server.sendAcceptedHello moment peer session.playerId balance, .ok ())

def onHelloAt (server : Server F) (moment : Moment) (peer : PeerId) (hello : ClientHello) : Handled F :=
  let (helloLimiter, admitted) := server.helloLimiter.allow (UInt64.ofNat peer) moment.admissionMs
  let server := { server with helloLimiter }
  let version := hello.protocolVersion
  if !admitted then (server, .ok ())
  else if version ≠ protocolVersion then
    server.rejectHello moment peer
      s!"protocol version mismatch: client {version}, server {protocolVersion}"
  else
    match validateHello server.cfg.maxWireStringLenUsize hello with
    | .error reason => server.rejectHello moment peer reason
    | .ok (token, name) =>
      let identityHash := tokenHash token
      match server.sessions.get? peer with
      | some session => server.repeatHello moment peer session identityHash
      | none =>
        match server.host.peerAddr peer with
        | none => (server, .ok ())
        | some addr => server.admitHello moment peer identityHash name addr.ip

/-! Motion. -/

def movedSession (session : Session F) (motion : Motion F) (state : ClientState F) (sub : Subscription)
    (cell : Cell) : Session F :=
  { session with
    pos := motion.pos
    rot := motion.rot
    vel := motion.vel
    aboardBoat := state.aboardBoat
    tMs := state.tMs
    dirty := true
    sub
    cell := some cell }

def onClientState (server : Server F) (moment : Moment) (peer : PeerId) (state : ClientState F) : Server F :=
  match server.sessions.get? peer with
  | none => server
  | some session =>
    let (clientStateLimiter, admitted) :=
      server.clientStateLimiter.allow session.playerId moment.admissionMs
    let server := { server with clientStateLimiter }
    if !admitted then server
    else
      match sanitizeMotion (vec3Of state.pos) (quatOf state.rot) (vec3Of state.vel) with
      | none => server
      | some motion =>
        let world := server.world.place session.playerId motion.pos.1 motion.pos.2.2
        let cell := (world.cellOfEntity session.playerId).getD
          (world.grid.cellOf motion.pos.1 motion.pos.2.2)
        let (sub, aoi) := session.sub.recenter cell
        let server :=
          { server with
            world
            sessions := server.sessions.insert peer (movedSession session motion state sub cell)
            dirtyPlayers := insert session.playerId server.dirtyPlayers }
        server.emitAoi peer aoi

/-! Economy. -/

def storeFaults (moment : Moment) : EconStore.StoreFaults :=
  { lookup := moment.fails 1, read := moment.fails 2, commit := moment.fails 3 }

def applyEcon (server : Server F) (moment : Moment) (peer : PeerId) (playerId : UInt64)
    (txn : Ledger.Txn) : Handled F :=
  match EconStore.ledgerApply (storeFaults moment) moment.persistenceMs server.db playerId txn with
  | (.error failure, db) => ({ server with db }, .error (.db failure))
  | (.ok ack, db) => (({ server with db }).post peer (.ledgerAck ack), .ok ())

def onEcon (server : Server F) (moment : Moment) (peer : PeerId) (txn : EconTxn) : Handled F :=
  match server.sessions.get? peer with
  | none => (server, .ok ())
  | some session =>
    let note := txn.note.getD ""
    if !stringWithinLimit note server.cfg.maxWireStringLenUsize then (server, .ok ())
    else
      let request : Ledger.Txn := { txnId := txn.txnId, amountGold := txn.amountGold, kind := txn.kind, note }
      match attempt (moment.fails 0) (.ok (server.db.lookupTxn txn.txnId.toInt64)) with
      | .error failure => (server, .error (.db failure))
      | .ok (some _) => server.applyEcon moment peer session.playerId request
      | .ok none =>
        let (econLimiter, admitted) := server.econLimiter.allow session.playerId moment.admissionMs
        let server := { server with econLimiter }
        if admitted then server.applyEcon moment peer session.playerId request else (server, .ok ())

def rateLimitedAck (trade : Market.Trade) (state : Int64 × Int64) : Market.MarketAck :=
  { txnId := trade.txnId
    accepted := false
    portId := trade.portId
    itemId := trade.itemId
    stock := state.1
    price := state.2
    reason := "rate limited" }

def applyTrade (server : Server F) (moment : Moment) (peer : PeerId) (trade : Market.Trade) : Handled F :=
  match EconStore.marketApply (storeFaults moment) moment.persistenceMs server.db trade with
  | (.error failure, db) => ({ server with db }, .error (.db failure))
  | (.ok ack, db) => (({ server with db }).post peer (.marketStateAck ack), .ok ())

def throttleTrade (server : Server F) (moment : Moment) (peer : PeerId) (trade : Market.Trade) : Handled F :=
  match attempt (moment.fails 1) (.ok (server.db.marketState trade.portId trade.itemId)) with
  | .error failure => (server, .error (.db failure))
  | .ok state => (server.post peer (.marketStateAck (rateLimitedAck trade (state.getD (0, 0)))), .ok ())

def tradeOf (request : MarketTradeRequest) : Market.Trade :=
  { txnId := request.txnId
    portId := request.portId
    itemId := request.itemId
    qty := request.qty
    unitPrice := request.unitPrice }

def onTrade (server : Server F) (moment : Moment) (peer : PeerId) (request : MarketTradeRequest) :
    Handled F :=
  match server.sessions.get? peer with
  | none => (server, .ok ())
  | some session =>
    let trade := tradeOf request
    match attempt (moment.fails 0) (server.db.lookupTrade trade.txnId) with
    | .error failure => (server, .error (.db failure))
    | .ok (some _) => server.applyTrade moment peer trade
    | .ok none =>
      let (tradeLimiter, admitted) := server.tradeLimiter.allow session.playerId moment.admissionMs
      let server := { server with tradeLimiter }
      if admitted then server.applyTrade moment peer trade else server.throttleTrade moment peer trade

/-! Moorage and chat. -/

def onMoor [Codec F] (server : Server F) (moment : Moment) (peer : PeerId) (request : MoorRequest F) :
    Handled F :=
  match server.sessions.get? peer with
  | none => (server, .ok ())
  | some session =>
    let owner := session.playerId
    let boatId := if session.aboardBoat ≠ 0 then session.aboardBoat else owner
    match sanitizeMotion (vec3Of request.pos) (quatOf request.rot)
        (Platform.zero, Platform.zero, Platform.zero) with
    | none => (server, .ok ())
    | some motion =>
      let name := request.name.getD "mooring"
      if !stringWithinLimit name (min server.cfg.maxWireStringLenUsize maxMooringNameBytes) then
        ((server.postBounded peer (.moorAck false none moorNameTooLongReason)).1, .ok ())
      else
        let (moorLimiter, admitted) := server.moorLimiter.allow owner moment.admissionMs
        let server := { server with moorLimiter }
        if !admitted then (server, .ok ())
        else
          let cell := server.world.grid.cellOf motion.pos.1 motion.pos.2.2
          let row : MooringRow F :=
            { boatId := boatId.toInt64
              owner := owner.toInt64
              cellX := cell.cx
              cellZ := cell.cz
              pos := motion.pos
              rot := motion.rot
              name
              createdAt := moment.persistenceMs }
          match attempt (moment.fails 0) (.ok (server.db.upsertMooring row)) with
          | .error failure => (server, .error (.db failure))
          | .ok db =>
            let snap : MooringSnap F :=
              { boatId, owner
                cell := (cell.cx, cell.cz)
                pos := motion.pos
                rot := motion.rot
                name
                createdAt := moment.persistenceMs.toUInt64 }
            (({ server with db }).post peer (.moorAck true (some snap) ""), .ok ())

/-- Audiences shared by several jobs are counted once. -/
def retainedAudiences (server : Server F) : List Audience :=
  (server.fanoutAudienceCache.toList ++ server.chatFanout.map FanoutJob.audience ++
    server.clockFanout.toList.map FanoutJob.audience)

def retainedFanoutAudienceEntries (server : Server F) : Nat :=
  let distinct := server.retainedAudiences.foldl (fun (seen : List Audience) audience =>
    if seen.any (fun known => known.tag = audience.tag) then seen else seen ++ [audience]) []
  (distinct.map fun audience => audience.recipients.length).sum

def currentRecipients (server : Server F) : List FanoutRecipient :=
  ((ascending server.snapshotRecipients).filterMap fun peer =>
    (server.sessions.get? peer).map fun session =>
      { peer, generation := session.generation }).take server.cfg.maxTransportPeersUsize

def captureFanoutRecipients (server : Server F) : Server F × Option Audience :=
  match server.fanoutAudienceCache with
  | some cached => (server, some cached)
  | none =>
    let recipients := server.currentRecipients
    if recipients.isEmpty ||
        decide (server.retainedFanoutAudienceEntries + recipients.length > fanoutQueueRecipients) then
      (server, none)
    else
      let audience : Audience := { tag := server.nextAudience, recipients }
      ({ server with fanoutAudienceCache := some audience, nextAudience := server.nextAudience + 1 },
        some audience)

def encodedLength [Codec F] (envelope : Envelope F) : Nat := (Codec.encode envelope).length

def queueChat [Codec F] (server : Server F) (envelope : Envelope F) (cell : Cell) : Server F :=
  if encodedLength envelope > payloadLimit then server
  else
    match server.captureFanoutRecipients with
    | (server, none) => server
    | (server, some audience) =>
      { server with
        chatFanoutBytes := server.chatFanoutBytes + encodedLength envelope
        chatFanout := server.chatFanout ++ [{ envelope, senderCell := some cell, audience }] }

def onChat [Codec F] (server : Server F) (moment : Moment) (peer : PeerId) (chat : ChatSend) : Server F :=
  match server.sessions.get? peer with
  | none => server
  | some session =>
    match session.cell with
    | none => server
    | some cell =>
      let text := chat.text.getD ""
      if !stringWithinLimit text server.cfg.maxWireStringLenUsize then server
      else if server.chatFanout.length ≥ chatQueueItems ∨
          server.chatFanoutBytes > chatQueueBytes - payloadLimit then server
      else
        let (chatLimiter, admitted) := server.chatLimiter.allow session.playerId moment.admissionMs
        let server := { server with chatLimiter }
        if !admitted then server
        else
          let envelope : Envelope F :=
            { seq := server.seq + 1
              payload := .chatBroadcast session.playerId session.displayName text chat.channel moment.uptimeMs }
          ({ server with seq := server.seq + 1 }).queueChat envelope cell

/-! Disconnects and dispatch. -/

def clearPlayerLimiters (server : Server F) (playerId : UInt64) : Server F :=
  { server with
    tradeLimiter := server.tradeLimiter.clear playerId
    clientStateLimiter := server.clientStateLimiter.clear playerId
    chatLimiter := server.chatLimiter.clear playerId
    econLimiter := server.econLimiter.clear playerId
    moorLimiter := server.moorLimiter.clear playerId }

/-- The player stays queued for persistence when its last touch fails. -/
def persistDeparture (server : Server F) (moment : Moment) (playerId : UInt64) : Handled F :=
  let server := { server with flushPlayers := insert playerId server.flushPlayers }
  match attempt (moment.fails 0) (.ok (server.db.touchLastSeen playerId.toInt64 moment.persistenceMs)) with
  | .error failure => ({ server with flushPaused := true }, .error (.db failure))
  | .ok db =>
    ({ server with
        db
        flushPlayers := server.flushPlayers.erase playerId
        dirtyPlayers := server.dirtyPlayers.erase playerId }, .ok ())

def onDisconnect (server : Server F) (moment : Moment) (peer : PeerId) : Handled F :=
  let server := { server with helloLimiter := server.helloLimiter.clear (UInt64.ofNat peer) }
  match server.unregisterSession peer with
  | (server, none) => (server, .ok ())
  | (server, some session) =>
    let server := { server with world := server.world.remove session.playerId }
    (server.clearPlayerLimiters session.playerId).persistDeparture moment session.playerId

def handleDataAt [Codec F] (server : Server F) (moment : Moment) (peer : PeerId)
    (bytes : WireProtocol.Bytes) : Handled F :=
  match Codec.decode (F := F) bytes with
  | none => (server, .ok ())
  | some (.hello hello) => server.onHelloAt moment peer hello
  | some (.state state) => (server.onClientState moment peer state, .ok ())
  | some (.econ txn) => server.onEcon moment peer txn
  | some (.trade request) => server.onTrade moment peer request
  | some (.moor request) => server.onMoor moment peer request
  | some (.chat chat) => (server.onChat moment peer chat, .ok ())

def handleEvent [Codec F] (server : Server F) (moment : Moment) : Event → Handled F
  | .connected _ => (server, .ok ())
  | .data peer bytes => server.handleDataAt moment peer bytes
  | .disconnected peer _ => server.onDisconnect moment peer

end Server
end SailwindOnline
