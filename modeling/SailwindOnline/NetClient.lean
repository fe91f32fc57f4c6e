import SailwindOnline.SnapshotCache

/-!
The client half of the wire contract: one peer slot over the networking
library, and the session state machine that the plugin's calls, the library's
events and the polled timers drive. The library with the stopwatch beside it is
a state of its own, changed by every call into it; it may be any other state
when the next call or event arrives.
-/

namespace SailwindOnline.Net
open WireProtocol (Bytes)
open Sync

/-- A peer object of the library, told apart by its identity. -/
abbrev NetPeer := Nat

/-- The library's manager and the monotonic clock. No peer is a null result of `connect`; no library is
the `TooBigPacketException` of `send`. -/
class Library (N : Type) where
  nowMs : N → Int
  isRunning : N → Bool
  start : N → Bool × N
  connect : N → String → Int → String → Option NetPeer × N
  disconnectPeerForce : N → NetPeer → N
  isConnected : N → NetPeer → Bool
  maxSinglePacketSize : N → NetPeer → Int
  send : N → NetPeer → Bytes → Option N
  stop : N → N

/-- The library may name no peer. -/
inductive NetEvent where
  | peerConnected (peer : Option NetPeer)
  | peerDisconnected (peer : Option NetPeer)
  | networkReceive (peer : Option NetPeer) (data : Bytes)
  | networkError

/-! The current peer. -/

structure CurrentPeerSlot (TPeer : Type) where
  value : Option TPeer

namespace CurrentPeerSlot
variable {TPeer : Type} [DecidableEq TPeer]

/-- A null peer leaves the slot; the answer is whether the slot is taken. -/
def setIfPresent (slot : CurrentPeerSlot TPeer) (peer : Option TPeer) : Bool × CurrentPeerSlot TPeer :=
  let slot := if peer.isSome then { value := peer } else slot
  (slot.value.isSome, slot)

def clear (slot : CurrentPeerSlot TPeer) : Option TPeer × CurrentPeerSlot TPeer :=
  (slot.value, { value := none })

/-- A null peer is current where there is none. -/
def isCurrent (slot : CurrentPeerSlot TPeer) (peer : Option TPeer) : Bool := slot.value == peer

def tryClear (slot : CurrentPeerSlot TPeer) (peer : Option TPeer) : Bool × CurrentPeerSlot TPeer :=
  if slot.isCurrent peer then (true, { value := none }) else (false, slot)

end CurrentPeerSlot

/-- `opened` keeps the peers the library has handed out, oldest first. -/
structure LiteNetLibTransport (N : Type) where
  manager : N
  peer : CurrentPeerSlot NetPeer
  opened : List NetPeer

namespace LiteNetLibTransport
variable {N : Type} [Library N]

def isRunning (transport : LiteNetLibTransport N) : Bool := Library.isRunning transport.manager

def isPeerConnected (transport : LiteNetLibTransport N) : Bool :=
  match transport.peer.value with
  | none => false
  | some peer => Library.isConnected transport.manager peer

def maxUnreliablePayloadSize (transport : LiteNetLibTransport N) : Int :=
  match transport.peer.value with
  | none => 0
  | some peer => Library.maxSinglePacketSize transport.manager peer

def start (transport : LiteNetLibTransport N) : Bool × LiteNetLibTransport N :=
  let (started, manager) := Library.start transport.manager
  (started, { transport with manager })

def connect (transport : LiteNetLibTransport N) (host : String) (port : Int) (key : String) :
    Bool × LiteNetLibTransport N :=
  let (peer, manager) := Library.connect transport.manager host port key
  let (present, slot) := transport.peer.setIfPresent peer
  (present, { manager, peer := slot, opened := transport.opened ++ peer.toList })

def dropPeer (transport : LiteNetLibTransport N) : LiteNetLibTransport N :=
  let (peer, slot) := transport.peer.clear
  match peer with
  | none => { transport with peer := slot }
  | some peer =>
    { transport with peer := slot, manager := Library.disconnectPeerForce transport.manager peer }

def send (transport : LiteNetLibTransport N) (data : Bytes) : Option (LiteNetLibTransport N) :=
  match transport.peer.value with
  | none => some transport
  | some peer =>
    match Library.send transport.manager peer data with
    | none => none
    | some manager => some { transport with manager }

def stop (transport : LiteNetLibTransport N) : LiteNetLibTransport N :=
  let manager := if transport.isRunning then Library.stop transport.manager else transport.manager
  { transport with manager, peer := transport.peer.clear.2 }

end LiteNetLibTransport

/-! What the client reads from a received envelope. -/

structure CapabilityManifest where
  protocolVersion : UInt16
  snapshotHz : UInt8

structure ServerHello (F : Type) where
  accepted : Bool
  playerId : UInt64
  capabilities : Option CapabilityManifest
  clock : Option (WorldClock F)

structure PlayerState (F : Type) where
  playerId : UInt64
  pos : Option (Vec3 F)
  rot : Option (Quat F)
  aboardBoat : UInt64
  tMs : UInt32

structure BoatState (F : Type) where
  boatId : UInt64
  owner : UInt64
  pos : Option (Vec3 F)
  rot : Option (Quat F)
  vel : Option (Vec3 F)
  tMs : UInt32

inductive Payload (F : Type) where
  | serverHello (hello : ServerHello F)
  | snapshotDelta (serverTick : UInt32) (players : List (PlayerState F)) (boats : List (BoatState F))
  | aoiUpdate
  | cellSnapshot (players : List (PlayerState F)) (boats : List (BoatState F))
  | worldClock (clock : WorldClock F)
  | unhandled

/-- The client's codec over the generated FlatBuffers code: no payload is a datagram that is not a
well-formed envelope. -/
class EnvelopeCodec (F : Type) where
  encode : UInt32 → ClientMessage F → Bytes
  tryDispatch : Bytes → Option (Payload F)

inductive ConnectionStatus where
  | disconnected
  | connecting
  | handshaking
  | ready
deriving DecidableEq

/-- `object` is the identity of the options object. -/
structure ConnectOptions where
  object : Nat
  host : String
  port : Int
  displayName : String
  token : String
  gameBuild : String
  modVersion : String
  apiSurfaceHash : String

structure BoatPose (F : Type) where
  position : Vec3 F
  rotation : Quat F
  velocity : Vec3 F

def protocolVersion : UInt16 := 1
def connectKey : String := "sailwind-online"
def helloRetryMs : Int := 250
def defaultReconnectMs : Int := 1000
def maxReconnectMs : Int := 8000

/-- A datagram handed to the library: the client's status, the peer and the time then. -/
structure Sent (F : Type) where
  status : ConnectionStatus
  peer : Option NetPeer
  atMs : Int
  seq : UInt32
  packet : ClientMessage F

/-- `sent` keeps the datagrams handed to the library, oldest first. -/
structure NetClient (F N : Type) where
  transport : LiteNetLibTransport N
  cache : SnapshotCache F
  options : Option ConnectOptions
  status : ConnectionStatus
  seq : UInt32
  lastHelloMs : Int
  nextReconnectMs : Int
  reconnectBackoffMs : Int
  snapshotHz : UInt8
  playerId : UInt64
  serverDay : UInt32
  serverTimeOfDay : F
  sent : List (Sent F)

section Client
variable {F N : Type} [Platform F] [Library N]

def toVec3 (value : Option (Vec3 F)) : Vec3 F := value.getD (Platform.zero, Platform.zero, Platform.zero)

def toQuat (value : Option (Quat F)) : Quat F :=
  value.getD (Platform.zero, Platform.zero, Platform.zero, Platform.one)

namespace NetClient

def new (manager : N) : NetClient F N :=
  { transport := { manager, peer := { value := none }, opened := [] }
    cache := .empty
    options := none
    status := .disconnected
    seq := 0
    lastHelloMs := 0
    nextReconnectMs := 0
    reconnectBackoffMs := defaultReconnectMs
    snapshotHz := 4
    playerId := 0
    serverDay := 0
    serverTimeOfDay := Platform.zero
    sent := [] }

def handshakeComplete (client : NetClient F N) : Bool := client.status == .ready

def nowMs (client : NetClient F N) : Int := Library.nowMs client.transport.manager

def scheduleReconnect (client : NetClient F N) : NetClient F N :=
  { client with
    nextReconnectMs := client.nowMs + client.reconnectBackoffMs
    reconnectBackoffMs := min (client.reconnectBackoffMs * 2) maxReconnectMs }

def nextSeq (client : NetClient F N) : NetClient F N := { client with seq := client.seq + 1 }

def resetSession (client : NetClient F N) : NetClient F N :=
  { client with
    cache := client.cache.clear
    seq := 0
    lastHelloMs := 0
    nextReconnectMs := 0
    snapshotHz := 4
    playerId := 0
    serverDay := 0
    serverTimeOfDay := Platform.zero }

def endHandshakeAttempt (client : NetClient F N) : NetClient F N :=
  let client := scheduleReconnect { client with status := .disconnected }
  { client with transport := client.transport.dropPeer }

/-! Sending. -/

section Sending
variable [EnvelopeCodec F]

def datagram (client : NetClient F N) (packet : ClientMessage F) : Sent F :=
  { status := client.status
    peer := client.transport.peer.value
    atMs := client.nowMs
    seq := client.seq
    packet }

/-- Sends the packet under the client's current sequence number. -/
def sendRaw (client : NetClient F N) (packet : ClientMessage F) : Bool × NetClient F N :=
  let bytes := EnvelopeCodec.encode client.seq packet
  let capacity := client.transport.maxUnreliablePayloadSize
  if !client.transport.isPeerConnected then (false, client)
  else if capacity ≤ 0 ∨ capacity < bytes.length then (false, client)
  else
    match client.transport.send bytes with
    | none => (false, client)
    | some transport =>
      (true, { client with transport, sent := client.sent ++ [client.datagram packet] })

def helloOf (options : ConnectOptions) : ClientHello :=
  { protocolVersion
    token := some options.token
    displayName := some options.displayName
    apiSurfaceHash := some options.apiSurfaceHash
    gameBuild := some options.gameBuild
    modVersion := some options.modVersion }

def sendHello (client : NetClient F N) : Bool × NetClient F N :=
  match client.options with
  | none => (false, client)
  | some options =>
    match client.nextSeq.sendRaw (.hello (helloOf options)) with
    | (false, client) => (false, client.endHandshakeAttempt)
    | (true, client) => (true, { client with lastHelloMs := client.nowMs })

def stateOf (pose : BoatPose F) (timestampMs : UInt32) : ClientState F :=
  { pos := some pose.position
    rot := some pose.rotation
    vel := some pose.velocity
    aboardBoat := 0
    tMs := timestampMs }

def sendClientState (client : NetClient F N) (pose : BoatPose F) : NetClient F N :=
  if !client.handshakeComplete then client
  else
    let timestampMs := UInt32.ofInt client.nowMs
    (client.nextSeq.sendRaw (.state (stateOf pose timestampMs))).2

end Sending

/-! Opening a peer. -/

def openPeer (client : NetClient F N) : NetClient F N :=
  match client.options with
  | none => client
  | some options =>
    if !client.transport.isRunning then scheduleReconnect { client with status := .disconnected }
    else
      let client := { client with cache := client.cache.clear }
      match client.transport.connect options.host options.port connectKey with
      | (false, transport) => scheduleReconnect { client with transport, status := .disconnected }
      | (true, transport) => { client with transport, status := .connecting }

def startTransportAndOpenPeer (client : NetClient F N) : NetClient F N :=
  if client.transport.isRunning then client.openPeer
  else
    match client.transport.start with
    | (false, transport) => scheduleReconnect { client with transport, status := .disconnected }
    | (true, transport) => openPeer { client with transport }

def connect (client : NetClient F N) (options : ConnectOptions) : NetClient F N :=
  if client.status = .connecting ∧ client.options.map (·.object) = some options.object then client
  else
    let client :=
      if client.status = .disconnected then client
      else { client with status := .disconnected, transport := client.transport.dropPeer }
    startTransportAndOpenPeer
      (resetSession { client with options := some options, reconnectBackoffMs := defaultReconnectMs })

def dispose (client : NetClient F N) : NetClient F N :=
  { client with transport := client.transport.stop, status := .disconnected }

/-! Received payloads. -/

def ingestPlayer (client : NetClient F N) (now : Int) (player : PlayerState F) : NetClient F N :=
  { client with
    cache := client.cache.upsertPlayer player.playerId
      { pos := toVec3 player.pos
        rot := toQuat player.rot
        vel := (Platform.zero, Platform.zero, Platform.zero)
        tMs := player.tMs
        receivedMs := now
        link := player.aboardBoat } }

def ingestBoat (client : NetClient F N) (now : Int) (boat : BoatState F) : NetClient F N :=
  { client with
    cache := client.cache.upsertBoat boat.boatId
      { pos := toVec3 boat.pos
        rot := toQuat boat.rot
        vel := toVec3 boat.vel
        tMs := boat.tMs
        receivedMs := now
        link := boat.owner } }

def ingest (client : NetClient F N) (players : List (PlayerState F)) (boats : List (BoatState F)) :
    NetClient F N :=
  let now := client.nowMs
  let client := players.foldl (fun client player => client.ingestPlayer now player) client
  boats.foldl (fun client boat => client.ingestBoat now boat) client

def onWorldClock (client : NetClient F N) (clock : WorldClock F) : NetClient F N :=
  { client with serverDay := clock.day, serverTimeOfDay := clock.timeOfDay }

def applyClock (client : NetClient F N) (clock : Option (WorldClock F)) : NetClient F N :=
  match clock with
  | none => client
  | some clock => client.onWorldClock clock

def onServerHello (client : NetClient F N) (hello : ServerHello F) : NetClient F N :=
  if client.status ≠ .handshaking then client
  else if !hello.accepted then client.endHandshakeAttempt
  else
    match hello.capabilities with
    | none => client.endHandshakeAttempt
    | some capabilities =>
      if capabilities.protocolVersion ≠ protocolVersion then client.endHandshakeAttempt
      else
        applyClock { client with
          status := .ready
          playerId := hello.playerId
          reconnectBackoffMs := defaultReconnectMs
          snapshotHz :=
            if 0 < capabilities.snapshotHz then capabilities.snapshotHz else client.snapshotHz } hello.clock

def onSnapshotDelta (client : NetClient F N) (serverTick : UInt32) (players : List (PlayerState F))
    (boats : List (BoatState F)) : NetClient F N :=
  ingest { client with cache := client.cache.observeServerTick serverTick } players boats

section Events
variable [EnvelopeCodec F]

def onNetworkReceive (client : NetClient F N) (data : Bytes) : NetClient F N :=
  match EnvelopeCodec.tryDispatch data with
  | none => client
  | some (.serverHello hello) => client.onServerHello hello
  | some (.snapshotDelta serverTick players boats) => client.onSnapshotDelta serverTick players boats
  | some .aoiUpdate => client
  | some (.cellSnapshot players boats) => client.ingest players boats
  | some (.worldClock clock) => client.onWorldClock clock
  | some .unhandled => client

def onPeerConnected (client : NetClient F N) : NetClient F N :=
  if client.status ≠ .connecting then client
  else (sendHello { client with status := .handshaking }).2

def onPeerDisconnected (client : NetClient F N) : NetClient F N :=
  scheduleReconnect { client with status := .disconnected, cache := client.cache.clear }

/-- The listener callbacks of the transport: an event of a peer that is not current goes no further. -/
def raise (client : NetClient F N) (event : NetEvent) : NetClient F N :=
  match event with
  | .peerConnected peer =>
    if client.transport.peer.isCurrent peer then client.onPeerConnected else client
  | .peerDisconnected peer =>
    match client.transport.peer.tryClear peer with
    | (false, _) => client
    | (true, slot) => onPeerDisconnected { client with transport := { client.transport with peer := slot } }
  | .networkReceive peer data =>
    if client.transport.peer.isCurrent peer then client.onNetworkReceive data else client
  | .networkError => client

/-- The part of `Poll` after the library's events. -/
def serviceTimers (client : NetClient F N) : NetClient F N :=
  let now := client.nowMs
  let client :=
    if client.status = .handshaking ∧ helloRetryMs ≤ now - client.lastHelloMs then client.sendHello.2
    else if client.status = .disconnected ∧ client.options.isSome ∧ client.nextReconnectMs ≤ now then
      client.startTransportAndOpenPeer
    else client
  { client with cache := client.cache.pruneStale now defaultStaleMs }

end Events

end NetClient

/-! A call of the plugin, with the library as it finds it. The events of a poll come from the library's
queue, each with the library as it is by then; `settled` is the library once they have been raised. -/

structure Occurrence (N : Type) where
  library : N
  event : NetEvent

inductive Call (F N : Type) where
  | connect (options : ConnectOptions)
  | poll (raised : List (Occurrence N)) (settled : N)
  | sendClientState (pose : BoatPose F)
  | dispose

structure Turn (F N : Type) where
  library : N
  call : Call F N

section Turns
variable [EnvelopeCodec F]

def NetClient.meets (client : NetClient F N) (library : N) : NetClient F N :=
  { client with transport := { client.transport with manager := library } }

def NetClient.pollEvents (client : NetClient F N) (raised : List (Occurrence N)) : NetClient F N :=
  raised.foldl (fun client occurrence => (client.meets occurrence.library).raise occurrence.event) client

def NetClient.poll (client : NetClient F N) (raised : List (Occurrence N)) (settled : N) : NetClient F N :=
  let client := if client.transport.isRunning then client.pollEvents raised else client
  (client.meets settled).serviceTimers

def NetClient.perform (client : NetClient F N) (turn : Turn F N) : NetClient F N :=
  let client := client.meets turn.library
  match turn.call with
  | .connect options => client.connect options
  | .poll raised settled => client.poll raised settled
  | .sendClientState pose => client.sendClientState pose
  | .dispose => client.dispose

def NetClient.performAll (client : NetClient F N) (turns : List (Turn F N)) : NetClient F N :=
  turns.foldl NetClient.perform client

end Turns

end Client

end SailwindOnline.Net
