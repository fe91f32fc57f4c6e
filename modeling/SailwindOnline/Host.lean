import Mathlib.Order.Defs.LinearOrder
import Mathlib.Order.Basic
import SailwindOnline.FiniteMap
import SailwindOnline.WireProtocol

/-!
The poll-driven UDP host. A poll expires reconnect watermarks, drains the
socket within its packet and byte budgets, and then scans a window of peer
slots for timeouts and keepalives. The socket is a script of what `peek_from`
and `recv_from` return; an exhausted script would block. Datagrams handed to
`send_to` are recorded, their loss being invisible to the host.

An `expect` that fails and an index out of bounds stop a call with a `Panic`.
Instants and durations count nanoseconds.
-/

namespace SailwindOnline
open WireProtocol

inductive IpAddr where
  | v4 (octets : UInt32)
  | v6 (octets : BitVec 128)
deriving DecidableEq, Repr

/-- Every IPv4 address is ordered before every IPv6 address. -/
def IpAddr.rank : IpAddr → Nat
  | .v4 octets => octets.toNat
  | .v6 octets => 2 ^ 32 + octets.toNat

theorem IpAddr.rank_injective : Function.Injective IpAddr.rank := by
  intro left right same
  cases left <;> cases right <;> simp only [rank] at same
  · rw [UInt32.toNat_inj.mp same]
  · rename_i narrow wide
    have bound := narrow.toNat_lt
    omega
  · rename_i wide narrow
    have bound := narrow.toNat_lt
    omega
  · rw [BitVec.eq_of_toNat_eq (Nat.add_left_cancel same)]

instance : LinearOrder IpAddr := LinearOrder.lift' IpAddr.rank IpAddr.rank_injective

inductive SocketAddr where
  | v4 (octets : UInt32) (port : UInt16)
  | v6 (octets : BitVec 128) (port : UInt16) (flowinfo scopeId : UInt32)
deriving DecidableEq, Repr

def SocketAddr.ip : SocketAddr → IpAddr
  | .v4 octets _ => .v4 octets
  | .v6 octets _ _ _ => .v6 octets

abbrev PeerId := Nat
abbrev Instant := Nat
abbrev Duration := Nat

def maxPollPackets : Nat := 128
def maxPollBytes : Nat := 256 * 1024
def maxPollTimeoutEvents : Nat := 64
def maxPollMaintenanceScans : Nat := 512
def maxPollKeepaliveSends : Nat := maxPollMaintenanceScans
def maxPollWatermarkCleanups : Nat := maxPollMaintenanceScans
def second : Duration := 1000000000
def defaultTimeout : Duration := 5 * second
def pingInterval : Duration := 1 * second

/-- The platform clock counts seconds in an `i64`. -/
def instantLimit : Nat := 2 ^ 63 * second

def checkedAddInstant (now : Instant) (duration : Duration) : Option Instant :=
  if now + duration < instantLimit then some (now + duration) else none

def peerIdTryFrom (value : Nat) : Option PeerId := if value < 2 ^ 32 then some value else none

def i32TryFrom (value : Nat) : Option Int32 := if value < 2 ^ 31 then some (Int32.ofNat value) else none

inductive DisconnectReason where
  | remote
  | timeout
  | shutdown
deriving DecidableEq, Repr

inductive Event where
  | connected (peer : PeerId)
  | data (peer : PeerId) (payload : Bytes)
  | disconnected (peer : PeerId) (reason : DisconnectReason)
deriving DecidableEq, Repr

def Event.peer : Event → PeerId
  | .connected peer | .data peer _ | .disconnected peer _ => peer

structure PollWork where
  packets : Nat := 0
  bytes : Nat := 0
  socketEvents : Nat := 0
  timeoutEvents : Nat := 0
  maintenanceScans : Nat := 0
  keepaliveSends : Nat := 0
  watermarkCleanups : Nat := 0
deriving DecidableEq, Repr

structure Peer where
  id : PeerId
  slot : Nat
  addr : SocketAddr
  connectTime : Int64
  connectionNumber : UInt8
  localPeerId : Int32
  lastRecv : Instant
  lastPingSent : Instant
  pingSeq : UInt16
  pingSentAt : Option Instant
  rtt : Option Duration
deriving DecidableEq

structure ReconnectWatermark where
  connectTime : Int64
  expiresAt : Instant
  generation : UInt64
deriving DecidableEq, Repr

/-- The limits a bound host carries have passed the checks of `bind_with_limits`. -/
structure PeerLimits where
  maxPeers : Nat
  maxPeersPerIp : Nat
  globalPositive : 0 < maxPeers
  globalNarrow : maxPeers ≤ 65535
  perIpPositive : 0 < maxPeersPerIp
  perIpWithin : maxPeersPerIp ≤ maxPeers

structure Host where
  peers : FiniteMap SocketAddr Peer
  peerSlots : List (Option SocketAddr)
  freePeerSlots : List Nat
  availableFreePeerSlots : Nat
  peersPerIp : FiniteMap IpAddr Nat
  reconnectWatermarks : FiniteMap SocketAddr ReconnectWatermark
  reconnectWatermarkOrder : List (SocketAddr × UInt64)
  nextReconnectWatermarkGeneration : UInt64
  maintenanceCursor : Nat
  connectKey : String
  timeout : Duration
  limits : PeerLimits

inductive Panic where
  | peerIdTooWide
  | localPeerIdTooWide
  | emptyWatermarkOrder
  | slotOutOfBounds
  | missingPeer
deriving DecidableEq, Repr

/-- Beside each event stands the address it was raised for; the source keeps the events alone.
`emptyRemovals` counts the calls of `remove_peer_at` that returned early. -/
structure PollState where
  host : Host
  events : List (Event × SocketAddr) := []
  sent : List (SocketAddr × Bytes) := []
  work : PollWork := {}
  emptyRemovals : Nat := 0

inductive Received where
  | datagram (data : Bytes) (addr : SocketAddr) (ticks : Int64)
  | wouldBlock
  | connectionReset
  | failed

/-- One turn of the drain loop: what `peek_from` returns and, after a peek, what `recv_from` does. -/
inductive SocketTurn where
  | peeked (size : Nat) (received : Received)
  | wouldBlock
  | connectionReset
  | failed

namespace Host

def bound (limits : PeerLimits) (connectKey : String) : Host :=
  { peers := FiniteMap.empty
    peerSlots := []
    freePeerSlots := []
    availableFreePeerSlots := 0
    peersPerIp := FiniteMap.empty
    reconnectWatermarks := FiniteMap.empty
    reconnectWatermarkOrder := []
    nextReconnectWatermarkGeneration := 0
    maintenanceCursor := 0
    connectKey
    timeout := defaultTimeout
    limits }

def bindWithLimits (connectKey : String) (maxPeers maxPeersPerIp : Nat) : Except String Host :=
  if admitted : 0 < maxPeers ∧ maxPeers ≤ 65535 ∧ 0 < maxPeersPerIp ∧ maxPeersPerIp ≤ maxPeers then
    .ok (bound ⟨maxPeers, maxPeersPerIp, admitted.1, admitted.2.1, admitted.2.2.1, admitted.2.2.2⟩
      connectKey)
  else
    .error ("peer limits must be nonzero, global must not exceed 65535, " ++
      "and per-IP must not exceed global")

def peerAddr (host : Host) (peer : PeerId) : Option SocketAddr :=
  if peer = 0 then none
  else
    match host.peerSlots[peer - 1]?.join with
    | none => none
    | some addr =>
      match host.peers.get? addr with
      | none => none
      | some connected => if connected.id = peer then some addr else none

def peerCount (host : Host) : Nat := host.peers.size

def insertPeer (host : Host) (peer : Peer) : Except Panic Host :=
  if peer.slot < host.peerSlots.length then
    .ok
      { host with
        peersPerIp := host.peersPerIp.insert peer.addr.ip ((host.peersPerIp.get? peer.addr.ip).getD 0 + 1)
        peers := host.peers.insert peer.addr peer
        peerSlots := host.peerSlots.set peer.slot (some peer.addr) }
  else .error .slotOutOfBounds

def allocatePeerSlot (host : Host) : Host × Option Nat :=
  if host.peerSlots.length < host.limits.maxPeers then
    ({ host with peerSlots := host.peerSlots ++ [none] }, some host.peerSlots.length)
  else if host.availableFreePeerSlots > 0 then
    ({ host with
        availableFreePeerSlots := host.availableFreePeerSlots - 1
        freePeerSlots := host.freePeerSlots.tail }, host.freePeerSlots.head?)
  else (host, none)

/-- The entry removed at the end is the one read at the start. -/
def removePeerAt (host : Host) (addr : SocketAddr) : Except Panic (Host × Option Peer) :=
  match host.peers.get? addr with
  | none => .ok (host, none)
  | some peer =>
    match host.peersPerIp.get? addr.ip with
    | none => .ok (host, none)
    | some count =>
      let peersPerIp :=
        if count > 1 then host.peersPerIp.insert addr.ip (count - 1) else host.peersPerIp.erase addr.ip
      if peer.slot < host.peerSlots.length then
        .ok
          ({ host with
              peersPerIp
              peers := host.peers.erase addr
              peerSlots := host.peerSlots.set peer.slot none
              freePeerSlots := host.freePeerSlots ++ [peer.slot] }, some peer)
      else .error .slotOutOfBounds

/-- The generation counter restarts, forgetting every watermark, before it would overflow. -/
def rolledGenerations (host : Host) : Host :=
  if host.nextReconnectWatermarkGeneration = UInt64.ofNat (2 ^ 64 - 1) then
    { host with
      reconnectWatermarks := FiniteMap.empty
      reconnectWatermarkOrder := []
      nextReconnectWatermarkGeneration := 0 }
  else host

def evictOldestWatermark (host : Host) : Except Panic Host :=
  if host.reconnectWatermarkOrder.length = host.limits.maxPeers then
    match host.reconnectWatermarkOrder with
    | [] => .error .emptyWatermarkOrder
    | (oldestAddr, oldestGeneration) :: rest =>
      let reconnectWatermarks :=
        match host.reconnectWatermarks.get? oldestAddr with
        | some watermark =>
          if watermark.generation = oldestGeneration then host.reconnectWatermarks.erase oldestAddr
          else host.reconnectWatermarks
        | none => host.reconnectWatermarks
      .ok { host with reconnectWatermarks, reconnectWatermarkOrder := rest }
  else .ok host

def recordReconnectWatermark (host : Host) (addr : SocketAddr) (connectTime : Int64) (now : Instant) :
    Except Panic Host :=
  let host := rolledGenerations host
  let generation := host.nextReconnectWatermarkGeneration + 1
  match evictOldestWatermark { host with nextReconnectWatermarkGeneration := generation } with
  | .error panic => .error panic
  | .ok host =>
    let expiresAt := (checkedAddInstant now host.timeout).getD now
    let watermark : ReconnectWatermark :=
      match host.reconnectWatermarks.get? addr with
      | some watermark =>
        { connectTime := if connectTime > watermark.connectTime then connectTime else watermark.connectTime
          expiresAt, generation }
      | none => { connectTime, expiresAt, generation }
    .ok
      { host with
        reconnectWatermarks := host.reconnectWatermarks.insert addr watermark
        reconnectWatermarkOrder := host.reconnectWatermarkOrder ++ [(addr, generation)] }

end Host

namespace PollState
open Host

def send (state : PollState) (addr : SocketAddr) (packet : Bytes) : PollState :=
  { state with sent := state.sent ++ [(addr, packet)] }

def raise (state : PollState) (event : Event) (addr : SocketAddr) : PollState :=
  { state with events := state.events ++ [(event, addr)] }

def setHost (state : PollState) (host : Host) : PollState := { state with host }

def modifyPeer (state : PollState) (addr : SocketAddr) (change : Peer → Peer) : PollState :=
  { state with host := { state.host with peers := state.host.peers.modify addr change } }

def removePeer (state : PollState) (addr : SocketAddr) : Except Panic (PollState × Option Peer) :=
  match state.host.removePeerAt addr with
  | .error panic => .error panic
  | .ok (host, none) => .ok ({ state with host, emptyRemovals := state.emptyRemovals + 1 }, none)
  | .ok (host, some peer) => .ok ({ state with host }, some peer)

-- `budget` is what the loop condition leaves of `MAX_POLL_WATERMARK_CLEANUPS`.
def expireReconnectWatermarks (now : Instant) : Nat → PollState → PollState
  | 0, state => state
  | budget + 1, state =>
    match state.host.reconnectWatermarkOrder with
    | [] => state
    | (addr, generation) :: rest =>
      let popped (reconnectWatermarks : FiniteMap SocketAddr ReconnectWatermark) : PollState :=
        { state with
          host := { state.host with reconnectWatermarks, reconnectWatermarkOrder := rest }
          work := { state.work with watermarkCleanups := state.work.watermarkCleanups + 1 } }
      match state.host.reconnectWatermarks.get? addr with
      | some watermark =>
        if watermark.generation = generation then
          if watermark.expiresAt > now then state
          else expireReconnectWatermarks now budget (popped (state.host.reconnectWatermarks.erase addr))
        else expireReconnectWatermarks now budget (popped state.host.reconnectWatermarks)
      | none => expireReconnectWatermarks now budget (popped state.host.reconnectWatermarks)

def newPeer (request : ConnectRequest) (addr : SocketAddr) (now : Instant) (id : PeerId) (slot : Nat)
    (localPeerId : Int32) : Peer :=
  { id, slot, addr
    connectTime := request.connectTime
    connectionNumber := request.connectionNumber
    localPeerId
    lastRecv := now
    lastPingSent := now
    pingSeq := 0
    pingSentAt := none
    rtt := none }

/-- The tail of `handle_connect_request`, once a slot is needed for the request. -/
def admitConnectRequest (request : ConnectRequest) (addr : SocketAddr) (now : Instant)
    (replacedExisting : Bool) (state : PollState) : Except Panic PollState :=
  match state.host.allocatePeerSlot with
  | (host, none) =>
    if replacedExisting then
      match host.recordReconnectWatermark addr request.connectTime now with
      | .error panic => .error panic
      | .ok host => .ok (state.setHost host)
    else .ok (state.setHost host)
  | (host, some slot) =>
    match peerIdTryFrom (slot + 1) with
    | none => .error .peerIdTooWide
    | some id =>
      match i32TryFrom slot with
      | none => .error .localPeerIdTooWide
      | some localPeerId =>
        let accept := buildConnectAccept request.connectTime request.connectionNumber localPeerId false
        match host.insertPeer (newPeer request addr now id slot localPeerId) with
        | .error panic => .error panic
        | .ok host =>
          .ok (((state.send addr accept).setHost
            { host with reconnectWatermarks := host.reconnectWatermarks.erase addr }).raise
            (.connected id) addr)

def precedesWatermark (host : Host) (addr : SocketAddr) (connectTime : Int64) : Bool :=
  match host.reconnectWatermarks.get? addr with
  | some watermark => decide (connectTime < watermark.connectTime)
  | none => false

def raiseWatermark (state : PollState) (addr : SocketAddr) (connectTime : Int64) : PollState :=
  state.setHost
    { state.host with
      reconnectWatermarks := state.host.reconnectWatermarks.modify addr fun watermark =>
        if connectTime > watermark.connectTime then { watermark with connectTime } else watermark }

def handleConnectRequest (data : Bytes) (addr : SocketAddr) (now : Instant) (state : PollState) :
    Except Panic PollState :=
  match parseConnectRequest data with
  | none => .ok state
  | some request =>
    if request.protocolId ≠ protocolId then
      .ok (state.send addr (buildControl Property.invalidProtocol))
    else if readLitenetString request.connectData ≠ some state.host.connectKey then .ok state
    else
      match state.host.peers.get? addr with
      | some existing =>
        if request.connectTime < existing.connectTime then .ok state
        else if existing.connectTime = request.connectTime then
          .ok (state.send addr (buildConnectAccept existing.connectTime existing.connectionNumber
            existing.localPeerId false))
        else
          match state.removePeer addr with
          | .error panic => .error panic
          | .ok (state, _) =>
            admitConnectRequest request addr now true
              (state.raise (.disconnected existing.id .remote) addr)
      | none =>
        if precedesWatermark state.host addr request.connectTime then .ok state
        else
          let state := state.raiseWatermark addr request.connectTime
          if state.host.peers.size ≥ state.host.limits.maxPeers ∨
              (state.host.peersPerIp.get? addr.ip).getD 0 ≥ state.host.limits.maxPeersPerIp then
            .ok state
          else admitConnectRequest request addr now false state

def handlePing (data : Bytes) (addr : SocketAddr) (ticks : Int64) (now : Instant)
    (state : PollState) : PollState :=
  match readSequence data with
  | none => state
  | some seq =>
    match state.host.peers.get? addr with
    | none => state
    | some peer =>
      (state.modifyPeer addr fun peer => { peer with lastRecv := now }).send peer.addr
        (buildPong peer.connectionNumber seq ticks)

/-- A pong for the last ping takes the recorded send time, so a repeated one measures nothing. -/
def handlePong (data : Bytes) (addr : SocketAddr) (now : Instant) (state : PollState) : PollState :=
  match readSequence data with
  | none => state
  | some seq =>
    state.modifyPeer addr fun peer =>
      match peer.pingSentAt with
      | some sentAt =>
        if seq = peer.pingSeq then
          { peer with lastRecv := now, pingSentAt := none, rtt := some (now - sentAt) }
        else { peer with lastRecv := now }
      | none => { peer with lastRecv := now }

def handleDisconnect (data : Bytes) (addr : SocketAddr) (state : PollState) : Except Panic PollState :=
  match readDisconnectTime data with
  | none => .ok state
  | some time =>
    match state.host.peers.get? addr with
    | none => .ok state
    | some peer =>
      if peer.connectTime ≠ time then .ok state
      else
        match (state.send addr (buildControl Property.shutdownOk)).removePeer addr with
        | .error panic => .error panic
        | .ok (state, _) => .ok (state.raise (.disconnected peer.id .remote) addr)

def handleUnreliable (data : Bytes) (addr : SocketAddr) (now : Instant) (state : PollState) : PollState :=
  match state.host.peers.get? addr with
  | none => state
  | some peer =>
    (state.modifyPeer addr fun peer => { peer with lastRecv := now }).raise
      (.data peer.id (data.drop headerSize)) addr

def dispatch (header : Header) (data : Bytes) (addr : SocketAddr) (ticks : Int64) (now : Instant)
    (state : PollState) : Except Panic PollState :=
  if header.property = Property.connectRequest then handleConnectRequest data addr now state
  else if header.property = Property.unreliable then .ok (handleUnreliable data addr now state)
  else if header.property = Property.ping then .ok (handlePing data addr ticks now state)
  else if header.property = Property.pong then .ok (handlePong data addr now state)
  else if header.property = Property.disconnect then handleDisconnect data addr state
  else .ok state

/-- Everything but a connect request must come from a live peer on its own connection number. -/
def fromSession (header : Header) (addr : SocketAddr) (host : Host) : Bool :=
  header.property == Property.connectRequest ||
    match host.peers.get? addr with
    | none => false
    | some peer => header.connectionNumber == peer.connectionNumber

def handleDatagram (data : Bytes) (addr : SocketAddr) (ticks : Int64) (now : Instant)
    (state : PollState) : Except Panic PollState :=
  match data with
  | [] => .ok state
  | first :: _ =>
    let header := Header.fromByte first
    if header.fragmented then .ok state
    else if fromSession header addr state.host then dispatch header data addr ticks now state
    else .ok state

def countPacket (state : PollState) (bytes : Nat) : PollState :=
  { state with
    work := { state.work with packets := state.work.packets + 1, bytes := state.work.bytes + bytes } }

def drainSocket (now : Instant) : List SocketTurn → PollState → Except Panic PollState
  | [], state => .ok state
  | turn :: rest, state =>
    if state.work.packets < maxPollPackets ∧ state.work.bytes < maxPollBytes then
      match turn with
      | .wouldBlock | .failed => .ok state
      | .connectionReset => drainSocket now rest (state.countPacket 0)
      | .peeked size received =>
        if size > maxPollBytes - state.work.bytes then .ok state
        else
          match received with
          | .wouldBlock | .failed => .ok state
          | .connectionReset => drainSocket now rest (state.countPacket 0)
          | .datagram data addr ticks =>
            let state := state.countPacket data.length
            if data.length > mtu then drainSocket now rest state
            else
              match handleDatagram data addr ticks now state with
              | .error panic => .error panic
              | .ok state => drainSocket now rest state
    else .ok state

def keepalive (addr : SocketAddr) (now : Instant) (state : PollState) : PollState :=
  if state.work.keepaliveSends ≥ maxPollKeepaliveSends then state
  else
    match state.host.peers.get? addr with
    | none => state
    | some peer =>
      if now - peer.lastPingSent < pingInterval then state
      else
        let state := state.modifyPeer addr fun peer =>
          { peer with pingSeq := peer.pingSeq + 1, lastPingSent := now, pingSentAt := some now }
        let state := state.send peer.addr (buildPing peer.connectionNumber (peer.pingSeq + 1))
        { state with work := { state.work with keepaliveSends := state.work.keepaliveSends + 1 } }

def expired (host : Host) (addr : SocketAddr) (now : Instant) : Bool :=
  match host.peers.get? addr with
  | none => false
  | some peer => decide (now - peer.lastRecv > host.timeout)

def maintainPeer (addr : SocketAddr) (now : Instant) (state : PollState) : Except Panic PollState :=
  if expired state.host addr now then
    if state.work.timeoutEvents < maxPollTimeoutEvents then
      match state.removePeer addr with
      | .error panic => .error panic
      | .ok (state, none) => .ok state
      | .ok (state, some peer) =>
        let state := state.raise (.disconnected peer.id .timeout) addr
        .ok { state with work := { state.work with timeoutEvents := state.work.timeoutEvents + 1 } }
    else .ok state
  else .ok (keepalive addr now state)

/-- The cursor wraps before it is read, then moves past the slot about to be inspected. -/
def nextSlot (slotCount : Nat) (state : PollState) : PollState × Nat :=
  let slot := if state.host.maintenanceCursor ≥ slotCount then 0 else state.host.maintenanceCursor
  ({ state with
      host := { state.host with maintenanceCursor := slot + 1 }
      work := { state.work with maintenanceScans := state.work.maintenanceScans + 1 } }, slot)

def scanSlots (now : Instant) (slotCount : Nat) : Nat → PollState → Except Panic PollState
  | 0, state => .ok state
  | scans + 1, state =>
    match nextSlot slotCount state with
    | (state, slot) =>
      match state.host.peerSlots[slot]? with
      | none => .error .slotOutOfBounds
      | some none => scanSlots now slotCount scans state
      | some (some addr) =>
        match maintainPeer addr now state with
        | .error panic => .error panic
        | .ok state => scanSlots now slotCount scans state

def processPeerMaintenance (now : Instant) (state : PollState) : Except Panic PollState :=
  let slotCount := state.host.peerSlots.length
  if slotCount = 0 then .ok (state.setHost { state.host with maintenanceCursor := 0 })
  else scanSlots now slotCount (min slotCount maxPollMaintenanceScans) state

end PollState

namespace Host
open PollState

/-- Every slot retired before this poll becomes eligible for reuse. -/
def startPoll (host : Host) : PollState :=
  { host := { host with availableFreePeerSlots := host.freePeerSlots.length } }

def pollWithWork (host : Host) (now : Instant) (script : List SocketTurn) : Except Panic PollState :=
  match drainSocket now script (expireReconnectWatermarks now maxPollWatermarkCleanups (startPoll host)) with
  | .error panic => .error panic
  | .ok state =>
    processPeerMaintenance now
      { state with work := { state.work with socketEvents := state.events.length } }

inductive SendError where
  | payloadExceedsMtu
  | socket
deriving DecidableEq, Repr

-- `delivered` is the socket's own verdict on `send_to`.
def sendUnreliable (host : Host) (peer : PeerId) (bytes : Bytes) (delivered : Bool) :
    Except Panic (Except SendError (Option (SocketAddr × Bytes))) :=
  if bytes.length > mtu - headerSize then .ok (.error .payloadExceedsMtu)
  else
    match host.peerAddr peer with
    | none => .ok (.ok none)
    | some addr =>
      match host.peers.get? addr with
      | none => .error .missingPeer
      | some connected =>
        if delivered then .ok (.ok (some (addr, buildUnreliable connected.connectionNumber bytes)))
        else .ok (.error .socket)

def disconnect (host : Host) (peer : PeerId) : Except Panic (Host × Option (SocketAddr × Bytes)) :=
  match host.peerAddr peer with
  | none => .ok (host, none)
  | some addr =>
    match host.removePeerAt addr with
    | .error panic => .error panic
    | .ok (host, none) => .ok (host, none)
    | .ok (host, some removed) =>
      .ok (host, some (removed.addr, buildDisconnect removed.connectionNumber removed.connectTime))

-- `order` is the order in which the hash map happens to yield its entries.
def shutdown (host : Host) (order : List SocketAddr) : PollState :=
  let leaving := order.filterMap host.peers.get?
  { host := { bound host.limits host.connectKey with timeout := host.timeout }
    events := leaving.map fun peer => (.disconnected peer.id .shutdown, peer.addr)
    sent := leaving.map fun peer => (peer.addr, buildDisconnect peer.connectionNumber peer.connectTime) }

end Host
end SailwindOnline
