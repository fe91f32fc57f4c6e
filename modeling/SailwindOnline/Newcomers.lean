import SailwindOnline.FlushQueue

/-!
Newcomers. A client that calls from an address the transport does not know gets
the next peer id, and a hello of an identity without a row opens a session
whenever its gates are open; a crew of any size boards one client at a time.
-/

namespace SailwindOnline.Newcomers
open MachineInt Server SessionIndex SessionRuns HostIndex HostPoll Effects Traces PlayerTable Persistence FlushQueue
open WireProtocol PollState

/-! The transport. -/
section Boarding

def boardingRequest : Bytes := buildConnectRequest 0 7 0 16 (writeLitenetString connectKey)

/-- A client connects and sends one message. -/
def boardingScript (addr : SocketAddr) (message : Bytes) : List SocketTurn :=
  [.peeked boardingRequest.length (.datagram boardingRequest addr 0),
    .peeked (0 :: message).length (.datagram (0 :: message) addr 0)]

/-- A host at its first instant that has never lost a peer. -/
structure Untroubled (host : Host) : Prop where
  key : host.connectKey = connectKey
  unmarked : host.reconnectWatermarks = FiniteMap.empty
  unqueued : host.reconnectWatermarkOrder = []
  recent : ∀ addr peer, host.peers.get? addr = some peer → peer.lastRecv = 0 ∧ peer.lastPingSent = 0

variable {host : Host} {addr : SocketAddr} {message : Bytes}

def boardingPeer (addr : SocketAddr) (slot : Nat) : Peer :=
  { id := slot + 1, slot, addr
    connectTime := 7
    connectionNumber := 0
    localPeerId := Int32.ofNat slot
    lastRecv := 0
    lastPingSent := 0
    pingSeq := 0
    pingSentAt := none
    rtt := none }

def boarded (host : Host) (addr : SocketAddr) : Host :=
  { host with
    peersPerIp := host.peersPerIp.insert addr.ip ((host.peersPerIp.get? addr.ip).getD 0 + 1)
    peers := host.peers.insert addr (boardingPeer addr host.peerSlots.length)
    peerSlots := (host.peerSlots ++ [none]).set host.peerSlots.length (some addr)
    reconnectWatermarks := (host.reconnectWatermarks.erase addr) }

theorem boardingRequest_parsed : (parseConnectRequest boardingRequest).map (fun request =>
    (request.connectionNumber, request.protocolId, request.connectTime, readLitenetString request.connectData)) =
      some (0, protocolId, 7, some connectKey) := by
  decide +kernel

/-- The poll once it has accepted the client. -/
def accepted (state : PollState) (addr : SocketAddr) : PollState :=
  { state with
    host := boarded state.host addr
    events := state.events ++ [(.connected (state.host.peerSlots.length + 1), addr)]
    sent := state.sent ++ [(addr, buildConnectAccept 7 0 (Int32.ofNat state.host.peerSlots.length) false)] }

theorem connect_boards {state : PollState} (indexed : Indexed state.host) (untroubled : Untroubled state.host)
    (fresh : state.host.peers.get? addr = none) (alone : state.host.peersPerIp.get? addr.ip = none)
    (room : state.host.peerSlots.length < state.host.limits.maxPeers) :
    handleDatagram boardingRequest addr 0 0 state = .ok (accepted state addr) := by
  obtain ⟨request, parsed, fields⟩ := Option.map_eq_some_iff.mp boardingRequest_parsed
  simp only [Prod.mk.injEq] at fields
  obtain ⟨number, protocol, time, key⟩ := fields
  have crowd : state.host.peers.size < state.host.limits.maxPeers := by
    have balance := indexed.balance
    omega
  have narrow := state.host.limits.globalNarrow
  have positive := state.host.limits.perIpPositive
  have wide : state.host.peerSlots.length + 1 < 2 ^ 32 ∧ state.host.peerSlots.length < 2 ^ 31 := by omega
  have unmarked : state.host.reconnectWatermarks.modify addr (fun watermark =>
      if (7 : Int64) > watermark.connectTime then { watermark with connectTime := 7 } else watermark) =
      state.host.reconnectWatermarks := by
    simp [untroubled.unmarked, FiniteMap.modify]
  have admitted : admitConnectRequest request addr 0 false state = .ok (accepted state addr) := by
    unfold admitConnectRequest Host.allocatePeerSlot
    simp only [room, if_true, peerIdTryFrom, wide.1, i32TryFrom, wide.2, Host.insertPeer, newPeer,
      List.length_append, List.length_singleton, Nat.lt_succ_self, number, time]
    rfl
  have opening : handleDatagram boardingRequest addr 0 0 state =
      handleConnectRequest boardingRequest addr 0 state := rfl
  rw [opening]
  unfold handleConnectRequest
  have late : precedesWatermark state.host addr 7 = false := by
    simp [precedesWatermark, untroubled.unmarked]
  have calm : state.raiseWatermark addr 7 = state := by
    unfold raiseWatermark
    rw [unmarked]
    rfl
  have roomy : ¬ (state.host.peers.size ≥ state.host.limits.maxPeers ∨
      (state.host.peersPerIp.get? addr.ip).getD 0 ≥ state.host.limits.maxPeersPerIp) := by
    rw [alone, Option.getD_none]
    omega
  rw [parsed]
  simp only [protocol, key, untroubled.key, fresh, time, late, calm, roomy, ne_eq, not_true_eq_false, if_false,
    Bool.false_eq_true]
  exact admitted

theorem message_raised {state : PollState} {slot : Nat}
    (present : state.host.peers.get? addr = some (boardingPeer addr slot)) :
    handleDatagram (0 :: message) addr 0 0 state = .ok (state.raise (.data (slot + 1) message) addr) := by
  have unread : state.modifyPeer addr (fun peer => { peer with lastRecv := 0 }) = state := by
    have same : state.host.peers.modify addr (fun peer => { peer with lastRecv := 0 }) = state.host.peers := by
      ext1 other
      rw [FiniteMap.get?_modify]
      split <;> rename_i here
      · rw [here, present]
        rfl
      · rfl
    unfold modifyPeer
    rw [same]
  have opening : handleDatagram (0 :: message) addr 0 0 state =
      if fromSession (Header.fromByte 0) addr state.host then
        .ok (handleUnreliable (0 :: message) addr 0 state)
      else .ok state := rfl
  have own : fromSession (Header.fromByte 0) addr state.host = true := by
    unfold fromSession
    rw [present]
    rfl
  rw [opening, own]
  unfold handleUnreliable
  rw [present]
  simp only [unread, if_true]
  rfl

/-- At the first instant no peer is silent for long and none is due a ping. -/
theorem maintainPeer_idle {state : PollState} (untroubled : Untroubled state.host) (addr : SocketAddr) :
    maintainPeer addr 0 state = .ok state := by
  unfold maintainPeer expired keepalive
  cases found : state.host.peers.get? addr with
  | none => simp
  | some peer =>
      obtain ⟨heard, pinged⟩ := untroubled.recent addr peer found
      simp [heard, pinged, pingInterval, second]

theorem Untroubled.withCursor (untroubled : Untroubled host) (maintenanceCursor : Nat) :
    Untroubled { host with maintenanceCursor } :=
  ⟨untroubled.key, untroubled.unmarked, untroubled.unqueued, untroubled.recent⟩

theorem scanSlots_idle {slotCount : Nat} (some_slots : 0 < slotCount) (scans : Nat) (state : PollState)
    (untroubled : Untroubled state.host) (counted : state.host.peerSlots.length = slotCount) :
    ∃ maintenanceCursor work, scanSlots 0 slotCount scans state =
      .ok { state with host := { state.host with maintenanceCursor }, work } := by
  induction scans generalizing state with
  | zero => exact ⟨state.host.maintenanceCursor, state.work, rfl⟩
  | succ scans ih =>
      have inside : (nextSlot slotCount state).2 < (nextSlot slotCount state).1.host.peerSlots.length := by
        simp only [nextSlot, counted]
        split <;> omega
      have still := untroubled.withCursor (nextSlot slotCount state).1.host.maintenanceCursor
      obtain ⟨maintenanceCursor, work, done⟩ := ih (nextSlot slotCount state).1 still counted
      refine ⟨maintenanceCursor, work, ?_⟩
      unfold scanSlots
      simp only [List.getElem?_eq_getElem inside]
      split <;> rename_i looked
      · cases looked
      · exact done
      · rw [maintainPeer_idle still]
        exact done

theorem processPeerMaintenance_idle {state : PollState} (untroubled : Untroubled state.host)
    (some_slots : 0 < state.host.peerSlots.length) :
    ∃ maintenanceCursor work, processPeerMaintenance 0 state =
      .ok { state with host := { state.host with maintenanceCursor }, work } := by
  unfold processPeerMaintenance
  simp only [Nat.ne_of_gt some_slots, if_false]
  exact scanSlots_idle some_slots _ state untroubled rfl

theorem Untroubled.startPoll (untroubled : Untroubled host) : Untroubled host.startPoll.host :=
  ⟨untroubled.key, untroubled.unmarked, untroubled.unqueued, untroubled.recent⟩

theorem Untroubled.boarded (untroubled : Untroubled host) (addr : SocketAddr) :
    Untroubled (boarded host addr) := by
  refine ⟨untroubled.key, ?_, untroubled.unqueued, ?_⟩
  · ext1 other
    simp [Newcomers.boarded, untroubled.unmarked, FiniteMap.get?_erase]
  · intro other peer found
    simp only [Newcomers.boarded, FiniteMap.get?_insert] at found
    split at found
    · cases found
      exact ⟨rfl, rfl⟩
    · exact untroubled.recent other peer found

theorem boardingRequest_length : boardingRequest.length = 51 := by decide +kernel

theorem drainSocket_turn {state next : PollState} {data : Bytes} (rest : List SocketTurn)
    (packets : state.work.packets < maxPollPackets) (bytes : state.work.bytes + data.length < maxPollBytes)
    (short : data.length ≤ mtu)
    (handled : handleDatagram data addr 0 0 (state.countPacket data.length) = .ok next) :
    drainSocket 0 (.peeked data.length (.datagram data addr 0) :: rest) state = drainSocket 0 rest next := by
  have budget : state.work.packets < maxPollPackets ∧ state.work.bytes < maxPollBytes := ⟨packets, by omega⟩
  rw [drainSocket, if_pos budget]
  simp only
  rw [if_neg (by omega), if_neg (by omega), handled]

theorem drainSocket_boards {state : PollState} (indexed : Indexed state.host) (untroubled : Untroubled state.host)
    (fresh : state.host.peers.get? addr = none) (alone : state.host.peersPerIp.get? addr.ip = none)
    (room : state.host.peerSlots.length < state.host.limits.maxPeers) (idle : state.work = {})
    (short : message.length < mtu) :
    drainSocket 0 (boardingScript addr message) state = .ok
      (((accepted (state.countPacket boardingRequest.length) addr).countPacket (0 :: message).length).raise
        (.data (state.host.peerSlots.length + 1) message) addr) := by
  have first := @connect_boards addr (state.countPacket boardingRequest.length) indexed untroubled fresh alone room
  have present : ((accepted (state.countPacket boardingRequest.length) addr).countPacket
      (0 :: message).length).host.peers.get? addr = some (boardingPeer addr state.host.peerSlots.length) := by
    simp [accepted, boarded, countPacket]
  have length := boardingRequest_length
  unfold boardingScript
  rw [drainSocket_turn _ (by rw [idle]; decide) (by rw [idle, length]; decide) (by rw [length]; decide) first,
    drainSocket_turn _ ?_ ?_ ?_ (message_raised present)]
  · rfl
  · simp [accepted, countPacket, idle, maxPollPackets]
  · simp only [accepted, countPacket, idle, length, List.length_cons, maxPollBytes, mtu] at short ⊢
    omega
  · exact Nat.succ_le_of_lt short

/-- A client that calls from a new address is connected under the next peer id, and its message is
raised in the same poll. -/
theorem poll_boards (indexed : Indexed host) (untroubled : Untroubled host) (fresh : host.peers.get? addr = none)
    (alone : host.peersPerIp.get? addr.ip = none) (room : host.peerSlots.length < host.limits.maxPeers)
    (short : message.length < mtu) :
    ∃ state maintenanceCursor, host.pollWithWork 0 (boardingScript addr message) = .ok state ∧
      state.host = { boarded host.startPoll.host addr with maintenanceCursor } ∧
      state.events.map Prod.fst =
        [.connected (host.peerSlots.length + 1), .data (host.peerSlots.length + 1) message] := by
  have expired : expireReconnectWatermarks 0 maxPollWatermarkCleanups host.startPoll = host.startPoll := by
    have queue : host.startPoll.host.reconnectWatermarkOrder = [] := untroubled.unqueued
    unfold maxPollWatermarkCleanups maxPollMaintenanceScans expireReconnectWatermarks
    rw [queue]
  have drained := drainSocket_boards (indexed_startPoll indexed) untroubled.startPoll fresh alone room rfl short
  obtain ⟨drained, done, host_eq, events_eq⟩ : ∃ drained,
      drainSocket 0 (boardingScript addr message) host.startPoll = .ok drained ∧
        drained.host = boarded host.startPoll.host addr ∧ drained.events.map Prod.fst =
          [.connected (host.peerSlots.length + 1), .data (host.peerSlots.length + 1) message] :=
    ⟨_, drained, rfl, rfl⟩
  have calm : Untroubled drained.host := host_eq ▸ untroubled.startPoll.boarded addr
  have slots : 0 < drained.host.peerSlots.length := by simp [host_eq, boarded]
  obtain ⟨maintenanceCursor, work, maintained⟩ := @processPeerMaintenance_idle
    { drained with work := { drained.work with socketEvents := drained.events.length } } calm slots
  have opening : host.pollWithWork 0 (boardingScript addr message) = processPeerMaintenance 0
      { drained with work := { drained.work with socketEvents := drained.events.length } } := by
    unfold Host.pollWithWork
    rw [expired, done]
  exact ⟨_, maintenanceCursor, opening.trans maintained,
    congrArg (fun host => { host with maintenanceCursor }) host_eq, events_eq⟩

/-- A message of a connected client is raised in the next poll. -/
theorem poll_hears {slot : Nat} (untroubled : Untroubled host)
    (present : host.peers.get? addr = some (boardingPeer addr slot)) (slots : 0 < host.peerSlots.length)
    (short : message.length < mtu) :
    ∃ state maintenanceCursor, host.pollWithWork 0
        [.peeked (0 :: message).length (.datagram (0 :: message) addr 0)] = .ok state ∧
      state.host = { host.startPoll.host with maintenanceCursor } ∧
      state.events.map Prod.fst = [.data (slot + 1) message] := by
  have expired : expireReconnectWatermarks 0 maxPollWatermarkCleanups host.startPoll = host.startPoll := by
    have queue : host.startPoll.host.reconnectWatermarkOrder = [] := untroubled.unqueued
    unfold maxPollWatermarkCleanups maxPollMaintenanceScans expireReconnectWatermarks
    rw [queue]
  have raised := @message_raised addr message (host.startPoll.countPacket (0 :: message).length) slot present
  have drained : drainSocket 0 [.peeked (0 :: message).length (.datagram (0 :: message) addr 0)] host.startPoll =
      .ok ((host.startPoll.countPacket (0 :: message).length).raise (.data (slot + 1) message) addr) := by
    have packets : host.startPoll.work.packets < maxPollPackets := (by decide : 0 < maxPollPackets)
    have bytes : host.startPoll.work.bytes + (0 :: message).length < maxPollBytes := by
      show 0 + (message.length + 1) < maxPollBytes
      simp only [mtu, maxPollBytes] at short ⊢
      omega
    have fits : (0 :: message).length ≤ mtu := Nat.succ_le_of_lt short
    rw [drainSocket_turn [] packets bytes fits raised]
    rfl
  obtain ⟨drained, done, host_eq, events_eq⟩ : ∃ drained,
      drainSocket 0 [.peeked (0 :: message).length (.datagram (0 :: message) addr 0)] host.startPoll = .ok drained ∧
        drained.host = host.startPoll.host ∧ drained.events.map Prod.fst = [.data (slot + 1) message] :=
    ⟨_, drained, rfl, rfl⟩
  obtain ⟨maintenanceCursor, work, maintained⟩ := @processPeerMaintenance_idle
    { drained with work := { drained.work with socketEvents := drained.events.length } }
    (host_eq ▸ untroubled.startPoll) (host_eq ▸ slots)
  have opening : host.pollWithWork 0 [.peeked (0 :: message).length (.datagram (0 :: message) addr 0)] =
      processPeerMaintenance 0
        { drained with work := { drained.work with socketEvents := drained.events.length } } := by
    unfold Host.pollWithWork
    rw [expired, done]
  exact ⟨_, maintenanceCursor, opening.trans maintained,
    congrArg (fun host => { host with maintenanceCursor }) host_eq, events_eq⟩

end Boarding

/-! Identities. -/
section Hashes

theorem digitChar_inj {left right : Nat} (small : left < 16) (other : right < 16)
    (same : Nat.digitChar left = Nat.digitChar right) : left = right := by
  have all : ∀ left < 16, ∀ right < 16, Nat.digitChar left = Nat.digitChar right → left = right := by decide
  exact all left small right other same

theorem hexDigits_mod {digits left right : Nat} (same : hexDigits digits left = hexDigits digits right) :
    left % 16 ^ digits = right % 16 ^ digits := by
  induction digits generalizing left right with
  | zero => simp [Nat.mod_one]
  | succ digits ih =>
      obtain ⟨front, back⟩ := List.append_inj' same rfl
      have low := digitChar_inj (Nat.mod_lt _ (by omega)) (Nat.mod_lt _ (by omega)) (List.cons.inj back).1
      have high := ih front
      rw [Nat.pow_succ', Nat.mod_mul, Nat.mod_mul, low, high]

/-- Two tokens share a hash only if their 64-bit digests collide. -/
theorem tokenHash_inj {left right : String} (same : tokenHash left = tokenHash right) :
    fnv1a left.toUTF8.toList = fnv1a right.toUTF8.toList := by
  have equal := hexDigits_mod (String.ofList_injective same)
  have bounds := (fnv1a left.toUTF8.toList).toNat_lt
  have others := (fnv1a right.toUTF8.toList).toNat_lt
  rw [Nat.mod_eq_of_lt (by omega), Nat.mod_eq_of_lt (by omega)] at equal
  exact UInt64.toNat_inj.mp equal

end Hashes

/-! A caller with the shortest strings. -/
section Caller

def loneAddr : SocketAddr := .v4 1 5000

def briefHello : ClientHello :=
  { protocolVersion := 1
    token := some "a"
    displayName := none
    apiSurfaceHash := some "a"
    gameBuild := none
    modVersion := none }

theorem validateHello_brief {maxLen : Nat} (positive : 1 ≤ maxLen) :
    validateHello maxLen briefHello = .ok ("a", "sailor") := by
  have fits : stringWithinLimit "a" maxLen = true := decide_eq_true (Nat.le_trans (by decide) positive)
  have filled : "a".isEmpty = false := by decide
  simp only [validateHello, validateHelloString, briefHello, fits, filled, Option.getD_some, Bool.and_false,
    Bool.false_and, Bool.false_eq_true, if_false, if_true]
  rfl

theorem wire_string_positive {F : Type} [Platform F] (cfg : ValidConfig F) : 1 ≤ cfg.maxWireStringLenUsize := by
  have passed := (requireAll_ok_iff cfg.checks).mp cfg.valid
  have filled : cfg.checks ≠ [] := by simp [Config.checks]
  have bounded : Config.within 1 cfg.maxWireStringLen.toNat maxWireStringLenCeiling = true :=
    passed _ (List.getLast_mem filled)
  simp only [Config.within, decide_eq_true_eq] at bounded
  exact le_min bounded.1 (bounded.1.trans bounded.2)

end Caller

/-! The hello. -/
section Greeting
variable {F : Type} [Platform F] {pending : List Event} {server : Server F} {moment : Moment} {peer : PeerId}
  {hello : ClientHello} {identityHash name : String} {ip : IpAddr} {id : Int64}

/-- A hello of an identity the tables do not know, with every gate open. -/
structure Newcomer (server : Server F) (moment : Moment) (peer : PeerId) (hello : ClientHello)
    (identityHash name : String) (ip : IpAddr) (id : Int64) : Prop where
  heard : (server.helloLimiter.allow (UInt64.ofNat peer) moment.admissionMs).2 = true
  version : hello.protocolVersion = protocolVersion
  gated : Gated server moment peer hello identityHash name ip
  stored : moment.fails 0 = false
  unlisted : server.identityPlayers.get? identityHash = none
  unknown : ¬ HasIdentity server.db identityHash
  room : server.db.players.length < server.cfg.maxPlayerRowsU32.toNat
  indexRoom : server.identityPlayers.size < maxPlayerRowsCeiling
  next : checkedAdd server.db.playerSequence 1 = some id
  nonnegative : ¬ id < 0

/-- The tables with the newcomer's row. -/
def enlisted (db : Db F) (moment : Moment) (identityHash name : String) (id : Int64) : Db F :=
  { db with
    players := db.players ++ [⟨id, name, identityHash, 0, moment.persistenceMs, moment.persistenceMs⟩]
    playerSequence := id }

theorem onHelloAt_newcomer (newcomer : Newcomer server moment peer hello identityHash name ip id) :
    server.onHelloAt moment peer hello =
      (enrolled server moment peer ip identityHash id.toUInt64
        (enlisted server.db moment identityHash name id)).joinPlayer moment peer id.toUInt64 identityHash name 0 := by
  obtain ⟨⟨token, read, hashed⟩, vacant, addr, located, source⟩ := newcomer.gated.presented
  have fresh := newcomer.gated.fresh
  have rested := newcomer.gated.rested
  have admitted : server.db.admitPlayerByToken identityHash name moment.persistenceMs
      server.cfg.maxPlayerRowsU32 = .ok (.admitted
        ⟨id, name, identityHash, 0, moment.persistenceMs, moment.persistenceMs⟩,
        enlisted server.db moment identityHash name id) := by
    unfold Db.admitPlayerByToken
    rw [(find_none_iff _ _).mpr newcomer.unknown]
    simp only [not_le.mpr newcomer.room, if_false, newcomer.next]
    rfl
  simp only [identityRested, newcomer.unlisted] at rested
  unfold onHelloAt
  simp only [newcomer.heard, newcomer.version, read, vacant, located, source, Bool.not_true, Bool.false_eq_true,
    if_false, ne_eq, not_true_eq_false]
  subst hashed
  unfold admitHello
  simp only [fresh, newcomer.unlisted, rested, Bool.not_true, Bool.false_eq_true, if_false]
  unfold admitPlayer
  simp only [newcomer.stored, attempt, Bool.false_eq_true, if_false, admitted, newcomer.nonnegative,
    not_le.mpr newcomer.indexRoom]
  simp only [enrolled, identityCharged, sourceCharged, helloCharged, newcomer.unlisted]

/-- What the hello of a newcomer leaves behind. -/
structure Welcomed (server : Server F) (moment : Moment) (peer : PeerId) (identityHash name : String)
    (ip : IpAddr) (id : Int64) (after : Server F) : Prop where
  cfg : after.cfg = server.cfg
  host : after.host = server.host
  db : after.db = enlisted server.db moment identityHash name id
  vacant : ∀ other, other ≠ peer → server.sessions.get? other = none → after.sessions.get? other = none
  identityPlayers : after.identityPlayers = server.identityPlayers.insert identityHash id.toUInt64
  helloLimiter : after.helloLimiter = (server.helloLimiter.allow (UInt64.ofNat peer) moment.admissionMs).1
  sourceSessionLimiter : after.sourceSessionLimiter = (server.sourceSessionLimiter.allow ip moment.admissionMs).1
  newSessionLimiter : after.newSessionLimiter = (server.newSessionLimiter.allow moment.admissionMs).1
  dirtyPlayers : after.dirtyPlayers = insert id.toUInt64 server.dirtyPlayers
  flushPlayers : after.flushPlayers = server.flushPlayers

/-- The newcomer takes nobody's session over. -/
theorem newcomer_joins (inv : Inv pending server)
    (newcomer : Newcomer server moment peer hello identityHash name ip id)
    (unowned : server.playerPeers.get? id.toUInt64 = none) :
    ∃ base numbered generation reply, base =
        { sourceCharged server moment peer ip with
          newSessionLimiter := (server.newSessionLimiter.allow moment.admissionMs).1
          db := enlisted server.db moment identityHash name id
          identityPlayers := server.identityPlayers.insert identityHash id.toUInt64
          reconnectLimiter := (server.reconnectLimiter.allow id.toUInt64 moment.admissionMs).1 } ∧
      Superseded base id.toUInt64 base ∧ Numbered (placedAtOrigin base id.toUInt64) numbered generation ∧
      (server.onHelloAt moment peer hello).1 =
        entered numbered peer (withGeneration generation (firstSession base id.toUInt64 identityHash name)) reply := by
  obtain ⟨addr, located, -⟩ := newcomer.gated.presented.located
  have ready : Inv pending (enrolled server moment peer ip identityHash id.toUInt64
      (enlisted server.db moment identityHash name id)) := enrolled_inv inv moment ip identityHash _ _
  have fields : enrolled server moment peer ip identityHash id.toUInt64
      (enlisted server.db moment identityHash name id) =
      { sourceCharged server moment peer ip with
        newSessionLimiter := (server.newSessionLimiter.allow moment.admissionMs).1
        db := enlisted server.db moment identityHash name id
        identityPlayers := server.identityPlayers.insert identityHash id.toUInt64
        reconnectLimiter := (server.reconnectLimiter.allow id.toUInt64 moment.admissionMs).1 } := by
    simp only [enrolled, identityCharged, newcomer.unlisted]
  rw [onHelloAt_newcomer newcomer]
  generalize enrolled server moment peer ip identityHash id.toUInt64
    (enlisted server.db moment identityHash name id) = base at fields ready ⊢
  have host : base.host = server.host := (congrArg Server.host fields :)
  have sessions : base.sessions = server.sessions := (congrArg Server.sessions fields :)
  have owners : base.playerPeers = server.playerPeers := (congrArg Server.playerPeers fields :)
  obtain ⟨middle, numbered, generation, reply, superseded, numbering, -, done⟩ := joinPlayer_effect ready
    (sessions ▸ newcomer.gated.presented.vacant) (by rw [host, located]; rfl) moment id.toUInt64 identityHash name 0
  cases superseded with
  | absent absent => exact ⟨base, numbered, generation, reply, fields, .absent absent, numbering, by rw [done]⟩
  | evicted owned found own addrs =>
      rw [owners, unowned] at owned
      cases owned

theorem newcomer_welcomed (inv : Inv pending server)
    (newcomer : Newcomer server moment peer hello identityHash name ip id)
    (unowned : server.playerPeers.get? id.toUInt64 = none) :
    Welcomed server moment peer identityHash name ip id (server.onHelloAt moment peer hello).1 := by
  obtain ⟨base, numbered, generation, reply, fields, superseded, numbering, done⟩ := newcomer_joins inv newcomer unowned
  have host : base.host = server.host := (congrArg Server.host fields :)
  have sessions : base.sessions = server.sessions := (congrArg Server.sessions fields :)
  rw [done]
  have frame := entered_frame peer (withGeneration generation (firstSession base id.toUInt64 identityHash name))
    reply superseded numbering
  have kept : numbered.host = base.host ∧ numbered.helloLimiter = base.helloLimiter := by
    cases numbering <;> exact ⟨rfl, rfl⟩
  refine ⟨?_, kept.1.trans host, ?_, ?_, ?_, ?_, ?_, ?_, ?_, ?_⟩
  · exact (congrArg Server.cfg frame :).trans (congrArg Server.cfg fields :)
  · exact (congrArg Server.db frame :).trans (congrArg Server.db fields :)
  · intro other apart vacant
    by_contra occupied
    obtain ⟨later, found⟩ := Option.ne_none_iff_exists'.mp occupied
    rcases entered_sessions peer _ reply superseded numbering found with ⟨same, -⟩ | ⟨-, old, held, -⟩
    · exact apart same
    · rw [sessions, vacant] at held
      cases held
  · exact (congrArg Server.identityPlayers frame :).trans (congrArg Server.identityPlayers fields :)
  · exact kept.2.trans (congrArg Server.helloLimiter fields :)
  · exact (congrArg Server.sourceSessionLimiter frame :).trans (congrArg Server.sourceSessionLimiter fields :)
  · exact (congrArg Server.newSessionLimiter frame :).trans (congrArg Server.newSessionLimiter fields :)
  · exact (entered_dirty peer _ reply superseded numbering).trans (by
      rw [show base.dirtyPlayers = server.dirtyPlayers from (congrArg Server.dirtyPlayers fields :)]
      rfl)
  · exact (congrArg Server.flushPlayers frame :).trans (congrArg Server.flushPlayers fields :)

theorem newcomer_seated (inv : Inv pending server)
    (newcomer : Newcomer server moment peer hello identityHash name ip id)
    (unowned : server.playerPeers.get? id.toUInt64 = none) :
    ∃ session, (server.onHelloAt moment peer hello).1.sessions.get? peer = some session ∧
      session.playerId = id.toUInt64 := by
  obtain ⟨base, numbered, generation, reply, -, -, -, done⟩ := newcomer_joins inv newcomer unowned
  rw [done]
  exact ⟨_, FiniteMap.get?_insert_self _ _ _, rfl⟩

/-! The hello of a player who has a row. -/

/-- A hello of an identity that the index and the tables know, with every gate open. -/
structure Returner (server : Server F) (moment : Moment) (peer : PeerId) (hello : ClientHello)
    (identityHash name : String) (ip : IpAddr) (row : PlayerRow) (db : Db F) : Prop where
  heard : (server.helloLimiter.allow (UInt64.ofNat peer) moment.admissionMs).2 = true
  version : hello.protocolVersion = protocolVersion
  gated : Gated server moment peer hello identityHash name ip
  stored : moment.fails 0 = false
  known : server.identityPlayers.get? identityHash = some row.id.toUInt64
  admitted : server.db.admitPlayerByToken identityHash name moment.persistenceMs server.cfg.maxPlayerRowsU32 =
    .ok (.admitted row, db)
  nonnegative : ¬ row.id < 0

theorem onHelloAt_returner {row : PlayerRow} {db : Db F}
    (returner : Returner server moment peer hello identityHash name ip row db) :
    server.onHelloAt moment peer hello =
      (enrolled server moment peer ip identityHash row.id.toUInt64 db).joinPlayer moment peer row.id.toUInt64
        identityHash name row.gold := by
  obtain ⟨⟨token, read, hashed⟩, vacant, addr, located, source⟩ := returner.gated.presented
  have fresh := returner.gated.fresh
  have rested := returner.gated.rested
  simp only [identityRested, returner.known] at rested
  unfold onHelloAt
  simp only [returner.heard, returner.version, read, vacant, located, source, Bool.not_true, Bool.false_eq_true,
    if_false, ne_eq, not_true_eq_false]
  have known := returner.known
  have admitted := returner.admitted
  subst hashed
  unfold admitHello
  simp only [fresh, known, rested, Bool.not_true, Bool.false_eq_true, if_false]
  unfold admitPlayer
  simp only [returner.stored, attempt, Bool.false_eq_true, if_false, admitted, returner.nonnegative, ne_eq,
    not_true_eq_false]
  simp only [enrolled, identityCharged, sourceCharged, helloCharged, known]

/-- The returning player is told its id and its gold. -/
theorem returner_told (inv : Inv pending server) {row : PlayerRow} {db : Db F}
    (returner : Returner server moment peer hello identityHash name ip row db) :
    ∃ reply, Greets reply row.id.toUInt64 row.gold ∧ (server.onHelloAt moment peer hello).1.sent =
      server.sent ++ [(peer, { seq := server.seq + 1, payload := .serverHello reply })] := by
  obtain ⟨addr, located, -⟩ := returner.gated.presented.located
  have ready : Inv pending (enrolled server moment peer ip identityHash row.id.toUInt64 db) :=
    enrolled_inv inv moment ip identityHash _ _
  have fields : enrolled server moment peer ip identityHash row.id.toUInt64 db =
      { sourceCharged server moment peer ip with
        reconnectLimiter := (server.reconnectLimiter.allow row.id.toUInt64 moment.admissionMs).1
        db } := by
    simp only [enrolled, identityCharged, returner.known]
  rw [onHelloAt_returner returner]
  generalize enrolled server moment peer ip identityHash row.id.toUInt64 db = base at fields ready ⊢
  have host : base.host = server.host := (congrArg Server.host fields :)
  have sessions : base.sessions = server.sessions := (congrArg Server.sessions fields :)
  obtain ⟨middle, numbered, generation, reply, superseded, numbering, greets, done⟩ := joinPlayer_effect ready
    (sessions ▸ returner.gated.presented.vacant) (by rw [host, located]; rfl) moment row.id.toUInt64 identityHash
    name row.gold
  refine ⟨reply, greets, ?_⟩
  rw [done, entered_sent peer _ reply superseded numbering, (congrArg Server.sent fields :),
    (congrArg Server.seq fields :)]
  rfl

end Greeting
end SailwindOnline.Newcomers
