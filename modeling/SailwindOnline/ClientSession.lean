import SailwindOnline.NetClient

/-!
Whole runs of the client. A run is the list of its steps: one for each call,
one for each event raised inside a poll and one for the timers the poll
services afterwards. The status and the peer slot stay in step, and the events
of abandoned attempts reach nothing.
-/

namespace SailwindOnline.ClientSession
open Net
open WireProtocol (Bytes)

section Session
variable {F N : Type} [Platform F] [Library N] [EnvelopeCodec F]

inductive Entry (F : Type) where
  | connect (options : ConnectOptions)
  | raise (event : NetEvent)
  | serviceTimers
  | sendClientState (pose : BoatPose F)
  | dispose

structure Moment (F N : Type) where
  library : N
  entry : Entry F

structure Step (F N : Type) where
  before : NetClient F N
  entry : Entry F
  after : NetClient F N

def enter (client : NetClient F N) : Entry F → NetClient F N
  | .connect options => client.connect options
  | .raise event => client.raise event
  | .serviceTimers => client.serviceTimers
  | .sendClientState pose => client.sendClientState pose
  | .dispose => client.dispose

def moments (turn : Turn F N) : List (Moment F N) :=
  match turn.call with
  | .connect options => [⟨turn.library, .connect options⟩]
  | .poll raised settled =>
    (if Library.isRunning turn.library then
      raised.map fun occurrence => ⟨occurrence.library, .raise occurrence.event⟩
    else []) ++ [⟨settled, .serviceTimers⟩]
  | .sendClientState pose => [⟨turn.library, .sendClientState pose⟩]
  | .dispose => [⟨turn.library, .dispose⟩]

def play (client : NetClient F N) (moments : List (Moment F N)) : NetClient F N :=
  moments.foldl (fun client moment => enter (client.meets moment.library) moment.entry) client

def stepsOf (client : NetClient F N) : List (Moment F N) → List (Step F N)
  | [] => []
  | moment :: rest =>
    let before := client.meets moment.library
    let after := enter before moment.entry
    ⟨before, moment.entry, after⟩ :: stepsOf after rest

/-- The steps of the calls, one after the other. -/
def steps (client : NetClient F N) (turns : List (Turn F N)) : List (Step F N) :=
  stepsOf client (turns.flatMap moments)

theorem play_append (client : NetClient F N) (early late : List (Moment F N)) :
    play client (early ++ late) = play (play client early) late := by
  simp [play]

theorem play_raised (client : NetClient F N) (raised : List (Occurrence N)) :
    play client (raised.map fun occurrence => ⟨occurrence.library, .raise occurrence.event⟩) =
      client.pollEvents raised := by
  simp only [play, NetClient.pollEvents, List.foldl_map, enter]

theorem pollEvents_meets (client : NetClient F N) (library settled : N) (raised : List (Occurrence N)) :
    ((client.meets library).pollEvents raised).meets settled = (client.pollEvents raised).meets settled := by
  cases raised with
  | nil => rfl
  | cons first rest => rfl

theorem perform_play (client : NetClient F N) (turn : Turn F N) :
    client.perform turn = play client (moments turn) := by
  obtain ⟨library, call⟩ := turn
  cases call with
  | connect options => rfl
  | sendClientState pose => rfl
  | dispose => rfl
  | poll raised settled =>
      have running : (client.meets library).transport.isRunning = Library.isRunning library := rfl
      simp only [NetClient.perform, NetClient.poll, moments, running]
      cases Library.isRunning library with
      | false => rfl
      | true =>
          simp only [if_true]
          rw [pollEvents_meets, play_append, play_raised]
          rfl

theorem performAll_play (client : NetClient F N) (turns : List (Turn F N)) :
    client.performAll turns = play client (turns.flatMap moments) := by
  induction turns generalizing client with
  | nil => rfl
  | cons turn rest ih =>
      rw [List.flatMap_cons, play_append, ← perform_play, ← ih]
      rfl

end Session

/-! The state the peer slot and the status keep together. -/
section Tameness
variable {F N : Type}

/-- The kinds of datagrams the client sends, each in its own status. -/
def Proper (sent : Sent F) : Prop :=
  match sent.packet with
  | .hello _ => sent.status = .handshaking
  | .state _ => sent.status = .ready
  | _ => False

structure Coherent (client : NetClient F N) : Prop where
  ended : client.status = .disconnected ↔ client.transport.peer.value = none
  newest : ∀ peer, client.transport.peer.value = some peer →
    client.transport.opened.getLast? = some peer

/-- What the server has told the client about itself. -/
def identityOf (client : NetClient F N) : UInt64 × UInt8 := (client.playerId, client.snapshotHz)

/-- A part of the client's work that opens peers and sends datagrams in order. -/
structure Tame (before after : NetClient F N) : Prop where
  opened : before.transport.opened <+: after.transport.opened
  sent : ∃ new, after.sent = before.sent ++ new ∧ ∀ packet ∈ new, Proper packet
  coherent : Coherent before → Coherent after

/-- Tame work that adopts nothing from the server. -/
structure Calm (before after : NetClient F N) : Prop extends Tame before after where
  ready : after.status = .ready → before.status = .ready
  identity : identityOf after = identityOf before

theorem Tame.refl (client : NetClient F N) : Tame client client where
  opened := List.prefix_refl _
  sent := ⟨[], by simp⟩
  coherent := id

theorem Tame.trans {first second third : NetClient F N} (left : Tame first second)
    (right : Tame second third) : Tame first third where
  opened := left.opened.trans right.opened
  sent := by
    obtain ⟨early, earlySent, earlyProper⟩ := left.sent
    obtain ⟨late, lateSent, lateProper⟩ := right.sent
    refine ⟨early ++ late, by rw [lateSent, earlySent, List.append_assoc], fun packet member => ?_⟩
    rcases List.mem_append.mp member with old | new
    · exact earlyProper packet old
    · exact lateProper packet new
  coherent := fun coherent => right.coherent (left.coherent coherent)

theorem Calm.refl (client : NetClient F N) : Calm client client where
  toTame := .refl client
  ready := id
  identity := rfl

theorem Calm.trans {first second third : NetClient F N} (left : Calm first second)
    (right : Calm second third) : Calm first third where
  toTame := left.toTame.trans right.toTame
  ready := fun ready => left.ready (right.ready ready)
  identity := right.identity.trans left.identity

/-- Changes of the cache, the clocks and the timers only. -/
theorem Calm.of_same {before after : NetClient F N} (status : after.status = before.status)
    (slot : after.transport.peer = before.transport.peer)
    (opened : after.transport.opened = before.transport.opened) (sent : after.sent = before.sent)
    (identity : identityOf after = identityOf before) : Calm before after where
  opened := by rw [opened]
  sent := ⟨[], by simp [sent]⟩
  coherent := fun coherent => ⟨by rw [status, slot]; exact coherent.ended,
    by rw [slot, opened]; exact coherent.newest⟩
  ready := fun ready => status ▸ ready
  identity := identity

end Tameness

section Operations
variable {F N : Type} [Library N]

omit [Library N] in
theorem coherent_meets {client : NetClient F N} (coherent : Coherent client) (library : N) :
    Coherent (client.meets library) := ⟨coherent.ended, coherent.newest⟩

theorem dropPeer_slot (transport : LiteNetLibTransport N) : transport.dropPeer.peer.value = none := by
  unfold LiteNetLibTransport.dropPeer CurrentPeerSlot.clear
  cases transport.peer.value with
  | none => rfl
  | some peer => rfl

theorem dropPeer_opened (transport : LiteNetLibTransport N) :
    transport.dropPeer.opened = transport.opened := by
  unfold LiteNetLibTransport.dropPeer CurrentPeerSlot.clear
  cases transport.peer.value with
  | none => rfl
  | some peer => rfl

omit [Library N] in
/-- The attempt is over: no status, no peer. -/
theorem Calm.of_ended {before after : NetClient F N} (status : after.status = .disconnected)
    (slot : after.transport.peer.value = none)
    (opened : after.transport.opened = before.transport.opened) (sent : after.sent = before.sent)
    (identity : identityOf after = identityOf before) : Calm before after where
  opened := by rw [opened]
  sent := ⟨[], by simp [sent]⟩
  coherent := fun _ => ⟨by simp [status, slot], by simp [slot]⟩
  ready := fun ready => by rw [status] at ready; cases ready
  identity := identity

theorem endHandshakeAttempt_calm (client : NetClient F N) : Calm client client.endHandshakeAttempt :=
  .of_ended rfl (dropPeer_slot _) (dropPeer_opened _) rfl rfl

section Sending
variable [EnvelopeCodec F]

theorem send_frame {transport after : LiteNetLibTransport N} {bytes : Bytes}
    (sent : transport.send bytes = some after) :
    after.peer = transport.peer ∧ after.opened = transport.opened := by
  unfold LiteNetLibTransport.send at sent
  split at sent
  · cases sent
    exact ⟨rfl, rfl⟩
  · split at sent
    · cases sent
    · cases sent
      exact ⟨rfl, rfl⟩

/-- A failed send changes nothing; a send adds one datagram and changes the library alone. -/
theorem sendRaw_cases (client : NetClient F N) (packet : ClientMessage F) :
    client.sendRaw packet = (false, client) ∨
      ∃ bytes transport, client.transport.send bytes = some transport ∧
        client.sendRaw packet =
          (true, { client with transport, sent := client.sent ++ [client.datagram packet] }) := by
  unfold NetClient.sendRaw
  by_cases connected : client.transport.isPeerConnected
  · by_cases small : client.transport.maxUnreliablePayloadSize ≤ 0 ∨
        client.transport.maxUnreliablePayloadSize < (EnvelopeCodec.encode client.seq packet).length
    · exact .inl (by simp [connected, small])
    · cases handed : client.transport.send (EnvelopeCodec.encode client.seq packet) with
      | none => exact .inl (by simp [connected, small, handed])
      | some transport => exact .inr ⟨_, transport, handed, by simp [connected, small, handed]⟩
  · exact .inl (by simp [connected])

theorem sendRaw_calm (client : NetClient F N) (packet : ClientMessage F)
    (proper : Proper (client.datagram packet)) :
    Calm client (client.sendRaw packet).2 := by
  rcases sendRaw_cases client packet with failed | ⟨bytes, transport, handed, sent⟩
  · rw [failed]
    exact .refl client
  · obtain ⟨slot, opened⟩ := send_frame handed
    rw [sent]
    exact {
      opened := by rw [opened]
      sent := ⟨_, rfl, fun _ member => List.mem_singleton.mp member ▸ proper⟩
      coherent := fun coherent => ⟨by rw [slot]; exact coherent.ended,
        by rw [slot, opened]; exact coherent.newest⟩
      ready := id
      identity := rfl }

theorem sendHello_calm (client : NetClient F N) (handshaking : client.status = .handshaking) :
    Calm client client.sendHello.2 := by
  unfold NetClient.sendHello
  cases client.options with
  | none => exact .refl client
  | some options =>
      have numbered : Calm client client.nextSeq := .of_same rfl rfl rfl rfl rfl
      have tried := numbered.trans
        (sendRaw_calm client.nextSeq (.hello (NetClient.helloOf options)) handshaking)
      rcases outcome : client.nextSeq.sendRaw (.hello (NetClient.helloOf options)) with ⟨sent, after⟩
      rw [outcome] at tried
      simp only [outcome]
      cases sent with
      | false => exact tried.trans (endHandshakeAttempt_calm after)
      | true => exact tried.trans (.of_same rfl rfl rfl rfl rfl)

theorem sendClientState_calm (client : NetClient F N) (pose : BoatPose F) :
    Calm client (client.sendClientState pose) := by
  unfold NetClient.sendClientState
  by_cases ready : client.status = .ready
  · have complete : client.handshakeComplete = true := by simp [NetClient.handshakeComplete, ready]
    have numbered : Calm client client.nextSeq := .of_same rfl rfl rfl rfl rfl
    simp only [complete, Bool.not_true, Bool.false_eq_true, if_false]
    exact numbered.trans (sendRaw_calm client.nextSeq _ ready)
  · have incomplete : client.handshakeComplete = false := by simp [NetClient.handshakeComplete, ready]
    simp only [incomplete, Bool.not_false, if_true]
    exact .refl client

theorem onPeerConnected_calm (client : NetClient F N) : Calm client client.onPeerConnected := by
  unfold NetClient.onPeerConnected
  by_cases connecting : client.status = .connecting
  · rw [if_neg (not_not.mpr connecting)]
    have shaking : Calm client { client with status := ConnectionStatus.handshaking } := {
      opened := List.prefix_refl _
      sent := ⟨[], by simp⟩
      coherent := fun coherent => ⟨by simpa [connecting] using coherent.ended, coherent.newest⟩
      ready := nofun
      identity := rfl }
    exact shaking.trans (sendHello_calm _ rfl)
  · rw [if_pos connecting]
    exact .refl client

end Sending

/-! Opening a peer starts from an empty slot. -/

/-- No attempt is under way. -/
def Idle (client : NetClient F N) : Prop :=
  client.status = .disconnected ∧ client.transport.peer.value = none

omit [Library N] in
theorem Coherent.idle {client : NetClient F N} (coherent : Coherent client)
    (disconnected : client.status = .disconnected) : Idle client :=
  ⟨disconnected, coherent.ended.mp disconnected⟩

theorem connect_cases (transport : LiteNetLibTransport N) (empty : transport.peer.value = none)
    (host : String) (port : Int) (key : String) :
    (∃ after, transport.connect host port key = (false, after) ∧ after.peer.value = none ∧
        after.opened = transport.opened) ∨
      ∃ after peer, transport.connect host port key = (true, after) ∧ after.peer.value = some peer ∧
        after.opened = transport.opened ++ [peer] := by
  unfold LiteNetLibTransport.connect CurrentPeerSlot.setIfPresent
  rcases Library.connect transport.manager host port key with ⟨peer, manager⟩
  cases peer with
  | none => exact .inl ⟨{ transport with manager }, by simp [empty], empty, rfl⟩
  | some peer =>
      exact .inr ⟨{ manager, peer := { value := some peer }, opened := transport.opened ++ [peer] }, peer, rfl,
        rfl, rfl⟩

theorem openPeer_calm {client : NetClient F N} (idle : Idle client) : Calm client client.openPeer := by
  obtain ⟨disconnected, empty⟩ := idle
  unfold NetClient.openPeer
  cases client.options with
  | none => exact .refl client
  | some options =>
      cases running : client.transport.isRunning with
      | false => exact .of_ended rfl empty rfl rfl rfl
      | true =>
          simp only [Bool.not_true, Bool.false_eq_true, if_false]
          rcases connect_cases client.transport empty options.host options.port connectKey with
            ⟨after, failed, slot, opened⟩ | ⟨after, peer, present, slot, opened⟩
          · rw [failed]
            exact .of_ended rfl slot opened rfl rfl
          · rw [present]
            exact {
              opened := by simp [opened]
              sent := ⟨[], by simp⟩
              coherent := fun _ => ⟨by simp [slot], by simp [slot, opened]⟩
              ready := nofun
              identity := rfl }

theorem startTransportAndOpenPeer_calm {client : NetClient F N} (idle : Idle client) :
    Calm client client.startTransportAndOpenPeer := by
  unfold NetClient.startTransportAndOpenPeer
  cases client.transport.isRunning with
  | true => exact openPeer_calm idle
  | false =>
      simp only [Bool.false_eq_true, if_false, LiteNetLibTransport.start]
      rcases Library.start client.transport.manager with ⟨started, manager⟩
      cases started with
      | false => exact .of_ended rfl idle.2 rfl rfl rfl
      | true =>
          have brought : Calm client (client.meets manager) := .of_same rfl rfl rfl rfl rfl
          exact brought.trans (openPeer_calm idle)

theorem abandoned_idle {client : NetClient F N} (coherent : Coherent client) :
    Calm client (if client.status = .disconnected then client
        else { client with status := .disconnected, transport := client.transport.dropPeer }) ∧
      Idle (if client.status = .disconnected then client
        else { client with status := .disconnected, transport := client.transport.dropPeer }) := by
  by_cases disconnected : client.status = .disconnected
  · rw [if_pos disconnected]
    exact ⟨.refl client, coherent.idle disconnected⟩
  · rw [if_neg disconnected]
    exact ⟨.of_ended rfl (dropPeer_slot _) (dropPeer_opened _) rfl rfl, rfl, dropPeer_slot _⟩

section Entries
variable [Platform F]

omit [Library N] in
theorem resetSession_tame (client : NetClient F N) : Tame client client.resetSession :=
  ⟨List.prefix_refl _, ⟨[], by simp [NetClient.resetSession]⟩,
    fun coherent => ⟨coherent.ended, coherent.newest⟩⟩

/-- A call to connect opens afresh: what the server told is forgotten. -/
theorem connect_tame {client : NetClient F N} (coherent : Coherent client) (options : ConnectOptions) :
    Tame client (client.connect options) ∧
      ((client.connect options).status = .ready → client.status = .ready) ∧
      (identityOf (client.connect options) = identityOf client ∨
        identityOf (client.connect options) = (0, 4)) := by
  unfold NetClient.connect
  by_cases under : client.status = .connecting ∧ client.options.map (·.object) = some options.object
  · rw [if_pos under]
    exact ⟨.refl client, id, .inl rfl⟩
  · rw [if_neg under]
    obtain ⟨abandoned, idle⟩ := abandoned_idle coherent
    generalize (if client.status = .disconnected then client
      else { client with status := .disconnected, transport := client.transport.dropPeer }) = dropped
      at abandoned idle ⊢
    have chosen : Calm dropped { dropped with options := some options, reconnectBackoffMs := defaultReconnectMs } :=
      .of_same rfl rfl rfl rfl rfl
    have opening : Calm
        (NetClient.resetSession { dropped with options := some options, reconnectBackoffMs := defaultReconnectMs })
        (NetClient.startTransportAndOpenPeer (NetClient.resetSession
          { dropped with options := some options, reconnectBackoffMs := defaultReconnectMs })) :=
      startTransportAndOpenPeer_calm idle
    refine ⟨?_, fun ready => abandoned.ready (opening.ready ready), .inr opening.identity⟩
    exact abandoned.toTame.trans (chosen.toTame.trans ((resetSession_tame _).trans opening.toTame))

omit [Platform F] in
theorem dispose_calm (client : NetClient F N) : Calm client client.dispose :=
  .of_ended rfl rfl rfl rfl rfl

/-! Events. -/

/-- Received samples change the cache alone. -/
theorem ingest_cache (client : NetClient F N) (players : List (PlayerState F)) (boats : List (BoatState F)) :
    ∃ cache, client.ingest players boats = { client with cache } := by
  have seen (now : Int) (client : NetClient F N) : ∃ cache,
      players.foldl (fun client player => client.ingestPlayer now player) client = { client with cache } := by
    induction players generalizing client with
    | nil => exact ⟨client.cache, rfl⟩
    | cons player rest ih => exact ih (client.ingestPlayer now player)
  have moved (now : Int) (client : NetClient F N) : ∃ cache,
      boats.foldl (fun client boat => client.ingestBoat now boat) client = { client with cache } := by
    induction boats generalizing client with
    | nil => exact ⟨client.cache, rfl⟩
    | cons boat rest ih => exact ih (client.ingestBoat now boat)
  obtain ⟨cache, same⟩ := seen client.nowMs client
  unfold NetClient.ingest
  simp only [same]
  exact moved client.nowMs _

theorem ingest_calm (client : NetClient F N) (players : List (PlayerState F)) (boats : List (BoatState F)) :
    Calm client (client.ingest players boats) := by
  obtain ⟨cache, same⟩ := ingest_cache client players boats
  rw [same]
  exact .of_same rfl rfl rfl rfl rfl

omit [Library N] [Platform F] in
theorem applyClock_calm (client : NetClient F N) (clock : Option (WorldClock F)) :
    Calm client (client.applyClock clock) ∧ (client.applyClock clock).status = client.status := by
  cases clock with
  | none => exact ⟨.refl client, rfl⟩
  | some clock => exact ⟨.of_same rfl rfl rfl rfl rfl, rfl⟩

/-- The answer the handshake waits for. -/
structure Awaited (client : NetClient F N) (hello : Net.ServerHello F) (capabilities : CapabilityManifest) : Prop where
  handshaking : client.status = .handshaking
  accepted : hello.accepted = true
  manifest : hello.capabilities = some capabilities
  protocol : capabilities.protocolVersion = Net.protocolVersion

omit [Platform F] in
/-- Either the hello is adopted or it is as if it had told nothing. -/
theorem onServerHello_cases (client : NetClient F N) (hello : Net.ServerHello F) :
    Calm client (client.onServerHello hello) ∨
      ∃ capabilities, Awaited client hello capabilities ∧ Tame client (client.onServerHello hello) ∧
        (client.onServerHello hello).status = .ready ∧
        identityOf (client.onServerHello hello) = (hello.playerId,
          if 0 < capabilities.snapshotHz then capabilities.snapshotHz else client.snapshotHz) := by
  unfold NetClient.onServerHello
  by_cases handshaking : client.status = .handshaking
  swap
  · rw [if_pos handshaking]
    exact .inl (.refl client)
  rw [if_neg (not_not.mpr handshaking)]
  cases accepted : hello.accepted with
  | false => exact .inl (endHandshakeAttempt_calm client)
  | true =>
      simp only [Bool.not_true, Bool.false_eq_true, if_false]
      cases manifest : hello.capabilities with
      | none => exact .inl (endHandshakeAttempt_calm client)
      | some capabilities =>
          by_cases protocol : capabilities.protocolVersion = Net.protocolVersion
          swap
          · simp only [protocol, ne_eq, not_false_eq_true, if_true]
            exact .inl (endHandshakeAttempt_calm client)
          simp only [protocol, ne_eq, not_true_eq_false, if_false]
          generalize entered : ({ client with
            status := .ready
            playerId := hello.playerId
            reconnectBackoffMs := defaultReconnectMs
            snapshotHz := if 0 < capabilities.snapshotHz then capabilities.snapshotHz
              else client.snapshotHz } : NetClient F N) = welcomed
          obtain ⟨clocked, status⟩ := applyClock_calm welcomed hello.clock
          have adopted : Tame client welcomed := by
            subst entered
            exact ⟨List.prefix_refl _, ⟨[], by simp⟩, fun coherent =>
              ⟨by simpa [handshaking] using coherent.ended, coherent.newest⟩⟩
          refine .inr ⟨capabilities, ⟨handshaking, accepted, manifest, protocol⟩,
            adopted.trans clocked.toTame, by rw [status, ← entered], by rw [clocked.identity, ← entered]; rfl⟩

section Raised
variable [EnvelopeCodec F]

theorem onNetworkReceive_cases (client : NetClient F N) (data : Bytes) :
    Calm client (client.onNetworkReceive data) ∨
      ∃ hello capabilities, EnvelopeCodec.tryDispatch data = some (.serverHello hello) ∧
        Awaited client hello capabilities ∧ Tame client (client.onNetworkReceive data) ∧
        (client.onNetworkReceive data).status = .ready ∧
        identityOf (client.onNetworkReceive data) = (hello.playerId,
          if 0 < capabilities.snapshotHz then capabilities.snapshotHz else client.snapshotHz) := by
  unfold NetClient.onNetworkReceive
  rcases dispatched : EnvelopeCodec.tryDispatch (F := F) data with
    _ | hello | ⟨serverTick, players, boats⟩ | _ | ⟨players, boats⟩ | clock | _
  · exact .inl (.refl client)
  · rcases onServerHello_cases client hello with calm | ⟨capabilities, awaited, tame, status, identity⟩
    · exact .inl calm
    · exact .inr ⟨hello, capabilities, rfl, awaited, tame, status, identity⟩
  · have ticked : Calm client { client with cache := client.cache.observeServerTick serverTick } :=
      .of_same rfl rfl rfl rfl rfl
    exact .inl (ticked.trans (ingest_calm _ players boats))
  · exact .inl (.refl client)
  · exact .inl (ingest_calm client players boats)
  · exact .inl (.of_same rfl rfl rfl rfl rfl)
  · exact .inl (.refl client)

omit [Platform F] in
theorem serviceTimers_calm {client : NetClient F N} (coherent : Coherent client) :
    Calm client client.serviceTimers := by
  unfold NetClient.serviceTimers
  dsimp only
  generalize served : (if client.status = .handshaking ∧ helloRetryMs ≤ client.nowMs - client.lastHelloMs then
      client.sendHello.2
    else if client.status = .disconnected ∧ client.options.isSome ∧ client.nextReconnectMs ≤ client.nowMs then
      client.startTransportAndOpenPeer
    else client) = after
  have calm : Calm client after := by
    subst served
    by_cases retry : client.status = .handshaking ∧ helloRetryMs ≤ client.nowMs - client.lastHelloMs
    · rw [if_pos retry]
      exact sendHello_calm client retry.1
    · rw [if_neg retry]
      by_cases due : client.status = .disconnected ∧ client.options.isSome ∧
          client.nextReconnectMs ≤ client.nowMs
      · rw [if_pos due]
        exact startTransportAndOpenPeer_calm (coherent.idle due.1)
      · rw [if_neg due]
        exact .refl client
  exact calm.trans (.of_same rfl rfl rfl rfl rfl)

/-! The steps of a run. -/

def peerOf : NetEvent → Option NetPeer
  | .peerConnected peer => peer
  | .peerDisconnected peer => peer
  | .networkReceive peer _ => peer
  | .networkError => none

/-- The step that takes the server's word: an accepted hello of the client's own protocol, received from
the current peer of the newest attempt while its handshake is under way. -/
def Adopts (step : Step F N) : Prop :=
  ∃ peer data hello capabilities, step.entry = .raise (.networkReceive (some peer) data) ∧
    step.before.transport.peer.value = some peer ∧ step.before.transport.opened.getLast? = some peer ∧
    EnvelopeCodec.tryDispatch data = some (.serverHello hello) ∧ Awaited step.before hello capabilities ∧
    step.after.status = .ready ∧
    identityOf step.after = (hello.playerId,
      if 0 < capabilities.snapshotHz then capabilities.snapshotHz else step.before.snapshotHz)

/-- An event of a peer other than the current one changes nothing. -/
theorem raise_foreign (client : NetClient F N) {event : NetEvent} {peer : NetPeer}
    (own : peerOf event = some peer) (foreign : client.transport.peer.value ≠ some peer) :
    client.raise event = client := by
  have other : client.transport.peer.isCurrent (some peer) = false := by
    simpa [CurrentPeerSlot.isCurrent] using foreign
  cases event with
  | networkError => rfl
  | peerConnected named =>
      replace own : named = some peer := own
      simp [NetClient.raise, own, other]
  | peerDisconnected named =>
      replace own : named = some peer := own
      simp [NetClient.raise, CurrentPeerSlot.tryClear, own, other]
  | networkReceive named data =>
      replace own : named = some peer := own
      simp [NetClient.raise, own, other]

theorem raise_cases {client : NetClient F N} (coherent : Coherent client) (event : NetEvent) :
    Calm client (client.raise event) ∨
      Tame client (client.raise event) ∧ Adopts ⟨client, .raise event, client.raise event⟩ := by
  have current {named : Option NetPeer} (own : client.transport.peer.isCurrent named = true) :
      client.transport.peer.value = named := by
    simpa [CurrentPeerSlot.isCurrent] using own
  cases event with
  | networkError => exact .inl (.refl client)
  | peerConnected named =>
      simp only [NetClient.raise]
      cases own : client.transport.peer.isCurrent named with
      | false => exact .inl (.refl client)
      | true => exact .inl (onPeerConnected_calm client)
  | peerDisconnected named =>
      simp only [NetClient.raise, CurrentPeerSlot.tryClear]
      cases own : client.transport.peer.isCurrent named with
      | false => exact .inl (.refl client)
      | true => exact .inl (.of_ended rfl rfl rfl rfl rfl)
  | networkReceive named data =>
      cases own : client.transport.peer.isCurrent named with
      | false =>
          simp only [NetClient.raise, own, Bool.false_eq_true, if_false]
          exact .inl (.refl client)
      | true =>
          simp only [NetClient.raise, own, if_true]
          rcases onNetworkReceive_cases client data with
            calm | ⟨hello, capabilities, dispatched, awaited, tame, status, identity⟩
          · exact .inl calm
          · -- A client in its handshake has a peer, so the event names it.
            obtain ⟨peer, held⟩ := Option.ne_none_iff_exists'.mp fun empty =>
              absurd (coherent.ended.mpr empty) (by rw [awaited.handshaking]; nofun)
            have named_own := (current own).symm.trans held
            subst named_own
            exact .inr ⟨tame, peer, data, hello, capabilities, rfl, held, coherent.newest peer held, dispatched,
              awaited, status, identity⟩

/-- What every step of a run keeps to. -/
structure Disciplined (step : Step F N) : Prop where
  foreign : ∀ event peer, step.entry = .raise event → peerOf event = some peer →
    step.before.transport.peer.value ≠ some peer → step.after = step.before
  abandoned : ∀ event peer, step.entry = .raise event → peerOf event = some peer →
    peer ∈ step.before.transport.opened.dropLast → step.after = step.before
  ready : step.after.status = .ready → step.before.status = .ready ∨ Adopts step
  identity : identityOf step.after = identityOf step.before ∨
    (∃ options, step.entry = .connect options ∧ identityOf step.after = (0, 4)) ∨ Adopts step

theorem enter_cases {client : NetClient F N} (coherent : Coherent client) (entry : Entry F) :
    Tame client (enter client entry) ∧
      ((enter client entry).status = .ready →
        client.status = .ready ∨ Adopts ⟨client, entry, enter client entry⟩) ∧
      (identityOf (enter client entry) = identityOf client ∨
        (∃ options, entry = .connect options ∧ identityOf (enter client entry) = (0, 4)) ∨
        Adopts ⟨client, entry, enter client entry⟩) := by
  have of_calm (calm : Calm client (enter client entry)) : Tame client (enter client entry) ∧
      ((enter client entry).status = .ready →
        client.status = .ready ∨ Adopts ⟨client, entry, enter client entry⟩) ∧
      (identityOf (enter client entry) = identityOf client ∨
        (∃ options, entry = .connect options ∧ identityOf (enter client entry) = (0, 4)) ∨
        Adopts ⟨client, entry, enter client entry⟩) :=
    ⟨calm.toTame, fun ready => .inl (calm.ready ready), .inl calm.identity⟩
  cases entry with
  | connect options =>
      obtain ⟨tame, ready, identity⟩ := connect_tame coherent options
      exact ⟨tame, fun entered => .inl (ready entered), identity.imp_right fun reset => .inl ⟨options, rfl, reset⟩⟩
  | raise event =>
      rcases raise_cases coherent event with calm | ⟨tame, adopts⟩
      · exact of_calm calm
      · exact ⟨tame, fun _ => .inr adopts, .inr (.inr adopts)⟩
  | serviceTimers => exact of_calm (serviceTimers_calm coherent)
  | sendClientState pose => exact of_calm (sendClientState_calm client pose)
  | dispose => exact of_calm (dispose_calm client)

omit [Library N] [Platform F] [EnvelopeCodec F] in
/-- An earlier attempt's peer is not the current one when no peer is handed out twice. -/
theorem abandoned_foreign {client : NetClient F N} (coherent : Coherent client)
    (unused : client.transport.opened.Nodup) {peer : NetPeer}
    (earlier : peer ∈ client.transport.opened.dropLast) : client.transport.peer.value ≠ some peer := by
  intro current
  have last := coherent.newest peer current
  rw [List.getLast?_eq_some_iff] at last
  obtain ⟨front, whole⟩ := last
  rw [whole, List.dropLast_concat] at earlier
  rw [whole, List.nodup_append] at unused
  exact unused.2.2 peer earlier peer (List.mem_singleton.mpr rfl) rfl

theorem step_disciplined {client : NetClient F N} (coherent : Coherent client)
    (unused : client.transport.opened.Nodup) (entry : Entry F) :
    Disciplined ⟨client, entry, enter client entry⟩ := by
  obtain ⟨-, ready, identity⟩ := enter_cases coherent entry
  have foreign (event : NetEvent) (peer : NetPeer) (raised : entry = .raise event) (own : peerOf event = some peer)
      (other : client.transport.peer.value ≠ some peer) : enter client entry = client := by
    subst raised
    exact raise_foreign client own other
  exact {
    foreign
    abandoned := fun event peer raised own earlier =>
      foreign event peer raised own (abandoned_foreign coherent unused earlier)
    ready
    identity }

theorem play_coherent {client : NetClient F N} (coherent : Coherent client) (moments : List (Moment F N)) :
    Coherent (play client moments) ∧ Tame client (play client moments) := by
  induction moments generalizing client with
  | nil => exact ⟨coherent, .refl client⟩
  | cons moment rest ih =>
      have met : Calm client (client.meets moment.library) := .of_same rfl rfl rfl rfl rfl
      obtain ⟨tame, -, -⟩ := enter_cases (coherent_meets coherent moment.library) moment.entry
      obtain ⟨last, later⟩ := ih (tame.coherent (coherent_meets coherent moment.library))
      exact ⟨last, met.toTame.trans (tame.trans later)⟩

/-- Each step starts in step and from the peers handed out so far. -/
theorem stepsOf_disciplined {client : NetClient F N} (coherent : Coherent client) (moments : List (Moment F N))
    (unused : (play client moments).transport.opened.Nodup) :
    ∀ step ∈ stepsOf client moments, Disciplined step := by
  induction moments generalizing client with
  | nil => simp [stepsOf]
  | cons moment rest ih =>
      have met := coherent_meets coherent moment.library
      obtain ⟨tame, -, -⟩ := enter_cases met moment.entry
      have entered := tame.coherent met
      intro step member
      rcases List.mem_cons.mp member with rfl | later
      · have first : (client.meets moment.library).transport.opened.Nodup :=
          unused.sublist (tame.opened.trans (play_coherent entered rest).2.opened).sublist
        exact step_disciplined met first moment.entry
      · exact ih entered unused step later

omit [Library N] [EnvelopeCodec F] in
theorem coherent_new (manager : N) : Coherent (NetClient.new manager : NetClient F N) :=
  ⟨by simp [NetClient.new], by simp [NetClient.new]⟩

/-- After any calls the status is in step with the peer slot and every datagram went out in its own
status; every step on the way keeps to the discipline of the newest attempt. -/
theorem session_disciplined (manager : N) (turns : List (Turn F N))
    (unused : ((NetClient.new manager : NetClient F N).performAll turns).transport.opened.Nodup) :
    (((NetClient.new manager : NetClient F N).performAll turns).status = .disconnected ↔
        ((NetClient.new manager : NetClient F N).performAll turns).transport.peer.value = none) ∧
      (∀ datagram ∈ ((NetClient.new manager : NetClient F N).performAll turns).sent, Proper datagram) ∧
      ∀ step ∈ steps (NetClient.new manager : NetClient F N) turns, Disciplined step := by
  rw [performAll_play] at unused ⊢
  obtain ⟨coherent, tame⟩ := play_coherent (coherent_new manager) (turns.flatMap moments)
  obtain ⟨posted, sent, proper⟩ := tame.sent
  refine ⟨coherent.ended, fun datagram member => ?_, stepsOf_disciplined (coherent_new manager) _ unused⟩
  rw [sent] at member
  exact proper datagram member

end Raised

end Entries

end Operations

/-! A library that always starts and hands out its peers in order, and a handshake that is rejected once:
the acceptance the first peer still had under way reaches nothing. -/
section Reconnect

structure Bench where
  nowMs : Int
  running : Bool
  peers : Nat

instance benchLibrary : Library Bench where
  nowMs bench := bench.nowMs
  isRunning bench := bench.running
  start bench := (true, { bench with running := true })
  connect bench _ _ _ := (some (bench.peers + 1), { bench with peers := bench.peers + 1 })
  disconnectPeerForce bench _ := bench
  isConnected _ _ := true
  maxSinglePacketSize _ _ := 1000
  send bench _ _ := some bench
  stop bench := { bench with running := false }

def helloFrom (accepted : Bool) (playerId : UInt64) : Net.ServerHello Int :=
  { accepted, playerId, capabilities := some { protocolVersion := 1, snapshotHz := 8 }, clock := none }

local instance benchCodec : EnvelopeCodec Int where
  encode _ _ := [0]
  tryDispatch data :=
    if data = [1] then some (.serverHello (helloFrom false 0))
    else if data = [2] then some (.serverHello (helloFrom true 99))
    else if data = [3] then some (.serverHello (helloFrom true 7))
    else none

def benchOptions : ConnectOptions :=
  { object := 0, host := "127.0.0.1", port := 38455, displayName := "", token := "", gameBuild := ""
    modVersion := "", apiSurfaceHash := "" }

def benchTurn (nowMs : Int) (peers : Nat) (events : List NetEvent) : Turn Int Bench :=
  { library := ⟨nowMs, true, peers⟩
    call := .poll (events.map fun event => ⟨⟨nowMs, true, peers⟩, event⟩) ⟨nowMs, true, peers⟩ }

def reconnectTurns : List (Turn Int Bench) :=
  [⟨⟨0, false, 0⟩, .connect benchOptions⟩,
    benchTurn 10 1 [.peerConnected (some 1)],
    benchTurn 20 1 [.networkReceive (some 1) [1]],
    benchTurn 1020 1 [],
    benchTurn 1030 2 [.networkReceive (some 1) [2], .peerConnected (some 2), .networkReceive (some 2) [3]],
    ⟨⟨1040, true, 2⟩, .sendClientState ⟨(0, 0, 0), (0, 0, 0, 1), (0, 0, 0)⟩⟩]

def reconnectedClient : NetClient Int Bench := (NetClient.new ⟨0, false, 0⟩).performAll reconnectTurns

theorem session_disciplined_reconnect :
    (reconnectedClient.status = .disconnected ↔ reconnectedClient.transport.peer.value = none) ∧
      reconnectedClient.sent.Forall Proper ∧
      (steps (NetClient.new ⟨0, false, 0⟩) reconnectTurns).Forall Disciplined ∧
      reconnectedClient.status = .ready ∧ identityOf reconnectedClient = (7, 8) ∧
      reconnectedClient.transport.opened = [1, 2] := by
  have opened : reconnectedClient.transport.opened = [1, 2] := by decide
  have unused : reconnectedClient.transport.opened.Nodup := by rw [opened]; decide
  obtain ⟨ended, proper, disciplined⟩ := session_disciplined (F := Int) ⟨0, false, 0⟩ reconnectTurns unused
  exact ⟨ended, List.forall_iff_forall_mem.mpr proper, List.forall_iff_forall_mem.mpr disciplined,
    by decide, by decide, opened⟩

end Reconnect

end SailwindOnline.ClientSession
