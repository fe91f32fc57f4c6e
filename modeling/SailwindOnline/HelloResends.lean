import SailwindOnline.ClientSession
import SailwindOnline.HelloSizes
import SailwindOnline.HelloThrottle

/-!
A hello that is sent again until it is answered. The client spaces the hellos
of one attempt by its retry interval, the hello throttle's interval is no
longer, and the server answers a second hello of a session from the session.
-/

namespace SailwindOnline.HelloResends
open Net ClientSession
open WireProtocol (Bytes)

/-! The hellos of one attempt. -/
section Hellos
variable {F : Type}

def isHello : ClientMessage F → Bool
  | .hello _ => true
  | _ => false

/-- The hellos handed to the library for a peer, oldest first. -/
def hellosOn (peer : NetPeer) (sent : List (Sent F)) : List (Sent F) :=
  sent.filter fun datagram => decide (datagram.peer = some peer) && isHello datagram.packet

def Spaced (earlier later : Sent F) : Prop := earlier.atMs + helloRetryMs ≤ later.atMs

theorem hellosOn_own {peer : NetPeer} (sent : List (Sent F)) {datagram : Sent F} (own : datagram.peer = some peer)
    (hello : isHello datagram.packet = true) :
    hellosOn peer (sent ++ [datagram]) = hellosOn peer sent ++ [datagram] := by
  simp [hellosOn, List.filter_append, own, hello]

theorem hellosOn_other {peer : NetPeer} (sent : List (Sent F)) {datagram : Sent F}
    (other : datagram.peer ≠ some peer ∨ isHello datagram.packet = false) :
    hellosOn peer (sent ++ [datagram]) = hellosOn peer sent := by
  rcases other with other | other <;> simp [hellosOn, List.filter_append, other]

end Hellos

/-! The client's side. -/
section Client
variable {F N : Type}

/-- What the hellos sent so far have in common, attempt by attempt. -/
structure Greeting (client : NetClient F N) : Prop where
  spaced : ∀ peer, (hellosOn peer client.sent).Pairwise Spaced
  alike : ∀ peer, ∃ hello, ∀ datagram ∈ hellosOn peer client.sent, datagram.packet = .hello hello
  known : ∀ peer, hellosOn peer client.sent ≠ [] → peer ∈ client.transport.opened
  unsaid : ∀ peer, client.transport.peer.value = some peer → client.status = .connecting →
    hellosOn peer client.sent = []
  paced : ∀ peer, client.transport.peer.value = some peer → client.status = .handshaking →
    ∀ datagram ∈ hellosOn peer client.sent, datagram.atMs ≤ client.lastHelloMs
  own : ∀ peer, client.transport.peer.value = some peer → ∃ options, client.options = some options ∧
    ∀ datagram ∈ hellosOn peer client.sent, datagram.packet = .hello (NetClient.helloOf options)

variable {before after : NetClient F N}

/-- The attempt is over: the hellos are those sent before. -/
theorem Greeting.ended (greeting : Greeting before) (empty : after.transport.peer.value = none)
    (sent : after.sent = before.sent) (opened : ∀ peer ∈ before.transport.opened, peer ∈ after.transport.opened) :
    Greeting after where
  spaced := sent ▸ greeting.spaced
  alike := sent ▸ greeting.alike
  known := fun peer said => opened peer (greeting.known peer (sent ▸ said))
  unsaid := fun peer current => by rw [empty] at current; cases current
  paced := fun peer current => by rw [empty] at current; cases current
  own := fun peer current => by rw [empty] at current; cases current

/-- The attempt goes on and nothing about its hellos changes. -/
theorem Greeting.still (greeting : Greeting before) (slot : after.transport.peer = before.transport.peer)
    (hellos : ∀ peer, hellosOn peer after.sent = hellosOn peer before.sent)
    (opened : after.transport.opened = before.transport.opened)
    (status : after.status = before.status ∨ after.status = .ready)
    (options : after.options = before.options) (last : after.lastHelloMs = before.lastHelloMs) :
    Greeting after where
  spaced := fun peer => hellos peer ▸ greeting.spaced peer
  alike := fun peer => hellos peer ▸ greeting.alike peer
  known := fun peer said => by
    rw [hellos peer] at said
    rw [opened]
    exact greeting.known peer said
  unsaid := fun peer current connecting => by
    rw [slot] at current
    rw [hellos peer]
    rcases status with same | ready
    · exact greeting.unsaid peer current (same ▸ connecting)
    · rw [ready] at connecting
      cases connecting
  paced := fun peer current handshaking => by
    rw [slot] at current
    rw [hellos peer, last]
    rcases status with same | ready
    · exact greeting.paced peer current (same ▸ handshaking)
    · rw [ready] at handshaking
      cases handshaking
  own := fun peer current => by
    rw [slot] at current
    rw [hellos peer, options]
    exact greeting.own peer current

theorem Greeting.recached (greeting : Greeting before) (cache : Sync.SnapshotCache F) :
    Greeting { before with cache } :=
  greeting.still rfl (fun _ => rfl) rfl (.inl rfl) rfl rfl

/-- A peer handed out for the first time. -/
theorem Greeting.fresh {options : ConnectOptions} {peer : NetPeer} (greeting : Greeting before)
    (unused : peer ∉ before.transport.opened) (slot : after.transport.peer.value = some peer)
    (sent : after.sent = before.sent) (opened : ∀ peer ∈ before.transport.opened, peer ∈ after.transport.opened)
    (chosen : after.options = some options) : Greeting after := by
  have silent : hellosOn peer before.sent = [] := by
    by_contra said
    exact unused (greeting.known peer said)
  have only (other : NetPeer) (current : after.transport.peer.value = some other) :
      hellosOn other after.sent = [] := by
    rw [slot, Option.some.injEq] at current
    rw [sent, ← current, silent]
  exact {
    spaced := sent ▸ greeting.spaced
    alike := sent ▸ greeting.alike
    known := fun peer said => opened peer (greeting.known peer (sent ▸ said))
    unsaid := fun other current _ => only other current
    paced := fun other current _ => by simp [only other current]
    own := fun other current => ⟨options, chosen, by simp [only other current]⟩ }

/-- One more hello of the attempt, after a rest. -/
theorem Greeting.said {options : ConnectOptions} {datagram : Sent F} (greeting : Greeting before)
    (rested : ∀ peer, before.transport.peer.value = some peer → ∀ earlier ∈ hellosOn peer before.sent,
      Spaced earlier datagram)
    (slot : after.transport.peer = before.transport.peer) (opened : after.transport.opened = before.transport.opened)
    (status : after.status = .handshaking) (chosen : before.options = some options)
    (same : after.options = before.options) (sent : after.sent = before.sent ++ [datagram])
    (peer : datagram.peer = before.transport.peer.value)
    (packet : datagram.packet = .hello (NetClient.helloOf options)) (last : datagram.atMs ≤ after.lastHelloMs)
    (newest : ∀ peer ∈ before.transport.peer.value, peer ∈ before.transport.opened)
    (paced : ∀ peer, before.transport.peer.value = some peer → ∀ earlier ∈ hellosOn peer before.sent,
      earlier.atMs ≤ datagram.atMs) :
    Greeting after := by
  have hello : isHello datagram.packet = true := by rw [packet]; rfl
  have ours (other : NetPeer) (current : before.transport.peer.value = some other) :
      hellosOn other after.sent = hellosOn other before.sent ++ [datagram] := by
    rw [sent, hellosOn_own _ (peer.trans current) hello]
  have theirs (other : NetPeer) (foreign : before.transport.peer.value ≠ some other) :
      hellosOn other after.sent = hellosOn other before.sent := by
    rw [sent, hellosOn_other _ (.inl (peer ▸ foreign))]
  have alike (other : NetPeer) (current : before.transport.peer.value = some other) :
      ∀ said ∈ hellosOn other after.sent, said.packet = .hello (NetClient.helloOf options) := by
    obtain ⟨held, chosenBefore, packets⟩ := greeting.own other current
    rw [chosen, Option.some.injEq] at chosenBefore
    subst chosenBefore
    intro said member
    rw [ours other current] at member
    rcases List.mem_append.mp member with old | new
    · exact packets said old
    · rw [List.mem_singleton.mp new, packet]
  -- Every clause about another peer is the old one; the current peer has one datagram more, under the same options.
  exact {
    spaced := fun other => by
      by_cases current : before.transport.peer.value = some other
      · rw [ours other current, List.pairwise_append]
        refine ⟨greeting.spaced other, List.pairwise_singleton _ _, fun earlier member later new => ?_⟩
        rw [List.mem_singleton.mp new]
        exact rested other current earlier member
      · rw [theirs other current]
        exact greeting.spaced other
    alike := fun other => by
      by_cases current : before.transport.peer.value = some other
      · exact ⟨_, alike other current⟩
      · rw [theirs other current]
        exact greeting.alike other
    known := fun other said => by
      rw [opened]
      by_cases current : before.transport.peer.value = some other
      · exact newest other current
      · exact greeting.known other (theirs other current ▸ said)
    unsaid := fun other _ connecting => by rw [status] at connecting; cases connecting
    paced := fun other current _ said member => by
      rw [slot] at current
      rw [ours other current] at member
      rcases List.mem_append.mp member with old | new
      · exact (paced other current said old).trans last
      · rw [List.mem_singleton.mp new]
        exact last
    own := fun other current => by
      rw [slot] at current
      exact ⟨options, same.trans chosen, alike other current⟩ }

end Client

/-! The operations. -/
section Operations
variable {F N : Type} [Library N] [EnvelopeCodec F]

/-- Sending never sets the clock back. -/
def ClockForward (N : Type) [Library N] : Prop :=
  ∀ (library : N) (peer : NetPeer) (data : Bytes) (after : N),
    Library.send library peer data = some after → Library.nowMs library ≤ Library.nowMs after

omit [EnvelopeCodec F] in
theorem send_clock (forward : ClockForward N) {transport after : LiteNetLibTransport N} {bytes : Bytes}
    (sent : transport.send bytes = some after) :
    Library.nowMs transport.manager ≤ Library.nowMs after.manager := by
  unfold LiteNetLibTransport.send at sent
  split at sent
  · cases sent
    exact le_rfl
  · rename_i peer _
    split at sent
    · cases sent
    · rename_i manager handed
      cases sent
      exact forward _ peer bytes manager handed

omit [EnvelopeCodec F] in
theorem endHandshakeAttempt_greeting {client : NetClient F N} (greeting : Greeting client) :
    Greeting client.endHandshakeAttempt :=
  greeting.ended (dropPeer_slot _) rfl fun peer member => by
    rw [show client.endHandshakeAttempt.transport.opened = client.transport.opened from dropPeer_opened _]
    exact member

theorem sendHello_greeting (forward : ClockForward N) {client : NetClient F N} (coherent : Coherent client)
    (greeting : Greeting client) (handshaking : client.status = .handshaking)
    (rested : ∀ peer, client.transport.peer.value = some peer → ∀ earlier ∈ hellosOn peer client.sent,
      earlier.atMs + helloRetryMs ≤ client.nowMs) : Greeting client.sendHello.2 := by
  unfold NetClient.sendHello
  cases chosen : client.options with
  | none => exact greeting
  | some options =>
      have numbered : Greeting client.nextSeq :=
        greeting.still rfl (fun _ => rfl) rfl (.inl rfl) rfl rfl
      rcases sendRaw_cases client.nextSeq (.hello (NetClient.helloOf options)) with
        failed | ⟨bytes, transport, handed, sent⟩
      · simp only [failed]
        exact endHandshakeAttempt_greeting numbered
      · obtain ⟨slot, opened⟩ := send_frame handed
        simp only [sent]
        have spaced : ∀ peer, client.nextSeq.transport.peer.value = some peer →
            ∀ earlier ∈ hellosOn peer client.nextSeq.sent,
              Spaced earlier (client.nextSeq.datagram (.hello (NetClient.helloOf options))) := rested
        refine numbered.said spaced slot opened handshaking chosen rfl rfl rfl rfl
          (send_clock forward handed) (fun peer current => ?_) fun peer current earlier member => ?_
        · exact List.mem_of_getLast? (coherent.newest peer current)
        · have rest := rested peer current earlier member
          unfold helloRetryMs at rest
          exact (by omega : earlier.atMs ≤ client.nowMs)

theorem sendClientState_greeting {client : NetClient F N} (greeting : Greeting client) (pose : BoatPose F) :
    Greeting (client.sendClientState pose) := by
  unfold NetClient.sendClientState
  cases client.handshakeComplete with
  | false => exact greeting
  | true =>
      have numbered : Greeting client.nextSeq :=
        greeting.still rfl (fun _ => rfl) rfl (.inl rfl) rfl rfl
      simp only [Bool.not_true, Bool.false_eq_true, if_false]
      rcases sendRaw_cases client.nextSeq (.state (NetClient.stateOf pose (UInt32.ofInt client.nowMs))) with
        failed | ⟨bytes, transport, handed, sent⟩
      · rw [failed]
        exact numbered
      · obtain ⟨slot, opened⟩ := send_frame handed
        rw [sent]
        exact numbered.still slot (fun _ => hellosOn_other _ (.inr rfl)) opened (.inl rfl) rfl rfl

theorem onPeerConnected_greeting (forward : ClockForward N) {client : NetClient F N} (coherent : Coherent client)
    (greeting : Greeting client) : Greeting client.onPeerConnected := by
  unfold NetClient.onPeerConnected
  by_cases connecting : client.status = .connecting
  swap
  · rw [if_pos connecting]
    exact greeting
  rw [if_neg (not_not.mpr connecting)]
  have shaking : Greeting { client with status := ConnectionStatus.handshaking } := {
    spaced := greeting.spaced
    alike := greeting.alike
    known := greeting.known
    unsaid := nofun
    paced := fun peer current _ => by simp [greeting.unsaid peer current connecting]
    own := greeting.own }
  have held : Coherent { client with status := ConnectionStatus.handshaking } :=
    ⟨by simpa [connecting] using coherent.ended, coherent.newest⟩
  refine sendHello_greeting forward held shaking rfl fun peer current earlier member => ?_
  rw [greeting.unsaid peer current connecting] at member
  cases member

omit [EnvelopeCodec F] in
theorem openPeer_greeting {client : NetClient F N} (idle : Idle client) (greeting : Greeting client)
    (unused : client.openPeer.transport.opened.Nodup) : Greeting client.openPeer := by
  obtain ⟨disconnected, empty⟩ := idle
  unfold NetClient.openPeer at unused ⊢
  cases chosen : client.options with
  | none => exact greeting
  | some options =>
      cases running : client.transport.isRunning with
      | false => exact greeting.ended empty rfl fun _ member => member
      | true =>
          simp only [chosen, running, Bool.not_true, Bool.false_eq_true, if_false] at unused ⊢
          rcases connect_cases client.transport empty options.host options.port connectKey with
            ⟨after, failed, slot, opened⟩ | ⟨after, peer, present, slot, opened⟩
          · simp only [failed]
            exact greeting.ended slot rfl fun _ member => opened ▸ member
          · simp only [present] at unused ⊢
            rw [opened, List.nodup_append] at unused
            refine greeting.fresh (fun known => ?_) slot rfl
              (fun _ member => opened ▸ List.mem_append_left [peer] member) rfl
            exact unused.2.2 peer known peer (List.mem_singleton_self _) rfl

omit [EnvelopeCodec F] in
theorem startTransportAndOpenPeer_greeting {client : NetClient F N} (idle : Idle client) (greeting : Greeting client)
    (unused : client.startTransportAndOpenPeer.transport.opened.Nodup) :
    Greeting client.startTransportAndOpenPeer := by
  unfold NetClient.startTransportAndOpenPeer at unused ⊢
  cases running : client.transport.isRunning with
  | true =>
      simp only [running, if_true] at unused ⊢
      exact openPeer_greeting idle greeting unused
  | false =>
      simp only [running, Bool.false_eq_true, if_false, LiteNetLibTransport.start] at unused ⊢
      generalize Library.start client.transport.manager = outcome at unused ⊢
      obtain ⟨started, manager⟩ := outcome
      cases started with
      | false => exact greeting.ended idle.2 rfl fun _ member => member
      | true =>
          have brought : Greeting (client.meets manager) :=
            greeting.still rfl (fun _ => rfl) rfl (.inl rfl) rfl rfl
          exact openPeer_greeting idle brought unused

section Entries
variable [Platform F]

omit [EnvelopeCodec F] in
theorem connect_greeting {client : NetClient F N} (coherent : Coherent client) (greeting : Greeting client)
    (options : ConnectOptions) (unused : (client.connect options).transport.opened.Nodup) :
    Greeting (client.connect options) := by
  unfold NetClient.connect at unused ⊢
  by_cases under : client.status = .connecting ∧ client.options.map (·.object) = some options.object
  · rw [if_pos under]
    exact greeting
  · rw [if_neg under] at unused ⊢
    obtain ⟨abandoned, idle⟩ := abandoned_idle coherent
    have same : (if client.status = .disconnected then client
        else { client with status := .disconnected, transport := client.transport.dropPeer }).sent = client.sent := by
      split <;> rfl
    generalize (if client.status = .disconnected then client
      else { client with status := .disconnected, transport := client.transport.dropPeer }) = dropped
      at abandoned idle same unused ⊢
    have quiet : Greeting dropped :=
      greeting.ended idle.2 same fun _ member => abandoned.opened.subset member
    have afresh : Greeting (NetClient.resetSession
        { dropped with options := some options, reconnectBackoffMs := defaultReconnectMs }) :=
      quiet.ended idle.2 rfl fun _ member => member
    exact startTransportAndOpenPeer_greeting idle afresh unused

omit [Platform F] [EnvelopeCodec F] in
theorem onServerHello_greeting {client : NetClient F N} (greeting : Greeting client) (hello : Net.ServerHello F) :
    Greeting (client.onServerHello hello) := by
  have ended := endHandshakeAttempt_greeting greeting
  unfold NetClient.onServerHello
  split
  · exact greeting
  split
  · exact ended
  split
  · exact ended
  split
  · exact ended
  unfold NetClient.applyClock
  split
  · exact greeting.still rfl (fun _ => rfl) rfl (.inr rfl) rfl rfl
  · exact greeting.still rfl (fun _ => rfl) rfl (.inr rfl) rfl rfl

theorem onNetworkReceive_greeting {client : NetClient F N} (greeting : Greeting client) (data : Bytes) :
    Greeting (client.onNetworkReceive data) := by
  have cached (client : NetClient F N) (greeting : Greeting client) (players : List (PlayerState F))
      (boats : List (BoatState F)) : Greeting (client.ingest players boats) := by
    obtain ⟨cache, same⟩ := ingest_cache client players boats
    rw [same]
    exact greeting.recached cache
  unfold NetClient.onNetworkReceive
  split
  · exact greeting
  · exact onServerHello_greeting greeting _
  · exact cached { client with cache := client.cache.observeServerTick _ } (greeting.recached _) _ _
  · exact greeting
  · exact cached _ greeting _ _
  · exact greeting.still rfl (fun _ => rfl) rfl (.inl rfl) rfl rfl
  · exact greeting

theorem raise_greeting (forward : ClockForward N) {client : NetClient F N} (coherent : Coherent client)
    (greeting : Greeting client) (event : NetEvent) : Greeting (client.raise event) := by
  cases event with
  | networkError => exact greeting
  | peerConnected named =>
      simp only [NetClient.raise]
      split
      · exact onPeerConnected_greeting forward coherent greeting
      · exact greeting
  | peerDisconnected named =>
      simp only [NetClient.raise, CurrentPeerSlot.tryClear]
      cases client.transport.peer.isCurrent named with
      | false => exact greeting
      | true => exact greeting.ended rfl rfl fun _ member => member
  | networkReceive named data =>
      simp only [NetClient.raise]
      split
      · exact onNetworkReceive_greeting greeting data
      · exact greeting

omit [Platform F] in
theorem serviceTimers_greeting (forward : ClockForward N) {client : NetClient F N} (coherent : Coherent client)
    (greeting : Greeting client) (unused : client.serviceTimers.transport.opened.Nodup) :
    Greeting client.serviceTimers := by
  unfold NetClient.serviceTimers at unused ⊢
  dsimp only at unused ⊢
  refine Greeting.recached ?_ _
  by_cases retry : client.status = .handshaking ∧ helloRetryMs ≤ client.nowMs - client.lastHelloMs
  · rw [if_pos retry]
    refine sendHello_greeting forward coherent greeting retry.1 fun peer current earlier member => ?_
    have paced := greeting.paced peer current retry.1 earlier member
    have due := retry.2
    omega
  · rw [if_neg retry] at unused ⊢
    by_cases due : client.status = .disconnected ∧ client.options.isSome ∧ client.nextReconnectMs ≤ client.nowMs
    · rw [if_pos due] at unused ⊢
      exact startTransportAndOpenPeer_greeting (coherent.idle due.1) greeting unused
    · rw [if_neg due]
      exact greeting

theorem enter_greeting (forward : ClockForward N) {client : NetClient F N} (coherent : Coherent client)
    (greeting : Greeting client) (entry : Entry F) (unused : (enter client entry).transport.opened.Nodup) :
    Greeting (enter client entry) := by
  cases entry with
  | connect options => exact connect_greeting coherent greeting options unused
  | raise event => exact raise_greeting forward coherent greeting event
  | serviceTimers => exact serviceTimers_greeting forward coherent greeting unused
  | sendClientState pose => exact sendClientState_greeting greeting pose
  | dispose => exact greeting.ended rfl rfl fun _ member => member

theorem play_greeting (forward : ClockForward N) {client : NetClient F N} (coherent : Coherent client)
    (greeting : Greeting client) (moments : List (ClientSession.Moment F N))
    (unused : (play client moments).transport.opened.Nodup) : Greeting (play client moments) := by
  induction moments generalizing client with
  | nil => exact greeting
  | cons moment rest ih =>
      have met := coherent_meets coherent moment.library
      have still : Greeting (client.meets moment.library) :=
        greeting.still rfl (fun _ => rfl) rfl (.inl rfl) rfl rfl
      obtain ⟨tame, -, -⟩ := enter_cases met moment.entry
      have entered := tame.coherent met
      have first : (enter (client.meets moment.library) moment.entry).transport.opened.Nodup :=
        unused.sublist (play_coherent entered rest).2.opened.sublist
      exact ih entered (enter_greeting forward met still moment.entry first) unused

omit [Library N] [EnvelopeCodec F] in
theorem greeting_new (manager : N) : Greeting (NetClient.new manager : NetClient F N) := by
  have silent (peer : NetPeer) : hellosOn peer (NetClient.new manager : NetClient F N).sent = [] := rfl
  have alone : (NetClient.new manager : NetClient F N).transport.peer.value = none := rfl
  exact {
    spaced := fun peer => by simp [silent]
    alike := fun peer => ⟨⟨0, none, none, none, none, none⟩, by simp [silent]⟩
    known := fun peer said => absurd (silent peer) said
    unsaid := fun peer _ _ => silent peer
    paced := fun peer _ _ => by simp [silent]
    own := fun peer current => by rw [alone] at current; cases current }

/-- The hellos of one attempt are the same hello, sent again after the retry interval. -/
theorem performAll_greeting (forward : ClockForward N) (manager : N) (turns : List (Turn F N))
    (unused : ((NetClient.new manager : NetClient F N).performAll turns).transport.opened.Nodup) :
    Greeting ((NetClient.new manager : NetClient F N).performAll turns) := by
  rw [performAll_play] at unused ⊢
  exact play_greeting forward (coherent_new manager) (greeting_new manager) _ unused

end Entries

end Operations

/-! Both sides. -/
section Recovery
open Server SessionRuns Effects Traces LimiterKeys HelloThrottle HelloAnswers AdmissionSpacing HelloSizes

variable {F N : Type} [Platform F] [EnvelopeCodec F] [Codec F]

/-- The time and the bytes of a hello of `peer` that a stage handles. -/
def helloArrival (peer : PeerId) (stage : Stage F) : Option (Int × Bytes) :=
  match stage.action with
  | .handle moment (.data speaker bytes) =>
    match Codec.decode (F := F) bytes with
    | some (.hello _) => if speaker = peer then some (moment.admissionMs.toInt, bytes) else none
    | _ => none
  | _ => none

def arrival (delay : Int) (datagram : Sent F) : Int × Bytes :=
  (datagram.atMs + delay, EnvelopeCodec.encode datagram.seq datagram.packet)

/-- The hellos the server hears of `peer` in the stages are hellos of one attempt of the client, in order
and each after the same delay; the server reads them as they were written. -/
structure Delivered (client : NetClient F N) (attempt : NetPeer) (delay : Int) (peer : PeerId)
    (stages : List (Stage F)) : Prop where
  inOrder : (stages.filterMap (helloArrival peer)).Sublist ((hellosOn attempt client.sent).map (arrival delay))
  read : ∀ datagram ∈ hellosOn attempt client.sent,
    Codec.decode (EnvelopeCodec.encode datagram.seq datagram.packet) = some datagram.packet

omit [EnvelopeCodec F] in
theorem helloArrival_spoken {peer : PeerId} {stage : Stage F} {moment : Moment} {bytes : Bytes} {hello : ClientHello}
    (spoken : stage.action = .handle moment (.data peer bytes))
    (decoded : Codec.decode (F := F) bytes = some (.hello hello)) :
    helloArrival peer stage = some (moment.admissionMs.toInt, bytes) := by
  simp [helloArrival, spoken, decoded]

section Spacing
variable {client : NetClient F N} {attempt : NetPeer} {delay : Int} {peer : PeerId} {stages later : List (Stage F)}
  {stage : Stage F} {moment : Moment} {bytes : Bytes} {hello : ClientHello}

/-- A hello that arrives is the hello of the attempt. -/
theorem Delivered.packet (delivered : Delivered client attempt delay peer stages) (member : stage ∈ stages)
    (spoken : stage.action = .handle moment (.data peer bytes))
    (decoded : Codec.decode (F := F) bytes = some (.hello hello)) :
    ∃ datagram ∈ hellosOn attempt client.sent, datagram.packet = .hello hello := by
  have arrives : (moment.admissionMs.toInt, bytes) ∈ stages.filterMap (helloArrival peer) :=
    List.mem_filterMap.mpr ⟨stage, member, helloArrival_spoken spoken decoded⟩
  obtain ⟨datagram, sent, same⟩ := List.mem_map.mp (delivered.inOrder.subset arrives)
  have written : EnvelopeCodec.encode datagram.seq datagram.packet = bytes := congrArg Prod.snd same
  have read := delivered.read datagram sent
  rw [written, decoded, Option.some.injEq] at read
  exact ⟨datagram, sent, read.symm⟩

/-- An arrival is a retry interval later than every earlier one. -/
theorem Delivered.spaced (delivered : Delivered client attempt delay peer (stages ++ stage :: later))
    (greeting : Greeting client) (spoken : stage.action = .handle moment (.data peer bytes))
    (decoded : Codec.decode (F := F) bytes = some (.hello hello)) {earlier : Stage F} {time : Moment}
    (member : earlier ∈ stages) (heard : SaysHello earlier peer time) :
    time.admissionMs.toInt + helloRetryMs ≤ moment.admissionMs.toInt := by
  have apart : ((hellosOn attempt client.sent).map (arrival delay)).Pairwise
      fun first second => first.1 + helloRetryMs ≤ second.1 := by
    rw [List.pairwise_map]
    refine (greeting.spaced attempt).imp fun {first second} spaced => ?_
    simp only [arrival, Spaced] at spaced ⊢
    omega
  have arrivals := apart.sublist delivered.inOrder
  rw [List.filterMap_append, List.filterMap_cons_some (helloArrival_spoken spoken decoded),
    List.pairwise_append] at arrivals
  obtain ⟨said, told, action, read⟩ := heard
  exact arrivals.2.2 _ (List.mem_filterMap.mpr ⟨earlier, member, helloArrival_spoken action read⟩) _
    List.mem_cons_self

end Spacing

omit [EnvelopeCodec F] [Codec F] in
theorem hello_interval_le (cfg : ValidConfig F) : cfg.helloMinIntervalMsI64.toInt ≤ helloRetryMs := by
  have bounds : 1 ≤ cfg.helloMinIntervalMsNat ∧ cfg.helloMinIntervalMsNat ≤ 250 := by
    simp only [Config.helloMinIntervalMsNat, clampNat, minHelloMinIntervalMs, maxHelloMinIntervalMs]
    omega
  have exact := (measures_millis bounds.1 (by unfold maxTradeMinIntervalMs; omega)).exact
  unfold Config.helloMinIntervalMsI64 helloRetryMs
  omega

/-- The transport sends the datagram to a connected peer. -/
theorem sendUnreliable_sends {host : Host} {peer : PeerId} {addr : SocketAddr} {bytes : Bytes}
    (live : host.peerAddr peer = some addr) (short : bytes.length ≤ payloadLimit) :
    ∃ packet, host.sendUnreliable peer bytes true = .ok (.ok (some (addr, packet))) := by
  obtain ⟨found, present, -⟩ := HostIndex.peer_of_peerAddr live
  refine ⟨WireProtocol.buildUnreliable found.connectionNumber bytes, ?_⟩
  have within : ¬ bytes.length > WireProtocol.mtu - WireProtocol.headerSize := not_lt.mpr short
  simp only [Host.sendUnreliable, within, live, present, if_true, if_false]

variable [Library N] {db : Persistence.Db F} {server : Server F} {pending : List Event} {peer : PeerId}
  {session : Session F} {early middle rest : List (Stage F)} {opening resend : Stage F} {moment : Moment}
  {bytes : Bytes} {hello : ClientHello} {attempt : NetPeer} {delay : Int} {acceptedSize : Nat → Nat}
  {refusedSize : Nat → Nat → Nat}

/-- A hello sent again after the server has opened the session, and while it keeps it, passes the throttle
and is answered from the session, whatever became of the earlier answers; and if the server's name leaves room
for an acceptance, the answer is sent. -/
theorem lost_hello_recovered (forward : ClockForward N) (manager : N) (turns : List (Turn F N))
    (unused : ((NetClient.new manager : NetClient F N).performAll turns).transport.opened.Nodup)
    (run : Run db (early ++ opening :: (middle ++ resend :: rest)) server pending)
    (delivered : Delivered ((NetClient.new manager : NetClient F N).performAll turns) attempt delay peer
      (opening :: (middle ++ resend :: rest)))
    (vacant : opening.before.sessions.get? peer = none) (created : opening.after.sessions.get? peer = some session)
    (lasting : ∀ stage ∈ middle, (stage.after.sessions.get? peer).isSome)
    (spoken : resend.action = .handle moment (.data peer bytes))
    (decoded : Codec.decode (F := F) bytes = some (.hello hello))
    (sized : Sized F acceptedSize refusedSize) :
    (resend.before.helloLimiter.allow (UInt64.ofNat peer) moment.admissionMs).2 = true ∧
      (moment.fails 0 = false → acceptedSize resend.before.cfg.serverName.utf8ByteSize ≤ payloadLimit →
        ∃ reply : ServerHello F, reply.accepted = true ∧ reply.playerId = session.playerId ∧
          resend.after.sent =
            resend.before.sent ++ [(peer, { seq := resend.before.seq + 1, payload := .serverHello reply })] ∧
          ∀ addr, resend.before.host.peerAddr peer = some addr →
            ∃ packet, resend.after.host.sendUnreliable peer
              (Codec.encode { seq := resend.before.seq + 1, payload := .serverHello reply }) true =
                .ok (.ok (some (addr, packet)))) := by
  have greeting := performAll_greeting forward manager turns unused
  generalize (NetClient.new manager : NetClient F N).performAll turns = client at greeting delivered
  -- The server just before it handles the hello again.
  have whole := run
  rw [← List.cons_append, ← List.append_assoc] at whole
  obtain ⟨waiting, through⟩ := whole.upto
  obtain ⟨earlier, before, lawful, -, -, -⟩ := through.unsnoc_pending
  obtain ⟨⟨time, held, first, member, at_, heard, learned⟩, cfg, last, found, own⟩ :=
    run_remembers before vacant created lasting
  have admitted : (resend.before.helloLimiter.allow (UInt64.ofNat peer) moment.admissionMs).2 = true := by
    have gap := delivered.spaced greeting spoken decoded member heard
    have interval := hello_interval_le resend.before.cfg
    refine allow_after held ?_
    rw [run_interval before, ← learned]
    omega
  refine ⟨admitted, fun stored named => ?_⟩
  -- The hello that opened the session is the same hello.
  obtain ⟨rest', opens⟩ := run.upto
  obtain ⟨⟨start, said, same, action, read, opened⟩, -⟩ := opening_remembers opens vacant created
  obtain ⟨spelling, alike⟩ := greeting.alike attempt
  obtain ⟨one, oneSent, onePacket⟩ := delivered.packet List.mem_cons_self action read
  obtain ⟨two, twoSent, twoPacket⟩ := delivered.packet (by simp) spoken decoded
  have equal : hello = same := by
    have left := (alike two twoSent).symm.trans twoPacket
    have right := (alike one oneSent).symm.trans onePacket
    rw [left, ClientMessage.hello.injEq] at right
    exact right
  obtain ⟨token, name, valid, hash⟩ := opened.read
  have audible : Audible resend.before moment peer hello token name :=
    ⟨admitted, equal ▸ opened.version, by rw [cfg, equal]; exact valid⟩
  have identity : tokenHash token = last.identityHash := hash.trans (congrArg Prod.snd own).symm
  obtain ⟨reply, greets, done⟩ := repeat_accepted audible found identity stored
  have handled : resend.after = (resend.before.onHelloAt moment peer hello).1 := by
    obtain ⟨server, act, after⟩ := resend
    replace spoken : act = .handle moment (.data peer bytes) := spoken
    subst spoken
    replace lawful : after = (server.handleEvent moment (.data peer bytes)).1 := lawful
    rw [lawful]
    simp only [handleEvent, handleDataAt, decoded]
  have sent : resend.after.sent =
      resend.before.sent ++ [(peer, { seq := resend.before.seq + 1, payload := .serverHello reply })] := by
    rw [handled, done]
    rfl
  refine ⟨reply, greets.accepted, greets.playerId.trans (congrArg Prod.fst own :), sent, fun addr live => ?_⟩
  have host : resend.after.host = resend.before.host := by
    rw [handled, done]
    rfl
  have short : (Codec.encode ({ seq := resend.before.seq + 1, payload := .serverHello reply } : Envelope F)).length ≤
      payloadLimit := by
    have answer : (resend.before.onHelloAt moment peer hello).1.sent = _ := (congrArg Server.sent handled.symm).trans sent
    rw [accepted_answer answer greets.accepted]
    exact accepted_short sized named _ _ _ _
  rw [host]
  exact sendUnreliable_sends live short

end Recovery

/-! A hello sent twice, a quarter of a second apart, with the first answer lost. -/
section Twice
open Server SessionRuns Traces HelloSizes

def keenOptions : ConnectOptions :=
  { object := 0, host := "127.0.0.1", port := 38455, displayName := "sailor", token := "first", gameBuild := ""
    modVersion := "", apiSurfaceHash := "hash" }

local instance keenCodec : EnvelopeCodec Int where
  encode seq _ := [seq.toUInt8]
  tryDispatch _ := none

local instance keenHelloCodec : Codec Int where
  encode := layoutBytes
  decode bytes := if bytes = [1] ∨ bytes = [2] then some (.hello (NetClient.helloOf keenOptions)) else none

def keenTurns : List (Turn Int Bench) :=
  [⟨⟨0, false, 0⟩, .connect keenOptions⟩, benchTurn 10 1 [.peerConnected (some 1)], benchTurn 260 1 []]

def keenClient : NetClient Int Bench := (NetClient.new ⟨0, false, 0⟩).performAll keenTurns

def keenScript : List SocketTurn :=
  let request := WireProtocol.buildConnectRequest 0 7 0 16 (WireProtocol.writeLitenetString "sailwind-online")
  [datagramFrom 1 request, datagramFrom 1 [0, 1], datagramFrom 1 [0, 2]]

def boardingStages : List (Stage Int) :=
  [⟨freshServer, .poll 0 keenScript, scriptedServer keenScript⟩,
    ⟨scriptedServer keenScript, .handle (calmAt 0) (.connected 1), scriptedServer keenScript⟩]

def welcomedServer : Server Int := ((scriptedServer keenScript).handleEvent (calmAt 1000) (.data 1 [1])).1

def firstHello : Stage Int :=
  ⟨scriptedServer keenScript, .handle (calmAt 1000) (.data 1 [1]), welcomedServer⟩

def secondHello : Stage Int :=
  ⟨welcomedServer, .handle (calmAt 1250) (.data 1 [2]), (welcomedServer.handleEvent (calmAt 1250) (.data 1 [2])).1⟩

theorem keenClient_hellos : hellosOn 1 keenClient.sent = [
    ⟨.handshaking, some 1, 10, 1, .hello (NetClient.helloOf keenOptions)⟩,
    ⟨.handshaking, some 1, 260, 2, .hello (NetClient.helloOf keenOptions)⟩] := rfl

theorem keen_delivered {first second : Stage Int}
    (heard : [first, second].filterMap (helloArrival 1) = (hellosOn 1 keenClient.sent).map (arrival 990)) :
    Delivered keenClient 1 990 1 (first :: ([] ++ second :: [])) where
  inOrder := heard ▸ List.Sublist.refl _
  read := by
    intro datagram member
    rw [keenClient_hellos] at member
    simp only [List.mem_cons, List.not_mem_nil, or_false] at member
    rcases member with rfl | rfl
    · rfl
    · rfl

theorem lost_hello_recovered_twice :
    (welcomedServer.helloLimiter.allow 1 1250).2 = true ∧ ∃ reply : SailwindOnline.ServerHello Int,
      reply.accepted = true ∧ reply.playerId = 1 ∧
      secondHello.after.sent =
        welcomedServer.sent ++ [(1, { seq := welcomedServer.seq + 1, payload := .serverHello reply })] ∧
      ∃ packet, secondHello.after.host.sendUnreliable 1
        (Codec.encode { seq := welcomedServer.seq + 1, payload := .serverHello reply }) true =
          .ok (.ok (some (.v4 1 5000, packet))) := by
  have polled : Run emptyDb _ (scriptedServer keenScript) [.connected 1, .data 1 [1], .data 1 [2]] :=
    scripted_run keenScript (by decide +kernel)
  have run : Run emptyDb (boardingStages ++ firstHello :: ([] ++ secondHello :: [])) secondHello.after [] :=
    .handle (calmAt 1250) (.handle (calmAt 1000) (.handle (calmAt 0) polled))
  have opened : (welcomedServer.sessions.get? 1).map Session.playerId = some 1 := by decide +kernel
  obtain ⟨session, created, player⟩ := Option.map_eq_some_iff.mp opened
  have forward : ClockForward Bench := by
    intro library peer data after handed
    cases handed
    exact le_rfl
  have decoded : Codec.decode [2] = some (.hello (NetClient.helloOf keenOptions) : ClientMessage Int) := rfl
  have live : welcomedServer.host.peerAddr 1 = some (.v4 1 5000) := by decide +kernel
  obtain ⟨admitted, answered⟩ := lost_hello_recovered forward ⟨0, false, 0⟩ keenTurns (by decide) run
    (keen_delivered rfl) (by decide +kernel) created (by simp) rfl decoded (layout_sized layoutBytes_length)
  obtain ⟨reply, accepted, same, posted, sends⟩ := answered rfl (by decide +kernel)
  exact ⟨admitted, reply, accepted, same.trans player, posted, sends _ live⟩

/-! The same client and a server whose name no datagram can carry. -/

def grandServer : Server Int :=
  Server.opened (named freshServer.cfg 2000) emptyDb FiniteMap.empty 0 0

def calledServer : Server Int := polledBy grandServer keenScript

def unheededServer : Server Int := (calledServer.handleEvent (calmAt 1000) (.data 1 [1])).1

def grandStages : List (Stage Int) :=
  [⟨grandServer, .poll 0 keenScript, calledServer⟩, ⟨calledServer, .handle (calmAt 0) (.connected 1), calledServer⟩]

def grandFirst : Stage Int := ⟨calledServer, .handle (calmAt 1000) (.data 1 [1]), unheededServer⟩

def grandSecond : Stage Int :=
  ⟨unheededServer, .handle (calmAt 1250) (.data 1 [2]), (unheededServer.handleEvent (calmAt 1250) (.data 1 [2])).1⟩

/-- The second hello is heard and its answer, like the first one's, is refused by the transport. -/
theorem lost_hello_unanswered :
    Run emptyDb (grandStages ++ grandFirst :: ([] ++ grandSecond :: [])) grandSecond.after [] ∧
      Delivered keenClient 1 990 1 (grandFirst :: ([] ++ grandSecond :: [])) ∧
      calledServer.sessions.get? 1 = none ∧
      (unheededServer.sessions.get? 1).map Session.playerId = some 1 ∧
      (unheededServer.helloLimiter.allow 1 1250).2 = true ∧
      ∀ post ∈ grandSecond.after.sent, ∀ delivered,
        grandSecond.after.host.sendUnreliable post.1 (Codec.encode post.2) delivered =
          .ok (.error .payloadExceedsMtu) := by
  have opened : Run emptyDb [] grandServer [] := .start rfl
  have polled : Run emptyDb _ calledServer [.connected 1, .data 1 [1], .data 1 [2]] :=
    polledBy_run opened keenScript (by decide +kernel)
  have run : Run emptyDb (grandStages ++ grandFirst :: ([] ++ grandSecond :: [])) grandSecond.after [] :=
    .handle (calmAt 1250) (.handle (calmAt 1000) (.handle (calmAt 0) polled))
  refine ⟨run, keen_delivered rfl, by decide +kernel, by decide +kernel, by decide +kernel, ?_⟩
  intro post member delivered
  have called : calledServer.sent = [] ∧ calledServer.cfg = named freshServer.cfg 2000 := by
    unfold calledServer polledBy
    split <;> exact ⟨rfl, rfl⟩
  have greeted : grandFirst.Lawful := rfl
  have same : unheededServer.cfg = calledServer.cfg := TickEffects.lawful_cfg (Run.handle (calmAt 0) polled).inv greeted
  -- Whatever the two handlers posted is an answer with the server's name in it.
  have answer : ∃ seq reply, post.2 = { seq, payload := .serverHello reply } ∧
      reply.serverName = (named freshServer.cfg 2000).serverName := by
    rcases @answer_named _ _ unheededServer 1 (calmAt 1250) (NetClient.helloOf keenOptions) post member
      with earlier | answer
    · rcases @answer_named _ _ calledServer 1 (calmAt 1000) (NetClient.helloOf keenOptions) post earlier
        with silent | answer
      · rw [called.1] at silent
        cases silent
      · rwa [called.2] at answer
    · rwa [same, called.2] at answer
  obtain ⟨seq, reply, written, name⟩ := answer
  have long : payloadLimit < reply.serverName.utf8ByteSize := by
    have letters : reply.serverName.utf8ByteSize = 2000 := by
      rw [name]
      exact repeated_size 2000
    rw [letters]
    decide
  rw [written]
  exact layoutBytes_refused long _ _ _ _

end Twice

end SailwindOnline.HelloResends
