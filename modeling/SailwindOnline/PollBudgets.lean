import SailwindOnline.Framing
import SailwindOnline.ConnectRequests

/-!
What a poll of the host may cost, whoever is on the other end of the socket.
A datagram raises at most two events and is answered by at most one datagram,
so the budgets that `poll_with_work` asserts hold of every poll. Whoever never
becomes a peer gets nothing but refusals of one byte, one at most for each
request of his own, so the host cannot be made to flood an address.
-/

namespace SailwindOnline.PollBudgets
open WireProtocol Framing Host PollState HostIndex HostPoll ConnectRequests

def maxPollSocketEvents : Nat := maxPollPackets * 2

def maxPollEvents : Nat := maxPollSocketEvents + maxPollTimeoutEvents

/-- What a stretch of work read from the socket, handed to it, and raised. -/
structure Traffic where
  heard : List (SocketAddr × Bytes) := []
  sent : List (SocketAddr × Bytes) := []
  events : List (Event × SocketAddr) := []

def Traffic.append (early late : Traffic) : Traffic :=
  { heard := early.heard ++ late.heard
    sent := early.sent ++ late.sent
    events := early.events ++ late.events }

/-- The packets of one address. -/
def ofAddr (addr : SocketAddr) (datagrams : List (SocketAddr × Bytes)) : List Bytes :=
  (datagrams.filter fun datagram => datagram.1 = addr).map Prod.snd

def totalBytes (packets : List Bytes) : Nat := (packets.map List.length).sum

theorem ofAddr_append (addr : SocketAddr) (early late : List (SocketAddr × Bytes)) :
    ofAddr addr (early ++ late) = ofAddr addr early ++ ofAddr addr late := by
  simp [ofAddr]

theorem ofAddr_own (addr : SocketAddr) (packets : List Bytes) : ofAddr addr (packets.map (Prod.mk addr)) = packets := by
  induction packets with
  | nil => rfl
  | cons packet rest ih => simp_all [ofAddr]

theorem ofAddr_other {addr other : SocketAddr} (apart : addr ≠ other) (packets : List Bytes) :
    ofAddr other (packets.map (Prod.mk addr)) = [] := by
  simp [ofAddr, apart]

@[simp] theorem totalBytes_append (early late : List Bytes) :
    totalBytes (early ++ late) = totalBytes early + totalBytes late := by
  simp [totalBytes]

/-- The one packet of the host that goes to somebody it keeps no session for. -/
def refusal : Bytes := buildControl Property.invalidProtocol

/-- No packet below this length parses as a connect request. -/
def shortestRequest : Nat := connectRequestHeaderSize + 16

theorem shortestRequest_le {request : ConnectRequest} {data : Bytes} (parsed : parseConnectRequest data = some request) :
    shortestRequest ≤ data.length := by
  have formed := wellFormed_of_parse (Option.isSome_of_eq_some parsed)
  have address := formed.address
  rcases formed.size with size | size <;> rw [size] at address
  · exact address
  · exact Nat.le_trans (by decide) address

/-- Answers that are all refusals, one at most for each request heard. -/
structure ToldOff (answers heard : List Bytes) : Prop where
  refusals : ∀ packet ∈ answers, packet = refusal
  answered : answers.length ≤ heard.length
  bytes : shortestRequest * answers.length ≤ totalBytes heard

namespace ToldOff

theorem silence (heard : List Bytes) : ToldOff [] heard where
  refusals := by simp
  answered := Nat.zero_le _
  bytes := Nat.zero_le _

theorem append {answers heard answers' heard' : List Bytes} (early : ToldOff answers heard)
    (late : ToldOff answers' heard') : ToldOff (answers ++ answers') (heard ++ heard') where
  refusals packet member := (List.mem_append.mp member).elim (early.refusals packet) (late.refusals packet)
  answered := by
    rw [List.length_append, List.length_append]
    exact Nat.add_le_add early.answered late.answered
  bytes := by
    rw [List.length_append, totalBytes_append, Nat.mul_add]
    exact Nat.add_le_add early.bytes late.bytes

end ToldOff

/-- A peer of the host, or an address that has connected since. -/
def Known (host : Host) (events : List (Event × SocketAddr)) (addr : SocketAddr) : Prop :=
  host.peers.get? addr ≠ none ∨ ∃ id, (.connected id, addr) ∈ events

theorem Known.earlier {host : Host} {events : List (Event × SocketAddr)} {addr : SocketAddr}
    (known : Known host events addr) (late : List (Event × SocketAddr)) : Known host (events ++ late) addr := by
  rcases known with live | ⟨id, opened⟩
  · exact Or.inl live
  · exact Or.inr ⟨id, List.mem_append_left late opened⟩

/-- The peers at the end are accounted for, and nobody else was sent more than refusals. -/
structure Accounts (host : Host) (traffic : Traffic) (after : Host) : Prop where
  live : ∀ addr, after.peers.get? addr ≠ none → Known host traffic.events addr
  spared : ∀ addr, ¬ Known host traffic.events addr → ToldOff (ofAddr addr traffic.sent) (ofAddr addr traffic.heard)

namespace Accounts
variable {host middle after : Host}

/-- Where nothing is sent and nobody connects, the peers are among the old ones. -/
theorem quiet (fewer : ∀ addr, after.peers.get? addr ≠ none → host.peers.get? addr ≠ none)
    (heard : List (SocketAddr × Bytes)) (events : List (Event × SocketAddr)) : Accounts host { heard, events } after where
  live addr found := Or.inl (fewer addr found)
  spared _ _ := ToldOff.silence _

theorem trans {early late : Traffic} (first : Accounts host early middle) (second : Accounts middle late after) :
    Accounts host (early.append late) after := by
  -- An address known to the second stretch was live in the middle or connected within it.
  have known : ∀ addr, Known middle late.events addr → Known host (early.append late).events addr := by
    intro addr found
    rcases found with live | ⟨id, opened⟩
    · exact (first.live addr live).earlier late.events
    · exact Or.inr ⟨id, List.mem_append_right early.events opened⟩
  constructor
  · intro addr found
    exact known addr (second.live addr found)
  · intro addr stranger
    have before := first.spared addr fun found => stranger (found.earlier late.events)
    have since := second.spared addr fun found => stranger (known addr found)
    simp only [Traffic.append, ofAddr_append]
    exact before.append since

end Accounts

/-! One datagram. -/
section Datagrams
variable {state after : PollState} {addr : SocketAddr} {now : Instant} {data : Bytes}

def isData : Event × SocketAddr → Bool
  | (.data _ _, _) => true
  | _ => false

def isTimeout : Event × SocketAddr → Bool
  | (.disconnected _ .timeout, _) => true
  | _ => false

def isPing (packet : Bytes) : Bool := packet.head?.any fun byte => (Header.fromByte byte).property == Property.ping

/-- A header tells its property, whatever the connection number. -/
theorem connected_property {property : UInt8} (known : property < 32) (number : UInt8) :
    (Header.fromByte (Header.connected property number).toByte).property = property := by
  have all : ∀ (kind : Fin 32) (number : Fin 256),
      (Header.fromByte (Header.connected (UInt8.ofNat kind) (UInt8.ofNat number)).toByte).property = UInt8.ofNat kind := by
    decide +kernel
  have own := all ⟨property.toNat, UInt8.lt_iff_toNat_lt.mp known⟩ ⟨number.toNat, number.toNat_lt⟩
  simpa using own

theorem isPing_connected {property : UInt8} (known : property < 32) (number : UInt8) (rest : Bytes) :
    isPing ((Header.connected property number).toByte :: rest) = (property == Property.ping) := by
  simp [isPing, connected_property known]

/-- A datagram of `addr` costs at most two events, one of them `Data`, and one answer, which goes back to `addr`. No
peer times out over it, and none is pinged. -/
structure Serves (data : Bytes) (addr : SocketAddr) (state after : PollState) (packets : List Bytes)
    (events : List (Event × SocketAddr)) : Prop where
  work : after.work = state.work
  sent : after.sent = state.sent ++ packets.map (Prod.mk addr)
  raised : after.events = state.events ++ events
  once : packets.length ≤ 1
  few : events.length ≤ 2
  words : events.countP isData ≤ 1
  awake : events.countP isTimeout = 0
  pingless : packets.countP isPing = 0
  live : ∀ other, after.host.peers.get? other ≠ none → Known state.host events other
  stranger : ¬ Known state.host events addr → packets = [] ∨ packets = [refusal] ∧ shortestRequest ≤ data.length

def Handled (data : Bytes) (addr : SocketAddr) (state after : PollState) : Prop :=
  ∃ packets events, Serves data addr state after packets events

theorem Serves.accounts {packets : List Bytes} {events : List (Event × SocketAddr)}
    (serves : Serves data addr state after packets events) :
    Accounts state.host { heard := [(addr, data)], sent := packets.map (Prod.mk addr), events } after.host := by
  constructor
  · exact serves.live
  · intro other unknown
    by_cases own : addr = other
    · subst own
      have heard : ofAddr addr [(addr, data)] = [data] := ofAddr_own addr [data]
      simp only [ofAddr_own, heard]
      rcases serves.stranger unknown with silent | ⟨refused, long⟩
      · rw [silent]
        exact ToldOff.silence _
      · rw [refused]
        constructor
        · simp
        · exact Nat.le_refl 1
        · simpa [totalBytes] using long
    · rw [ofAddr_other own]
      exact ToldOff.silence _

namespace Handled

/-- A handler that only touches peers and watermarks it already has. -/
theorem kept (peers : ∀ other, after.host.peers.get? other ≠ none → state.host.peers.get? other ≠ none)
    (work : after.work = state.work) (sent : after.sent = state.sent) (events : after.events = state.events) :
    Handled data addr state after := by
  refine ⟨[], [], work, by simp [sent], by simp [events], by decide, by decide, by decide, rfl, rfl, ?_,
    fun _ => Or.inl rfl⟩
  intro other found
  exact Or.inl (peers other found)

theorem refl (data : Bytes) (addr : SocketAddr) (state : PollState) : Handled data addr state state :=
  kept (fun _ found => found) rfl rfl rfl

/-- A peer is answered, and may be heard or leave. -/
theorem peer (packets : List Bytes) (events : List (Event × SocketAddr)) (found : state.host.peers.get? addr ≠ none)
    (peers : ∀ other, after.host.peers.get? other ≠ none → state.host.peers.get? other ≠ none)
    (work : after.work = state.work) (sent : after.sent = state.sent ++ packets.map (Prod.mk addr))
    (raised : after.events = state.events ++ events) (once : packets.length ≤ 1) (few : events.length ≤ 1)
    (awake : events.countP isTimeout = 0) (pingless : packets.countP isPing = 0) :
    Handled data addr state after := by
  have words : events.countP isData ≤ 1 := Nat.le_trans List.countP_le_length few
  refine ⟨packets, events, work, sent, raised, once, by omega, words, awake, pingless, ?_,
    fun stranger => absurd (Or.inl found) stranger⟩
  intro other live
  exact Or.inl (peers other live)

end Handled

theorem modified_live {change : Peer → Peer} {host : Host} (other : SocketAddr)
    (found : (host.peers.modify addr change).get? other ≠ none) : host.peers.get? other ≠ none := by
  rw [FiniteMap.get?_modify] at found
  split at found <;> simp_all

theorem erased_live {host : Host} (other : SocketAddr) (found : (host.peers.erase addr).get? other ≠ none) :
    host.peers.get? other ≠ none := by
  rw [FiniteMap.get?_erase] at found
  split at found
  · exact absurd rfl found
  · exact found

theorem handleUnreliable_handled : Handled data addr state (handleUnreliable data addr now state) := by
  unfold handleUnreliable
  split
  · exact Handled.refl data addr state
  · rename_i peer found
    apply Handled.peer [] [(.data peer.id (data.drop headerSize), addr)]
    · simp [found]
    · exact modified_live
    · rfl
    · simp [raise, modifyPeer]
    · rfl
    · decide
    · exact Nat.le_refl 1
    · rfl
    · rfl

/-- A ping is answered to the peer's own address, which is the one it came from. -/
theorem handlePing_handled {ticks : Int64} (indexed : Indexed state.host) :
    Handled data addr state (handlePing data addr ticks now state) := by
  unfold handlePing
  split
  · exact Handled.refl data addr state
  · split
    · exact Handled.refl data addr state
    · rename_i seq _ _ peer found
      have home : peer.addr = addr := (indexed.identity addr peer found).2
      apply Handled.peer [buildPong peer.connectionNumber seq ticks] []
      · simp [found]
      · exact modified_live
      · rfl
      · simp [send, modifyPeer, home]
      · simp [send, modifyPeer]
      · exact Nat.le_refl 1
      · decide
      · rfl
      · have pong : isPing (buildPong peer.connectionNumber seq ticks) = false :=
          isPing_connected (by decide) peer.connectionNumber _
        simp [pong]

theorem handlePong_handled : Handled data addr state (handlePong data addr now state) := by
  unfold handlePong
  split
  · exact Handled.refl data addr state
  · exact Handled.kept modified_live rfl rfl rfl

theorem handleDisconnect_handled (indexed : Indexed state.host) (done : handleDisconnect data addr state = .ok after) :
    Handled data addr state after := by
  unfold handleDisconnect at done
  split at done
  · cases done
    exact Handled.refl data addr state
  · split at done
    · cases done
      exact Handled.refl data addr state
    · rename_i peer found
      split at done
      · cases done
        exact Handled.refl data addr state
      · obtain ⟨host, left, removed⟩ := removePeerAt_spec indexed found
        simp only [removePeer, send, left] at done
        cases done
        apply Handled.peer [buildControl Property.shutdownOk] [(.disconnected peer.id .remote, addr)]
        · simp [found]
        · intro other live
          simp only [raise, removed.peers] at live
          exact erased_live other live
        · rfl
        · rfl
        · rfl
        · exact Nat.le_refl 1
        · exact Nat.le_refl 1
        · rfl
        · decide

theorem recorded_live {host after : Host} {connectTime : Int64}
    (recorded : host.recordReconnectWatermark addr connectTime now = .ok after) (other : SocketAddr)
    (found : after.peers.get? other ≠ none) : host.peers.get? other ≠ none := by
  obtain ⟨same, done, index⟩ := recordReconnectWatermark_spec host addr connectTime now
  rw [done, Except.ok.injEq] at recorded
  subst recorded
  intro gone
  apply found
  rw [← FiniteMap.not_mem_keys] at gone ⊢
  rw [index.keys_eq]
  exact gone

/-- Only an admission opens a session, and it raises `Connected` for the address it accepts. -/
theorem admitted_handled {request : ConnectRequest} {replaced : Bool} {start : PollState}
    (before : List (Event × SocketAddr)) (admission : Admission request addr now replaced start after) (few : before.length ≤ 1)
    (quiet : before.countP isData = 0) (awake : before.countP isTimeout = 0) (work : after.work = state.work) (sent : start.sent = state.sent)
    (raised : start.events = state.events ++ before)
    (peers : ∀ other, start.host.peers.get? other ≠ none → state.host.peers.get? other ≠ none) :
    Handled data addr state after := by
  cases admission with
  | accepted peer time inserted marks answered events =>
      refine ⟨[acceptOf peer], before ++ [(.connected peer.id, addr)], work, ?_, ?_, Nat.le_refl 1, ?_, ?_, ?_, ?_, ?_, ?_⟩
      · rw [answered, sent]
        rfl
      · rw [events, raised, List.append_assoc]
      · rw [List.length_append]
        exact Nat.add_le_add few (Nat.le_refl 1)
      · rw [List.countP_append, quiet]
        exact Nat.zero_le 1
      · rw [List.countP_append, awake]
        rfl
      · rfl
      · intro other found
        rw [inserted, FiniteMap.get?_insert] at found
        split at found <;> rename_i own
        · subst own
          exact Or.inr ⟨peer.id, by simp⟩
        · exact Or.inl (peers other found)
      · intro stranger
        exact absurd (Or.inr ⟨peer.id, by simp⟩) stranger
  | refused vacant =>
      refine ⟨[], before, work, by simp [sent], raised, by decide, by omega, by omega, awake, rfl, ?_, fun _ => Or.inl rfl⟩
      intro other found
      exact Or.inl (peers other found)
  | marked displaced recorded =>
      refine ⟨[], before, work, by simp [setHost, sent], raised, by decide, by omega, by omega, awake, rfl, ?_,
        fun _ => Or.inl rfl⟩
      intro other found
      exact Or.inl (peers other (recorded_live recorded other found))

theorem admitConnectRequest_work {request : ConnectRequest} {replaced : Bool}
    (done : admitConnectRequest request addr now replaced state = .ok after) : after.work = state.work := by
  unfold admitConnectRequest at done
  split at done
  · split at done
    · split at done
      · cases done
      · cases done
        rfl
    · cases done
      rfl
  · split at done
    · cases done
    · split at done
      · cases done
      · simp only at done
        split at done
        · cases done
        · cases done
          rfl

theorem handleConnectRequest_work (indexed : Indexed state.host)
    (done : handleConnectRequest data addr now state = .ok after) : after.work = state.work := by
  unfold handleConnectRequest at done
  split at done
  · cases done
    rfl
  · split at done
    · cases done
      rfl
    · split at done
      · cases done
        rfl
      · split at done
        · rename_i existing found
          split at done
          · cases done
            rfl
          · split at done
            · cases done
              rfl
            · obtain ⟨host, left, -⟩ := removePeer_spec indexed found
              simp only [left] at done
              have kept := admitConnectRequest_work done
              exact kept
        · split at done
          · cases done
            rfl
          · simp only at done
            split at done
            · cases done
              rfl
            · have kept := admitConnectRequest_work done
              exact kept

theorem answer_handled {request : ConnectRequest} (answer : Answer request addr now state after)
    (work : after.work = state.work) : Handled data addr state after := by
  cases answer with
  | stale found earlier => exact Handled.refl data addr state
  | @again live found same =>
      apply Handled.peer [acceptOf live] []
      · simp [found]
      · exact fun other found => found
      · rfl
      · rfl
      · simp [send]
      · exact Nat.le_refl 1
      · decide
      · rfl
      · rfl
  | @superseded live host after found later peers marks admission =>
      apply admitted_handled [(.disconnected live.id .remote, addr)] admission (Nat.le_refl 1) rfl rfl work rfl rfl
      intro other present
      simp only [raise, setHost, peers] at present
      exact erased_live other present
  | barred vacant found earlier => exact Handled.refl data addr state
  | full vacant unbarred => exact Handled.kept (fun other found => found) rfl rfl rfl
  | tried vacant unbarred admission =>
      apply admitted_handled [] admission (by decide) rfl rfl work rfl
      · simp [raiseWatermark, setHost]
      · exact fun other found => found

/-- A request of the wrong protocol is the only datagram that is answered without a session. -/
theorem handleConnectRequest_handled (indexed : Indexed state.host)
    (done : handleConnectRequest data addr now state = .ok after) : Handled data addr state after := by
  have work := handleConnectRequest_work indexed done
  cases parsed : parseConnectRequest data with
  | none =>
      simp only [handleConnectRequest, parsed] at done
      cases done
      exact Handled.refl data addr state
  | some request =>
      by_cases protocol : request.protocolId = protocolId
      · by_cases key : readLitenetString request.connectData = some state.host.connectKey
        · exact answer_handled (handleConnectRequest_answer indexed parsed protocol key done) work
        · simp only [handleConnectRequest, parsed, protocol, key, ne_eq, not_true_eq_false, if_false,
            not_false_eq_true, if_true] at done
          cases done
          exact Handled.refl data addr state
      · simp only [handleConnectRequest, parsed, protocol, ne_eq, not_false_eq_true, if_true] at done
        cases done
        refine ⟨[refusal], [], rfl, rfl, by simp [send], Nat.le_refl 1, by decide, by decide, rfl, by decide, ?_, ?_⟩
        · exact fun other found => Or.inl found
        · exact fun _ => Or.inr ⟨rfl, shortestRequest_le parsed⟩

theorem handleDatagram_handled {ticks : Int64} (indexed : Indexed state.host)
    (done : handleDatagram data addr ticks now state = .ok after) : Handled data addr state after := by
  have dropped : state = after → Handled data addr state after := by
    rintro rfl
    exact Handled.refl data addr state
  unfold handleDatagram at done
  split at done
  · exact dropped (Except.ok.inj done)
  · simp only at done
    split at done
    · exact dropped (Except.ok.inj done)
    · split at done
      · unfold dispatch at done
        split at done
        · exact handleConnectRequest_handled indexed done
        split at done
        · cases done
          exact handleUnreliable_handled
        split at done
        · cases done
          exact handlePing_handled indexed
        split at done
        · cases done
          exact handlePong_handled
        split at done
        · exact handleDisconnect_handled indexed done
        · exact dropped (Except.ok.inj done)
      · exact dropped (Except.ok.inj done)

end Datagrams

/-! The socket. -/
section Draining
variable {state middle after : PollState} {now : Instant}

/-- A turn that `drain_socket` counts as a packet. -/
def isPacket : SocketTurn → Bool
  | .connectionReset | .peeked _ .connectionReset | .peeked _ (.datagram ..) => true
  | _ => false

def heardBy : SocketTurn → Option (SocketAddr × Bytes)
  | .peeked _ (.datagram data addr _) => some (addr, data)
  | _ => none

def heardIn (turns : List SocketTurn) : List (SocketAddr × Bytes) := turns.filterMap heardBy

def bytesIn (turns : List SocketTurn) : Nat := totalBytes ((heardIn turns).map Prod.snd)

/-- A datagram is read as long as its peek said, since nobody else reads the socket. -/
def Faithful (script : List SocketTurn) : Prop :=
  ∀ size data addr ticks, .peeked size (.datagram data addr ticks) ∈ script → data.length ≤ size

/-- The counters that draining leaves alone. -/
def otherWork (work : PollWork) : Nat × Nat × Nat × Nat × Nat :=
  (work.socketEvents, work.timeoutEvents, work.maintenanceScans, work.keepaliveSends, work.watermarkCleanups)

/-- What draining the turns `taken` costs. -/
structure Costs (taken : List SocketTurn) (state after : PollState) (traffic : Traffic) : Prop where
  packets : after.work.packets = state.work.packets + taken.length
  reads : taken.all isPacket = true
  bytes : after.work.bytes = state.work.bytes + bytesIn taken
  others : otherWork after.work = otherWork state.work
  heard : traffic.heard = heardIn taken
  sent : after.sent = state.sent ++ traffic.sent
  raised : after.events = state.events ++ traffic.events
  once : traffic.sent.length ≤ taken.length
  few : traffic.events.length ≤ 2 * taken.length
  words : traffic.events.countP isData ≤ taken.length
  awake : traffic.events.countP isTimeout = 0
  pingless : (traffic.sent.map Prod.snd).countP isPing = 0
  accounts : Accounts state.host traffic after.host

theorem heardIn_append (early late : List SocketTurn) : heardIn (early ++ late) = heardIn early ++ heardIn late :=
  List.filterMap_append

theorem bytesIn_append (early late : List SocketTurn) : bytesIn (early ++ late) = bytesIn early + bytesIn late := by
  simp [bytesIn, heardIn_append]

namespace Costs

theorem refl (state : PollState) : Costs [] state state {} where
  packets := rfl
  reads := rfl
  bytes := rfl
  others := rfl
  heard := rfl
  sent := by simp
  raised := by simp
  once := Nat.le_refl 0
  few := Nat.le_refl 0
  words := Nat.le_refl 0
  awake := rfl
  pingless := rfl
  accounts := Accounts.quiet (fun _ found => found) [] []

theorem trans {early late : List SocketTurn} {before since : Traffic} (first : Costs early state middle before)
    (second : Costs late middle after since) : Costs (early ++ late) state after (before.append since) where
  packets := by rw [second.packets, first.packets, List.length_append, Nat.add_assoc]
  reads := by rw [List.all_append, first.reads, second.reads, Bool.and_self]
  bytes := by rw [second.bytes, first.bytes, bytesIn_append, Nat.add_assoc]
  others := second.others.trans first.others
  heard := by rw [heardIn_append, ← first.heard, ← second.heard, Traffic.append]
  sent := by rw [second.sent, first.sent, List.append_assoc, Traffic.append]
  raised := by rw [second.raised, first.raised, List.append_assoc, Traffic.append]
  once := by
    rw [Traffic.append, List.length_append, List.length_append]
    exact Nat.add_le_add first.once second.once
  few := by
    rw [Traffic.append, List.length_append, List.length_append, Nat.mul_add]
    exact Nat.add_le_add first.few second.few
  words := by
    rw [Traffic.append, List.countP_append, List.length_append]
    exact Nat.add_le_add first.words second.words
  awake := by rw [Traffic.append, List.countP_append, first.awake, second.awake]
  pingless := by rw [Traffic.append, List.map_append, List.countP_append, first.pingless, second.pingless]
  accounts := first.accounts.trans second.accounts

/-- A turn that is counted and dropped. -/
theorem skipped (turn : SocketTurn) {size : Nat} (packet : isPacket turn = true) (counted : size = bytesIn [turn]) :
    Costs [turn] state (state.countPacket size) { heard := heardIn [turn] } where
  packets := rfl
  reads := by rw [List.all_cons, packet, List.all_nil, Bool.and_self]
  bytes := by rw [countPacket, counted]
  others := rfl
  heard := rfl
  sent := by simp [countPacket]
  raised := by simp [countPacket]
  once := Nat.zero_le _
  few := Nat.zero_le _
  words := Nat.zero_le _
  awake := rfl
  pingless := rfl
  accounts := Accounts.quiet (fun _ found => found) _ []

/-- A datagram that is counted and handled. -/
theorem handled {size : Nat} {data : Bytes} {addr : SocketAddr} {ticks : Int64}
    (handled : Handled data addr (state.countPacket data.length) after) :
    ∃ traffic, Costs [.peeked size (.datagram data addr ticks)] state after traffic := by
  obtain ⟨packets, events, serves⟩ := handled
  refine ⟨{ heard := [(addr, data)], sent := packets.map (Prod.mk addr), events }, ?_⟩
  constructor
  · rw [serves.work]
    rfl
  · rfl
  · rw [serves.work]
    rfl
  · rw [serves.work]
    rfl
  · rfl
  · exact serves.sent
  · exact serves.raised
  · rw [List.length_map]
    exact serves.once
  · exact serves.few
  · exact serves.words
  · exact serves.awake
  · rw [List.map_map]
    simpa using serves.pingless
  · exact serves.accounts

end Costs

/-- Draining reads a front part of the script, within the budgets. -/
structure Drained (script : List SocketTurn) (state after : PollState) : Prop where
  taken : ∃ front rest traffic, script = front ++ rest ∧ Costs front state after traffic
  packets : state.work.packets ≤ maxPollPackets → after.work.packets ≤ maxPollPackets
  bytes : Faithful script → state.work.bytes ≤ maxPollBytes → after.work.bytes ≤ maxPollBytes

theorem Drained.refl (script : List SocketTurn) (state : PollState) : Drained script state state where
  taken := ⟨[], script, {}, rfl, Costs.refl state⟩
  packets within := within
  bytes _ within := within

/-- One more turn in front. Its peek fitted what was left of the bytes. -/
theorem Drained.step {turn : SocketTurn} {rest : List SocketTurn} {traffic : Traffic} (rested : Drained rest middle after)
    (first : Costs [turn] state middle traffic) (room : state.work.packets < maxPollPackets)
    (fits : Faithful (turn :: rest) → state.work.bytes + bytesIn [turn] ≤ maxPollBytes) :
    Drained (turn :: rest) state after := by
  obtain ⟨front, back, later, rfl, costs⟩ := rested.taken
  constructor
  · exact ⟨turn :: front, back, traffic.append later, rfl, first.trans costs⟩
  · intro _
    apply rested.packets
    rw [first.packets]
    exact room
  · intro faithful _
    apply rested.bytes
    · intro size data addr ticks member
      exact faithful size data addr ticks (List.mem_cons_of_mem _ member)
    · rw [first.bytes]
      exact fits faithful

theorem drainSocket_drained (script : List SocketTurn) (state : PollState) (indexed : Indexed state.host)
    (done : drainSocket now script state = .ok after) : Drained script state after := by
  induction script generalizing state with
  | nil =>
      cases done
      exact Drained.refl [] after
  | cons turn rest ih =>
      have stopped : (.ok state : Except Panic PollState) = .ok after → Drained (turn :: rest) state after := by
        intro same
        cases same
        exact Drained.refl (turn :: rest) after
      unfold drainSocket at done
      split at done
      · rename_i room
        -- A reset is counted as a packet of no bytes.
        have reset : isPacket turn = true → bytesIn [turn] = 0 → drainSocket now rest (state.countPacket 0) = .ok after →
            Drained (turn :: rest) state after := by
          intro packet empty drained
          have later := ih (state.countPacket 0) indexed drained
          exact later.step (Costs.skipped turn packet empty.symm) room.1 fun _ => by omega
        cases turn with
        | wouldBlock => exact stopped done
        | failed => exact stopped done
        | connectionReset => exact reset rfl rfl done
        | peeked size received =>
            simp only at done
            split at done
            · exact stopped done
            · rename_i fitting
              cases received with
              | wouldBlock => exact stopped done
              | failed => exact stopped done
              | connectionReset => exact reset rfl rfl done
              | datagram data addr ticks =>
                  have fits : Faithful (.peeked size (.datagram data addr ticks) :: rest) →
                      state.work.bytes + bytesIn [.peeked size (.datagram data addr ticks)] ≤ maxPollBytes := by
                    intro faithful
                    have whole := faithful size data addr ticks List.mem_cons_self
                    have counted : bytesIn [.peeked size (.datagram data addr ticks)] = data.length := rfl
                    omega
                  simp only at done
                  split at done
                  · have later := ih (state.countPacket data.length) indexed done
                    exact later.step (Costs.skipped _ rfl rfl) room.1 fits
                  · have counted : Indexed (state.countPacket data.length).host := indexed
                    obtain ⟨served, handling, advance⟩ := handleDatagram_advances data addr ticks now counted
                    rw [handling] at done
                    obtain ⟨traffic, costs⟩ := Costs.handled (handleDatagram_handled indexed handling)
                    exact (ih served advance.indexed done).step costs room.1 fits
      · exact stopped done

end Draining

/-! Maintenance. -/
section Maintenance
variable {state middle after : PollState} {now : Instant} {addr : SocketAddr}

/-- The counters that maintenance leaves alone. -/
def socketWork (work : PollWork) : Nat × Nat × Nat × Nat :=
  (work.packets, work.bytes, work.socketEvents, work.watermarkCleanups)

/-- What `scans` turns of the scan cost. Each event is a timeout and each datagram a keepalive, all counted. -/
structure Tends (scans : Nat) (state after : PollState) (traffic : Traffic) : Prop where
  others : socketWork after.work = socketWork state.work
  scanned : after.work.maintenanceScans = state.work.maintenanceScans + scans
  timeouts : after.work.timeoutEvents = state.work.timeoutEvents + traffic.events.length
  keepalives : after.work.keepaliveSends = state.work.keepaliveSends + traffic.sent.length
  timeoutBudget : state.work.timeoutEvents ≤ maxPollTimeoutEvents → after.work.timeoutEvents ≤ maxPollTimeoutEvents
  keepaliveBudget : state.work.keepaliveSends ≤ maxPollKeepaliveSends → after.work.keepaliveSends ≤ maxPollKeepaliveSends
  heard : traffic.heard = []
  sent : after.sent = state.sent ++ traffic.sent
  raised : after.events = state.events ++ traffic.events
  timedOut : traffic.events.all isTimeout = true
  pings : (traffic.sent.map Prod.snd).all isPing = true
  accounts : Accounts state.host traffic after.host

namespace Tends

theorem trans {early late : Nat} {before since : Traffic} (first : Tends early state middle before)
    (second : Tends late middle after since) : Tends (early + late) state after (before.append since) where
  others := second.others.trans first.others
  scanned := by rw [second.scanned, first.scanned, Nat.add_assoc]
  timeouts := by rw [second.timeouts, first.timeouts, Traffic.append, List.length_append, Nat.add_assoc]
  keepalives := by rw [second.keepalives, first.keepalives, Traffic.append, List.length_append, Nat.add_assoc]
  timeoutBudget within := second.timeoutBudget (first.timeoutBudget within)
  keepaliveBudget within := second.keepaliveBudget (first.keepaliveBudget within)
  heard := by rw [Traffic.append, first.heard, second.heard, List.append_nil]
  sent := by rw [second.sent, first.sent, List.append_assoc, Traffic.append]
  raised := by rw [second.raised, first.raised, List.append_assoc, Traffic.append]
  timedOut := by rw [Traffic.append, List.all_append, first.timedOut, second.timedOut, Bool.and_self]
  pings := by rw [Traffic.append, List.map_append, List.all_append, first.pings, second.pings, Bool.and_self]
  accounts := first.accounts.trans second.accounts

theorem refl (state : PollState) : Tends 0 state state {} where
  others := rfl
  scanned := rfl
  timeouts := rfl
  keepalives := rfl
  timeoutBudget within := within
  keepaliveBudget within := within
  heard := rfl
  sent := by simp
  raised := by simp
  timedOut := rfl
  pings := rfl
  accounts := Accounts.quiet (fun _ found => found) [] []

theorem nextSlot (slotCount : Nat) (state : PollState) : Tends 1 state (state.nextSlot slotCount).1 {} where
  others := rfl
  scanned := rfl
  timeouts := rfl
  keepalives := rfl
  timeoutBudget within := within
  keepaliveBudget within := within
  heard := rfl
  sent := by simp [PollState.nextSlot]
  raised := by simp [PollState.nextSlot]
  timedOut := rfl
  pings := rfl
  accounts := by
    apply Accounts.quiet
    exact fun _ found => found

end Tends

theorem keepalive_tends (addr : SocketAddr) (now : Instant) (indexed : Indexed state.host) :
    ∃ traffic, Tends 0 state (keepalive addr now state) traffic := by
  unfold keepalive
  split <;> rename_i room
  · exact ⟨{}, Tends.refl state⟩
  · split
    · exact ⟨{}, Tends.refl state⟩
    · rename_i peer found
      split
      · exact ⟨{}, Tends.refl state⟩
      · have home : peer.addr = addr := (indexed.identity addr peer found).2
        refine ⟨{ sent := [(peer.addr, buildPing peer.connectionNumber (peer.pingSeq + 1))] },
          rfl, rfl, rfl, rfl, fun within => within, ?_, rfl, rfl, ?_, rfl, ?_, ?_⟩
        · intro _
          exact Nat.lt_of_not_le room
        · simp [send, modifyPeer]
        · have ping : isPing (buildPing peer.connectionNumber (peer.pingSeq + 1)) = true :=
            isPing_connected (by decide) peer.connectionNumber _
          simp [ping]
        · constructor
          · intro other live
            exact Or.inl (modified_live other live)
          · -- Whoever the keepalive goes to is a peer.
            intro other stranger
            have apart : peer.addr ≠ other := by
              rw [home]
              rintro rfl
              exact stranger (Or.inl (by simp [found]))
            rw [show ofAddr other [(peer.addr, _)] = [] from ofAddr_other apart [_]]
            exact ToldOff.silence _

theorem maintainPeer_tends (addr : SocketAddr) (now : Instant) (indexed : Indexed state.host)
    (done : maintainPeer addr now state = .ok after) : ∃ traffic, Tends 0 state after traffic := by
  unfold maintainPeer at done
  split at done <;> rename_i late
  · split at done <;> rename_i room
    · unfold expired at late
      split at late
      · cases late
      · rename_i peer found
        obtain ⟨host, left, removed⟩ := removePeer_spec indexed found
        simp only [left] at done
        cases done
        refine ⟨{ events := [(.disconnected peer.id .timeout, addr)] }, rfl, rfl, rfl, rfl, fun _ => room,
          fun within => within, rfl, ?_, rfl, rfl, rfl, ?_⟩
        · simp [raise, setHost]
        · apply Accounts.quiet
          intro other live
          simp only [raise, setHost, removed.peers] at live
          exact erased_live other live
    · cases done
      exact ⟨{}, Tends.refl _⟩
  · cases done
    exact keepalive_tends addr now indexed

theorem scanSlots_tends {slotCount : Nat} (scans : Nat) (state : PollState) (indexed : Indexed state.host)
    (done : scanSlots now slotCount scans state = .ok after) : ∃ traffic, Tends scans state after traffic := by
  induction scans generalizing state with
  | zero =>
      cases done
      exact ⟨{}, Tends.refl after⟩
  | succ scans ih =>
      have moved := Tends.nextSlot slotCount state
      have settled : Indexed (state.nextSlot slotCount).1.host :=
        (SameIndex.of_peers_eq rfl : SameIndex state.host (state.nextSlot slotCount).1.host).indexed indexed
      rw [Nat.add_comm scans 1]
      simp only [scanSlots] at done
      split at done
      · cases done
      · obtain ⟨traffic, rest⟩ := ih _ settled done
        exact ⟨_, moved.trans rest⟩
      · rename_i addr held
        obtain ⟨middle, tended, advance⟩ := maintainPeer_advances now addr settled
        simp only [tended] at done
        obtain ⟨traffic, tends⟩ := maintainPeer_tends addr now settled tended
        obtain ⟨later, rest⟩ := ih middle advance.indexed done
        have inspected := moved.trans tends
        exact ⟨_, inspected.trans rest⟩

theorem processPeerMaintenance_tends (indexed : Indexed state.host)
    (done : processPeerMaintenance now state = .ok after) :
    ∃ scans traffic, scans ≤ maxPollMaintenanceScans ∧ Tends scans state after traffic := by
  unfold processPeerMaintenance at done
  simp only at done
  split at done
  · cases done
    refine ⟨0, {}, Nat.zero_le _, rfl, rfl, rfl, rfl, fun within => within, fun within => within, rfl, ?_, ?_, rfl, rfl, ?_⟩
    · simp [setHost]
    · simp [setHost]
    · apply Accounts.quiet
      exact fun _ found => found
  · obtain ⟨traffic, tends⟩ := scanSlots_tends _ state indexed done
    exact ⟨_, traffic, Nat.min_le_right _ _, tends⟩

/-- What expiring watermarks spends. -/
theorem expireReconnectWatermarks_work (now : Instant) (budget : Nat) (state : PollState) :
    ∃ spent ≤ budget, (expireReconnectWatermarks now budget state).work =
      { state.work with watermarkCleanups := state.work.watermarkCleanups + spent } ∧
    (expireReconnectWatermarks now budget state).sent = state.sent := by
  induction budget generalizing state with
  | zero => exact ⟨0, Nat.le_refl 0, rfl, rfl⟩
  | succ budget ih =>
      have stopped : ∃ spent ≤ budget + 1, state.work =
          { state.work with watermarkCleanups := state.work.watermarkCleanups + spent } ∧ state.sent = state.sent :=
        ⟨0, Nat.zero_le _, rfl, rfl⟩
      have popped : ∀ next : PollState,
          next.work = { state.work with watermarkCleanups := state.work.watermarkCleanups + 1 } →
          next.sent = state.sent → ∃ spent ≤ budget + 1, (expireReconnectWatermarks now budget next).work =
            { state.work with watermarkCleanups := state.work.watermarkCleanups + spent } ∧
          (expireReconnectWatermarks now budget next).sent = state.sent := by
        intro next work sent
        obtain ⟨spent, within, same, kept⟩ := ih next
        refine ⟨spent + 1, Nat.succ_le_succ within, ?_, kept.trans sent⟩
        rw [same, work, Nat.add_assoc, Nat.add_comm 1 spent]
      unfold expireReconnectWatermarks
      split
      · exact stopped
      · simp only
        split
        · split
          · split
            · exact stopped
            · exact popped _ rfl rfl
          · exact popped _ rfl rfl
        · exact popped _ rfl rfl

end Maintenance

/-! One poll. -/
section Polls
variable {host : Host} {now : Instant} {script : List SocketTurn} {after : PollState}

/-- The budgets of one poll, as its assertions state them. -/
structure WithinBudgets (script : List SocketTurn) (state : PollState) : Prop where
  packets : state.work.packets ≤ maxPollPackets
  bytes : Faithful script → state.work.bytes ≤ maxPollBytes
  socketEvents : state.work.socketEvents ≤ maxPollSocketEvents
  timeoutEvents : state.work.timeoutEvents ≤ maxPollTimeoutEvents
  maintenanceScans : state.work.maintenanceScans ≤ maxPollMaintenanceScans
  keepaliveSends : state.work.keepaliveSends ≤ maxPollKeepaliveSends
  watermarkCleanups : state.work.watermarkCleanups ≤ maxPollWatermarkCleanups
  events : state.events.length ≤ maxPollEvents

/-- The counters count the turns and the bytes that were read, the events that these and the timeouts raised, and the
pings. Each packet is at most one word, and is answered at most once. -/
structure Counted (script : List SocketTurn) (state : PollState) : Prop where
  packets : state.work.packets ≤ script.length ∧ (script.take state.work.packets).all isPacket = true
  bytes : state.work.bytes = bytesIn (script.take state.work.packets)
  socketEvents : state.work.socketEvents = state.events.countP fun event => !isTimeout event
  timeoutEvents : state.work.timeoutEvents = state.events.countP isTimeout
  keepaliveSends : state.work.keepaliveSends = (state.sent.map Prod.snd).countP isPing
  words : state.events.countP isData ≤ state.work.packets
  answers : ((state.sent.map Prod.snd).countP fun packet => !isPing packet) ≤ state.work.packets

/-- What a poll read, sent and raised. -/
def trafficOf (script : List SocketTurn) (state : PollState) : Traffic :=
  { heard := heardIn (script.take state.work.packets), sent := state.sent, events := state.events }

/-- The counter that `poll_with_work` sets between the drain and the maintenance. -/
def countEvents (state : PollState) : PollState :=
  { state with work := { state.work with socketEvents := state.events.length } }

/-- A poll is its drain and its maintenance, from a state that has spent cleanups alone. -/
theorem poll_stages (indexed : Indexed host) (done : host.pollWithWork now script = .ok after) :
    ∃ cleaned drained scans traffic, cleaned.host.peers = host.peers ∧ cleaned.events = [] ∧ cleaned.sent = [] ∧
      (∃ spent ≤ maxPollWatermarkCleanups, cleaned.work = { watermarkCleanups := spent }) ∧
      Drained script cleaned drained ∧ scans ≤ maxPollMaintenanceScans ∧
      Tends scans (countEvents drained) after traffic := by
  have started := indexed_startPoll indexed
  obtain ⟨same, no_events, -⟩ := expireReconnectWatermarks_same now maxPollWatermarkCleanups (startPoll host)
  obtain ⟨spent, within, work, no_sends⟩ :=
    expireReconnectWatermarks_work now maxPollWatermarkCleanups (startPoll host)
  have peers := (expireReconnectWatermarks_marks now maxPollWatermarkCleanups (startPoll host)).1
  obtain ⟨drained, draining, advance⟩ := drainSocket_advances now script _ (same.indexed started)
  have drains := drainSocket_drained script _ (same.indexed started) draining
  unfold pollWithWork at done
  simp only [draining] at done
  have settled : Indexed (countEvents drained).host := advance.indexed
  obtain ⟨scans, traffic, few, tends⟩ := processPeerMaintenance_tends settled done
  refine ⟨_, drained, scans, traffic, peers, no_events, no_sends, ⟨spent, within, ?_⟩, drains, few, tends⟩
  rw [work]
  simp [startPoll]

theorem countP_split {Item : Type} {test : Item → Bool} {front back : List Item} (none : front.countP test = 0)
    (all : back.all test = true) : (front ++ back).countP test = back.length ∧
      ((front ++ back).countP fun item => !test item) = front.length := by
  have counted := List.length_eq_countP_add_countP test (l := front ++ back)
  have whole : back.countP test = back.length := List.countP_eq_length.mpr (List.all_eq_true.mp all)
  have first : (front ++ back).countP test = back.length := by
    rw [List.countP_append, none, whole, Nat.zero_add]
  have second : ((front ++ back).countP fun item => !test item) = (front ++ back).countP fun item => decide ¬test item := by
    congr 1
    funext item
    simp
  rw [List.length_append, first, ← second] at counted
  exact ⟨first, by omega⟩

theorem poll_accounts (indexed : Indexed host) (done : host.pollWithWork now script = .ok after) :
    WithinBudgets script after ∧ Counted script after ∧ Accounts host (trafficOf script after) after.host := by
  obtain ⟨cleaned, drained, scans, tended, peers, no_events, no_sends, ⟨spent, cleanups, work⟩, drains, few, tends⟩ :=
    poll_stages indexed done
  obtain ⟨front, back, drawn, rfl, costs⟩ := drains.taken
  have packets := drains.packets (by rw [work]; exact Nat.zero_le _)
  have elsewhere := costs.others
  have upkeep := tends.others
  have read := costs.packets
  have bytes := costs.bytes
  have drawn_events := costs.raised
  have drawn_sent := costs.sent
  have raised := tends.raised
  have sent := tends.sent
  have scanned := tends.scanned
  have timeouts := tends.timeouts
  have keepalives := tends.keepalives
  simp only [otherWork, work, Prod.mk.injEq] at elsewhere
  simp only [socketWork, countEvents, Prod.mk.injEq] at upkeep
  simp only [countEvents] at raised sent scanned timeouts keepalives
  simp only [work, Nat.zero_add] at read bytes
  simp only [no_events, List.nil_append] at drawn_events
  simp only [no_sends, List.nil_append] at drawn_sent
  simp only [drawn_events] at raised
  simp only [drawn_sent] at sent
  simp only [elsewhere] at scanned timeouts keepalives
  have read_all : after.work.packets = front.length := upkeep.1.trans read
  have front_taken : (front ++ back).take after.work.packets = front := by
    rw [read_all, List.take_left']
    rfl
  have few_events := costs.few
  have socket_events : after.work.socketEvents = drawn.events.length := by
    rw [upkeep.2.2.1, drawn_events]
  have timeout_budget : after.work.timeoutEvents ≤ maxPollTimeoutEvents := by
    apply tends.timeoutBudget
    show drained.work.timeoutEvents ≤ maxPollTimeoutEvents
    omega
  refine ⟨?_, ?_, ?_⟩
  · constructor
    · omega
    · intro faithful
      have whole := drains.bytes faithful (by rw [work]; exact Nat.zero_le _)
      omega
    · rw [socket_events, maxPollSocketEvents]
      omega
    · exact timeout_budget
    · omega
    · apply tends.keepaliveBudget
      show drained.work.keepaliveSends ≤ maxPollKeepaliveSends
      omega
    · omega
    · rw [raised, List.length_append, maxPollEvents, maxPollSocketEvents]
      omega
  · obtain ⟨expired, awake⟩ := countP_split costs.awake tends.timedOut
    obtain ⟨pinged, answered⟩ := countP_split costs.pingless tends.pings
    rw [← raised] at expired awake
    rw [← List.map_append, ← sent, List.length_map] at pinged answered
    constructor
    · rw [front_taken, read_all, List.length_append]
      exact ⟨Nat.le_add_right _ _, costs.reads⟩
    · rw [front_taken]
      exact upkeep.2.1.trans bytes
    · rw [awake]
      exact socket_events
    · rw [expired, timeouts, Nat.zero_add]
    · rw [pinged, keepalives, Nat.zero_add]
    · -- A timeout is no word.
      have silent : tended.events.countP isData = 0 := by
        rw [List.countP_eq_zero]
        intro event member
        have timed := List.all_eq_true.mp tends.timedOut event member
        rcases event with ⟨_ | _ | _, _⟩ <;> simp_all [isTimeout, isData]
      rw [raised, List.countP_append, silent, read_all]
      exact costs.words
    · rw [answered, read_all]
      exact costs.once
  · have chained := costs.accounts.trans tends.accounts
    have entire : drawn.append tended = trafficOf (front ++ back) after := by
      rw [trafficOf, front_taken, sent, raised, Traffic.append, tends.heard, costs.heard, List.append_nil]
    rw [entire] at chained
    constructor
    · intro addr live
      have known := chained.live addr live
      rwa [Known, peers] at known
    · intro addr stranger
      apply chained.spared addr
      rwa [Known, peers]

/-- A poll never panics and stays within every budget, whatever the socket holds; its counters count
what it read, raised and sent. -/
theorem poll_within_budgets (reached : HostRuns.Reachable host) (now : Instant) (script : List SocketTurn) :
    ∃ after, host.pollWithWork now script = .ok after ∧ WithinBudgets script after ∧ Counted script after := by
  obtain ⟨after, done, -⟩ := pollWithWork_advances reached.indexed now script
  obtain ⟨within, counted, -⟩ := poll_accounts reached.indexed done
  exact ⟨after, done, within, counted⟩

end Polls

/-! Two peers, of which one has been silent for long, and two datagrams of strangers. -/
section Busy
open HostRuns

def secondAddr : SocketAddr := .v4 2130706434 5000

def busyHost : Host :=
  let first := afterCall (bound pairLimits "key") (.poll 0 [requestFrom firstAddr])
  afterCall first (.poll (4 * second) [requestFrom secondAddr])

def busyScript : List SocketTurn :=
  let foreign := (buildConnectRequest 0 7 0 16 []).set 1 12
  [.connectionReset, .peeked 2 (.datagram [0, 9] secondAddr 0), .peeked 34 (.datagram foreign (.v4 1 2) 0), .wouldBlock]

def busyWork : PollWork :=
  { packets := 3
    bytes := 36
    socketEvents := 1
    timeoutEvents := 1
    maintenanceScans := 2
    keepaliveSends := 1 }

theorem poll_within_budgets_busy :
    ∃ after, busyHost.pollWithWork (16 * second) busyScript = .ok after ∧
      WithinBudgets busyScript after ∧ Counted busyScript after ∧
      after.work = busyWork ∧ after.sent = [(.v4 1 2, refusal), (secondAddr, buildPing 0 1)] ∧
      after.events.map Prod.fst = [.data 2 [9], .disconnected 1 .timeout] := by
  have reached : HostRuns.Reachable busyHost := afterCall_reached (afterCall_reached (.bound pairLimits "key") _) _
  obtain ⟨after, done, within, counted⟩ := poll_within_budgets reached (16 * second) busyScript
  have seen : (busyHost.pollWithWork (16 * second) busyScript).toOption.map (fun after =>
      (after.work, after.sent, after.events.map Prod.fst)) = some (busyWork, [(.v4 1 2, refusal), (secondAddr, buildPing 0 1)],
        [.data 2 [9], .disconnected 1 .timeout]) := by
    decide +kernel
  rw [done] at seen
  obtain ⟨work, rest⟩ := Prod.mk.inj (Option.some.inj seen)
  obtain ⟨sent, events⟩ := Prod.mk.inj rest
  exact ⟨after, done, within, counted, work, sent, events⟩

end Busy

/-! Runs of the host. -/
section Runs
open HostRuns
variable {host after : Host} {call : HostCall} {traffic : Traffic}

/-- A call, with what it reads from the socket and hands to it. -/
def exchange (host : Host) : HostCall → Except Panic (Host × Traffic)
  | .poll now script =>
    match host.pollWithWork now script with
    | .error panic => .error panic
    | .ok state => .ok (state.host, trafficOf script state)
  | .sendUnreliable peer bytes delivered =>
    match host.sendUnreliable peer bytes delivered with
    | .error panic => .error panic
    | .ok (.error _) => .ok (host, {})
    | .ok (.ok datagram) => .ok (host, { sent := datagram.toList })
  | .disconnect peer =>
    match host.disconnect peer with
    | .error panic => .error panic
    | .ok (host, notice) => .ok (host, { sent := notice.toList })

def exchanges (host : Host) : List HostCall → Except Panic (Host × Traffic)
  | [] => .ok (host, {})
  | call :: rest =>
    match exchange host call with
    | .error panic => .error panic
    | .ok (host, early) =>
      match exchanges host rest with
      | .error panic => .error panic
      | .ok (final, late) => .ok (final, early.append late)

/-- A call that sends at most one datagram, to a peer, spares everybody else. -/
theorem Accounts.to_peer {addr : SocketAddr} (found : host.peers.get? addr ≠ none) (packets : List Bytes)
    (fewer : ∀ other, after.peers.get? other ≠ none → host.peers.get? other ≠ none) :
    Accounts host { sent := packets.map (Prod.mk addr) } after := by
  constructor
  · intro other live
    exact Or.inl (fewer other live)
  · intro other stranger
    have apart : addr ≠ other := by
      rintro rfl
      exact stranger (Or.inl found)
    rw [ofAddr_other apart]
    exact ToldOff.silence _

theorem sendUnreliable_accounts {peer : PeerId} {bytes : Bytes} {delivered : Bool} {datagram : Option (SocketAddr × Bytes)}
    (done : host.sendUnreliable peer bytes delivered = .ok (.ok datagram)) :
    Accounts host { sent := datagram.toList } host := by
  unfold sendUnreliable at done
  split at done
  · cases done
  · split at done
    · cases done
      exact Accounts.quiet (fun _ found => found) [] []
    · split at done
      · cases done
      · rename_i addr _ _ connected found
        split at done
        · cases done
          apply Accounts.to_peer (by simp [found]) [buildUnreliable connected.connectionNumber bytes]
          exact fun _ live => live
        · cases done

theorem disconnect_accounts (indexed : Indexed host) {peer : PeerId} {notice : Option (SocketAddr × Bytes)}
    (done : host.disconnect peer = .ok (after, notice)) : Accounts host { sent := notice.toList } after := by
  unfold Host.disconnect at done
  split at done
  · cases done
    exact Accounts.quiet (fun _ found => found) [] []
  · rename_i addr live
    obtain ⟨found, present, identity⟩ := peer_of_peerAddr live
    obtain ⟨left, removing, removed⟩ := removePeerAt_spec indexed present
    simp only [removing] at done
    cases done
    have home : found.addr = addr := (indexed.identity addr found present).2
    simp only [Option.toList_some, home]
    apply Accounts.to_peer (by simp [present]) [buildDisconnect found.connectionNumber found.connectTime]
    intro other still
    rw [removed.peers] at still
    exact erased_live other still

theorem exchange_accounts (indexed : Indexed host) (call : HostCall) :
    ∃ after traffic, exchange host call = .ok (after, traffic) ∧ Indexed after ∧ Accounts host traffic after := by
  cases call with
  | poll now script =>
      obtain ⟨state, done, advance⟩ := pollWithWork_advances indexed now script
      have accounts := (poll_accounts indexed done).2.2
      exact ⟨state.host, trafficOf script state, by simp [exchange, done], advance.indexed, accounts⟩
  | sendUnreliable peer bytes delivered =>
      obtain ⟨answer, done⟩ := sendUnreliable_total host peer bytes delivered
      cases answer with
      | error fault =>
          exact ⟨host, {}, by simp [exchange, done], indexed, Accounts.quiet (fun _ found => found) [] []⟩
      | ok datagram => exact ⟨host, _, by simp [exchange, done], indexed, sendUnreliable_accounts done⟩
  | disconnect peer =>
      obtain ⟨outcome, served, settled⟩ := serve_disconnect indexed peer
      cases done : host.disconnect peer with
      | error panic => simp [serve, done] at served
      | ok result =>
          rcases result with ⟨after, notice⟩
          simp only [serve, done, Except.ok.injEq] at served
          have kept : Indexed after := by
            have same := settled.indexed
            rw [← served] at same
            unfold evictionOutcome at same
            split at same
            · exact same
            · split at same <;> exact same
          exact ⟨after, _, by simp [exchange, done], kept, disconnect_accounts indexed done⟩

theorem exchanges_accounts (indexed : Indexed host) (calls : List HostCall) :
    ∃ final traffic, exchanges host calls = .ok (final, traffic) ∧ Accounts host traffic final := by
  induction calls generalizing host with
  | nil => exact ⟨host, {}, rfl, Accounts.quiet (fun _ found => found) [] []⟩
  | cons call rest ih =>
      obtain ⟨middle, early, exchanged, settled, first⟩ := exchange_accounts indexed call
      obtain ⟨final, late, ran, since⟩ := ih settled
      exact ⟨final, early.append late, by simp [exchanges, exchanged, ran], first.trans since⟩

/-- Over every run, an address that holds no session and never connects is sent nothing but the one-byte
refusal, no more often than it was heard, and one byte at most for each 34 that came from it. -/
theorem strangers_not_amplified (reached : Reachable host) (calls : List HostCall) :
    ∃ final traffic, exchanges host calls = .ok (final, traffic) ∧
      ∀ addr, host.peers.get? addr = none → (∀ id, (.connected id, addr) ∉ traffic.events) →
        (∀ packet ∈ ofAddr addr traffic.sent, packet = refusal) ∧
        (ofAddr addr traffic.sent).length ≤ (ofAddr addr traffic.heard).length ∧
        34 * totalBytes (ofAddr addr traffic.sent) ≤ totalBytes (ofAddr addr traffic.heard) := by
  obtain ⟨final, traffic, done, accounts⟩ := exchanges_accounts reached.indexed calls
  refine ⟨final, traffic, done, ?_⟩
  intro addr vacant never
  have stranger : ¬ Known host traffic.events addr := by
    rintro (live | ⟨id, opened⟩)
    · exact live vacant
    · exact never id opened
  obtain ⟨refusals, answered, bytes⟩ := accounts.spared addr stranger
  have single : totalBytes (ofAddr addr traffic.sent) = (ofAddr addr traffic.sent).length := by
    rw [List.eq_replicate_of_mem refusals]
    simp only [totalBytes, List.map_replicate, List.sum_replicate, List.length_replicate]
    exact Nat.mul_one _
  rw [single]
  exact ⟨refusals, answered, bytes⟩

/-- A request of another protocol version, which is refused. -/
def foreignPoll : HostCall :=
  .poll 0 [.peeked 34 (.datagram ((buildConnectRequest 0 7 0 16 []).set 1 12) firstAddr 0)]

theorem strangers_not_amplified_foreign :
    ∃ final traffic, exchanges (bound pairLimits "key") [foreignPoll] = .ok (final, traffic) ∧
      ofAddr firstAddr traffic.sent = [refusal] ∧ totalBytes (ofAddr firstAddr traffic.heard) = 34 ∧
      34 * totalBytes (ofAddr firstAddr traffic.sent) ≤ totalBytes (ofAddr firstAddr traffic.heard) := by
  have seen : (exchanges (bound pairLimits "key") [foreignPoll]).toOption.map
      (fun result => (ofAddr firstAddr result.2.sent, totalBytes (ofAddr firstAddr result.2.heard), result.2.events)) =
      some ([refusal], 34, []) := by decide +kernel
  obtain ⟨final, traffic, done, spared⟩ :=
    strangers_not_amplified (Reachable.bound pairLimits "key") [foreignPoll]
  rw [done] at seen
  simp only [Except.toOption, Option.map_some, Option.some.injEq, Prod.mk.injEq] at seen
  have quiet : ∀ id, (Event.connected id, firstAddr) ∉ traffic.events := by
    intro id member
    rw [seen.2.2] at member
    cases member
  exact ⟨final, traffic, done, seen.1, seen.2.1, (spared firstAddr (FiniteMap.get?_empty firstAddr) quiet).2.2⟩

end Runs
end SailwindOnline.PollBudgets
