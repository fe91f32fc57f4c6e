import SailwindOnline.HostRuns

/-!
Connect requests and the sessions they open. A request is answered by
comparing its connect time with the live peer at its address or, where none is
live, with the reconnect watermark left there. Every handler of a datagram
passes sessions and watermarks on, up to what a connect request changes, and
only an unreliable datagram of a live session raises a `Data` event.
-/

namespace SailwindOnline.ConnectRequests
open Host PollState HostIndex HostPoll HostRuns WireProtocol

/-- The accept packet of a peer, as first sent and as sent again. -/
def acceptOf (peer : Peer) : Bytes :=
  buildConnectAccept peer.connectTime peer.connectionNumber peer.localPeerId false

/-- What a peer keeps from its admission to its removal. -/
def sessionOf (peer : Peer) : PeerId × Int64 × UInt8 × Int32 :=
  (peer.id, peer.connectTime, peer.connectionNumber, peer.localPeerId)

theorem acceptOf_session {peer other : Peer} (same : sessionOf peer = sessionOf other) :
    acceptOf peer = acceptOf other := by
  simp only [sessionOf, Prod.mk.injEq] at same
  obtain ⟨-, time, number, identifier⟩ := same
  rw [acceptOf, acceptOf, time, number, identifier]

/-- A peer that enters with its accept in `fresh`, and not before the watermark it meets. -/
structure Welcome (host : Host) (fresh : List (SocketAddr × Bytes)) (after : Host) (addr : SocketAddr)
    (peer : Peer) : Prop where
  answered : (addr, acceptOf peer) ∈ fresh
  unmarked : after.reconnectWatermarks.get? addr = none
  ordered : ∀ mark, host.reconnectWatermarks.get? addr = some mark → mark.connectTime ≤ peer.connectTime

/-- What any part of the host's life does to its sessions and watermarks, `fresh` being what it sent. -/
structure Passage (host : Host) (fresh : List (SocketAddr × Bytes)) (after : Host) : Prop where
  sessions : ∀ addr peer, after.peers.get? addr = some peer →
    (∃ earlier, host.peers.get? addr = some earlier ∧ sessionOf earlier = sessionOf peer) ∨
      Welcome host fresh after addr peer
  marks : ∀ addr mark, after.reconnectWatermarks.get? addr = some mark →
    (∃ earlier, host.reconnectWatermarks.get? addr = some earlier ∧
      earlier.connectTime ≤ mark.connectTime) ∨
    after.peers.get? addr = none ∧ ∃ live, host.peers.get? addr = some live

namespace Passage
variable {host after : Host} {fresh : List (SocketAddr × Bytes)}

/-- Nothing enters and no watermark is recorded. -/
theorem of_fewer
    (sessions : ∀ addr peer, after.peers.get? addr = some peer →
      ∃ earlier, host.peers.get? addr = some earlier ∧ sessionOf earlier = sessionOf peer)
    (marks : ∀ addr mark, after.reconnectWatermarks.get? addr = some mark →
      ∃ earlier, host.reconnectWatermarks.get? addr = some earlier ∧
        earlier.connectTime ≤ mark.connectTime) : Passage host fresh after :=
  ⟨fun addr peer found => Or.inl (sessions addr peer found),
    fun addr mark found => Or.inl (marks addr mark found)⟩

theorem of_same (peers : after.peers = host.peers)
    (marks : after.reconnectWatermarks = host.reconnectWatermarks) : Passage host fresh after :=
  of_fewer (fun _ peer found => ⟨peer, peers ▸ found, rfl⟩)
    (fun _ mark found => ⟨mark, marks ▸ found, Int64.le_refl _⟩)

theorem of_modified {addr : SocketAddr} {change : Peer → Peer}
    (peers : after.peers = host.peers.modify addr change)
    (marks : after.reconnectWatermarks = host.reconnectWatermarks)
    (keeps : ∀ peer, sessionOf (change peer) = sessionOf peer) : Passage host fresh after := by
  apply of_fewer
  · intro other peer found
    rw [peers, FiniteMap.get?_modify] at found
    split at found
    · rename_i own
      obtain ⟨earlier, present, rfl⟩ := Option.map_eq_some_iff.mp found
      exact ⟨earlier, own ▸ present, (keeps earlier).symm⟩
    · exact ⟨peer, found, rfl⟩
  · intro other mark found
    exact ⟨mark, marks ▸ found, Int64.le_refl _⟩

theorem of_erased {addr : SocketAddr} (peers : after.peers = host.peers.erase addr)
    (marks : after.reconnectWatermarks = host.reconnectWatermarks) : Passage host fresh after := by
  apply of_fewer
  · intro other peer found
    rw [peers, FiniteMap.get?_erase] at found
    split at found
    · cases found
    · exact ⟨peer, found, rfl⟩
  · intro other mark found
    exact ⟨mark, marks ▸ found, Int64.le_refl _⟩

end Passage

section Watermarks
variable {host after : Host}

/-- The peers are the same and every mark of `after` is one of `host`. -/
def MarksWithin (host after : Host) : Prop :=
  after.peers = host.peers ∧ ∀ addr mark, after.reconnectWatermarks.get? addr = some mark →
    host.reconnectWatermarks.get? addr = some mark

theorem MarksWithin.refl (host : Host) : MarksWithin host host := ⟨rfl, fun _ _ found => found⟩

theorem MarksWithin.trans {middle : Host} (first : MarksWithin host middle)
    (second : MarksWithin middle after) : MarksWithin host after :=
  ⟨second.1.trans first.1, fun addr mark found => first.2 addr mark (second.2 addr mark found)⟩

theorem MarksWithin.passage (within : MarksWithin host after) (fresh : List (SocketAddr × Bytes)) :
    Passage host fresh after :=
  Passage.of_fewer (fun _ peer found => ⟨peer, within.1 ▸ found, rfl⟩)
    (fun addr mark found => ⟨mark, within.2 addr mark found, Int64.le_refl _⟩)

theorem mark_of_erased {marks : FiniteMap SocketAddr ReconnectWatermark} {addr other : SocketAddr}
    {mark : ReconnectWatermark} (found : (marks.erase addr).get? other = some mark) :
    marks.get? other = some mark := by
  rw [FiniteMap.get?_erase] at found
  split at found
  · cases found
  · exact found

theorem marksWithin_rolled (host : Host) : MarksWithin host (rolledGenerations host) := by
  unfold rolledGenerations
  split
  · refine ⟨rfl, fun addr mark found => ?_⟩
    simp at found
  · exact MarksWithin.refl host

theorem marksWithin_evicted (done : evictOldestWatermark host = .ok after) : MarksWithin host after := by
  unfold evictOldestWatermark at done
  split at done
  · split at done
    · cases done
    · cases done
      refine ⟨rfl, fun addr mark found => ?_⟩
      simp only at found
      split at found
      · split at found
        · exact mark_of_erased found
        · exact found
      · exact found
  · cases done
    exact MarksWithin.refl host

/-- Recording a watermark for an address that has none. -/
theorem recordReconnectWatermark_marks {addr : SocketAddr} {connectTime : Int64} {now : Instant}
    (unmarked : host.reconnectWatermarks.get? addr = none)
    (done : host.recordReconnectWatermark addr connectTime now = .ok after) :
    after.peers = host.peers ∧
      (∃ mark, after.reconnectWatermarks.get? addr = some mark ∧ mark.connectTime = connectTime) ∧
      ∀ other mark, other ≠ addr → after.reconnectWatermarks.get? other = some mark →
        host.reconnectWatermarks.get? other = some mark := by
  unfold recordReconnectWatermark at done
  simp only at done
  split at done
  · cases done
  · rename_i evicted freed
    have rolled := marksWithin_rolled host
    have within := marksWithin_evicted freed
    have still : evicted.reconnectWatermarks.get? addr = none := by
      cases found : evicted.reconnectWatermarks.get? addr with
      | none => rfl
      | some mark =>
          have earlier := rolled.2 addr mark (within.2 addr mark found)
          rw [unmarked] at earlier
          cases earlier
    cases done
    refine ⟨within.1.trans rolled.1, ?_, ?_⟩
    · simp only [FiniteMap.get?_insert_self, still]
      exact ⟨_, rfl, rfl⟩
    · intro other mark differs found
      simp only [FiniteMap.get?_insert, if_neg differs] at found
      exact rolled.2 other mark (within.2 other mark found)

theorem expireReconnectWatermarks_marks (now : Instant) (budget : Nat) (state : PollState) :
    MarksWithin state.host (expireReconnectWatermarks now budget state).host := by
  induction budget generalizing state with
  | zero => exact MarksWithin.refl state.host
  | succ budget ih =>
      have popped : ∀ next : PollState, MarksWithin state.host next.host →
          MarksWithin state.host (expireReconnectWatermarks now budget next).host :=
        fun next within => within.trans (ih next)
      unfold expireReconnectWatermarks
      split
      · exact MarksWithin.refl state.host
      · simp only
        split
        · split
          · split
            · exact MarksWithin.refl state.host
            · exact popped _ ⟨rfl, fun _ _ found => mark_of_erased found⟩
          · exact popped _ (MarksWithin.refl state.host)
        · exact popped _ (MarksWithin.refl state.host)

end Watermarks

section Requests
variable {state after : PollState} {request : ConnectRequest} {addr : SocketAddr} {now : Instant}

/-- The two ends of an admission, and the third where a displaced peer leaves a watermark behind. -/
inductive Admission (request : ConnectRequest) (addr : SocketAddr) (now : Instant) (replaced : Bool)
    (state : PollState) : PollState → Prop
  | accepted {after : PollState} (peer : Peer) (time : peer.connectTime = request.connectTime)
      (peers : after.host.peers = state.host.peers.insert addr peer)
      (marks : after.host.reconnectWatermarks = state.host.reconnectWatermarks.erase addr)
      (sent : after.sent = state.sent ++ [(addr, acceptOf peer)])
      (events : after.events = state.events ++ [(.connected peer.id, addr)]) :
      Admission request addr now replaced state after
  | refused (vacant : replaced = false) : Admission request addr now replaced state state
  | marked {host : Host} (displaced : replaced = true)
      (recorded : state.host.recordReconnectWatermark addr request.connectTime now = .ok host) :
      Admission request addr now replaced state (state.setHost host)

theorem allocatePeerSlot_kept (host : Host) :
    host.allocatePeerSlot.1.peers = host.peers ∧
      host.allocatePeerSlot.1.reconnectWatermarks = host.reconnectWatermarks := by
  unfold allocatePeerSlot
  split
  · exact ⟨rfl, rfl⟩
  · split <;> exact ⟨rfl, rfl⟩

theorem admitConnectRequest_admission {replaced : Bool} (indexed : Indexed state.host)
    (done : admitConnectRequest request addr now replaced state = .ok after) :
    Admission request addr now replaced state after := by
  obtain ⟨same_peers, same_marks⟩ := allocatePeerSlot_kept state.host
  rcases allocatePeerSlot_spec indexed addr with ⟨slot, opened, handed, -⟩ | refused
  · rw [handed] at same_peers same_marks
    simp only [admitConnectRequest, handed] at done
    split at done
    · cases done
    · split at done
      · cases done
      · rename_i id _ _ localPeerId _
        simp only [insertPeer] at done
        split at done
        · cases done
        · rename_i host inserted
          split at inserted
          · cases inserted
            cases done
            refine Admission.accepted (newPeer request addr now id slot localPeerId) rfl ?_ ?_ rfl rfl
            · exact congrArg (fun peers : FiniteMap SocketAddr Peer => peers.insert addr _) same_peers
            · exact congrArg (fun marks : FiniteMap SocketAddr ReconnectWatermark => marks.erase addr)
                same_marks
          · cases inserted
  · simp only [admitConnectRequest, refused] at done
    split at done
    · rename_i displaced
      split at done
      · cases done
      · rename_i host recorded
        cases done
        exact Admission.marked displaced recorded
    · rename_i kept
      cases done
      exact Admission.refused (by simpa using kept)

/-- A well-formed connect request with the right protocol id and the host's key. -/
structure Genuine (host : Host) (data : Bytes) (request : ConnectRequest) : Prop where
  whole : (Header.fromByte (data.getD 0 0)).fragmented = false
  parsed : parseConnectRequest data = some request
  protocol : request.protocolId = protocolId
  key : readLitenetString request.connectData = some host.connectKey

/-- Every way a genuine request from `addr` is answered. -/
inductive Answer (request : ConnectRequest) (addr : SocketAddr) (now : Instant) (state : PollState) :
    PollState → Prop
  | stale {live : Peer} (found : state.host.peers.get? addr = some live)
      (earlier : request.connectTime < live.connectTime) : Answer request addr now state state
  | again {live : Peer} (found : state.host.peers.get? addr = some live)
      (same : live.connectTime = request.connectTime) :
      Answer request addr now state (state.send addr (acceptOf live))
  | superseded {live : Peer} {host : Host} {after : PollState}
      (found : state.host.peers.get? addr = some live) (later : live.connectTime < request.connectTime)
      (peers : host.peers = state.host.peers.erase addr)
      (marks : host.reconnectWatermarks = state.host.reconnectWatermarks)
      (admission : Admission request addr now true
        ((state.setHost host).raise (.disconnected live.id .remote) addr) after) :
      Answer request addr now state after
  | barred {mark : ReconnectWatermark} (vacant : state.host.peers.get? addr = none)
      (found : state.host.reconnectWatermarks.get? addr = some mark)
      (earlier : request.connectTime < mark.connectTime) : Answer request addr now state state
  | full (vacant : state.host.peers.get? addr = none)
      (unbarred : ∀ mark, state.host.reconnectWatermarks.get? addr = some mark →
        mark.connectTime ≤ request.connectTime) :
      Answer request addr now state (state.raiseWatermark addr request.connectTime)
  | tried {after : PollState} (vacant : state.host.peers.get? addr = none)
      (unbarred : ∀ mark, state.host.reconnectWatermarks.get? addr = some mark →
        mark.connectTime ≤ request.connectTime)
      (admission : Admission request addr now false
        (state.raiseWatermark addr request.connectTime) after) : Answer request addr now state after

theorem removePeerAt_kept {host kept : Host} {gone : Option Peer}
    (done : host.removePeerAt addr = .ok (kept, gone)) :
    kept.reconnectWatermarks = host.reconnectWatermarks := by
  unfold removePeerAt at done
  split at done
  · cases done
    rfl
  · split at done
    · cases done
      rfl
    · simp only at done
      split at done
      · cases done
        rfl
      · cases done

/-- Removing a live peer touches no watermark. -/
theorem removePeer_kept {live : Peer} (indexed : Indexed state.host)
    (found : state.host.peers.get? addr = some live) :
    ∃ host, state.removePeer addr = .ok (state.setHost host, some live) ∧
      Removed state.host addr live host ∧
      host.reconnectWatermarks = state.host.reconnectWatermarks := by
  obtain ⟨host, done, removed⟩ := removePeerAt_spec indexed found
  exact ⟨host, by simp [removePeer, done, setHost], removed, removePeerAt_kept done⟩

theorem precedesWatermark_false {host : Host} {connectTime : Int64}
    (unbarred : ¬ precedesWatermark host addr connectTime = true) (mark : ReconnectWatermark)
    (found : host.reconnectWatermarks.get? addr = some mark) : mark.connectTime ≤ connectTime := by
  simp only [precedesWatermark, found, decide_eq_true_eq] at unbarred
  exact Int64.not_lt.mp unbarred

theorem precedesWatermark_true {host : Host} {connectTime : Int64}
    (barred : precedesWatermark host addr connectTime = true) :
    ∃ mark, host.reconnectWatermarks.get? addr = some mark ∧ connectTime < mark.connectTime := by
  unfold precedesWatermark at barred
  split at barred
  · rename_i mark found
    exact ⟨mark, found, of_decide_eq_true barred⟩
  · cases barred

theorem lt_of_not_lt_of_ne {left right : Int64} (not_less : ¬ right < left) (differ : ¬ left = right) :
    left < right := by
  rw [Int64.lt_iff_toInt_lt] at not_less ⊢
  have values : left.toInt ≠ right.toInt := fun same => differ (Int64.toInt_inj.mp same)
  omega

theorem parseConnectRequest_header {data : Bytes} (parsed : parseConnectRequest data = some request) :
    data ≠ [] ∧ (Header.fromByte (data.getD 0 0)).property = Property.connectRequest := by
  unfold parseConnectRequest at parsed
  split at parsed
  · cases parsed
  · rename_i long
    simp only at parsed
    split at parsed
    · cases parsed
    · rename_i property
      refine ⟨?_, not_not.mp property⟩
      rintro rfl
      exact long (by decide)

theorem Genuine.handled {data : Bytes} {ticks : Int64} (genuine : Genuine state.host data request) :
    handleDatagram data addr ticks now state = handleConnectRequest data addr now state := by
  obtain ⟨nonempty, property⟩ := parseConnectRequest_header genuine.parsed
  have whole := genuine.whole
  cases data with
  | nil => exact absurd rfl nonempty
  | cons first rest =>
      simp only [List.getD_cons_zero] at property whole
      simp [handleDatagram, whole, fromSession, property, dispatch]

theorem handleConnectRequest_answer {data : Bytes} (indexed : Indexed state.host)
    (parsed : parseConnectRequest data = some request) (protocol : request.protocolId = protocolId)
    (key : readLitenetString request.connectData = some state.host.connectKey)
    (done : handleConnectRequest data addr now state = .ok after) :
    Answer request addr now state after := by
  simp only [handleConnectRequest, parsed, protocol, key, ne_eq, not_true_eq_false, if_false] at done
  cases found : state.host.peers.get? addr with
  | some live =>
      simp only [found] at done
      split at done
      · rename_i earlier
        cases done
        exact Answer.stale found earlier
      · rename_i not_earlier
        split at done
        · rename_i same
          cases done
          exact Answer.again found same
        · rename_i differ
          have later := lt_of_not_lt_of_ne not_earlier differ
          obtain ⟨host, left, removed, marks⟩ := removePeer_kept indexed found
          simp only [left] at done
          have admission := admitConnectRequest_admission
            (advance_removed indexed found removed .remote).indexed done
          exact Answer.superseded found later removed.peers marks admission
  | none =>
      simp only [found] at done
      split at done
      · rename_i precedes
        obtain ⟨mark, marked, earlier⟩ := precedesWatermark_true precedes
        cases done
        exact Answer.barred found marked earlier
      · rename_i unbarred
        have floor := precedesWatermark_false unbarred
        split at done
        · cases done
          exact Answer.full found floor
        · have raised : Advance state (state.raiseWatermark addr request.connectTime) :=
            Advance.of_same indexed (.of_peers_eq rfl) rfl rfl
          exact Answer.tried found floor (admitConnectRequest_admission raised.indexed done)

/-- A watermark and a live peer never share an address. -/
def Exclusive (host : Host) : Prop :=
  ∀ addr mark, host.reconnectWatermarks.get? addr = some mark → host.peers.get? addr = none

theorem Exclusive.unmarked {host : Host} {live : Peer} (exclusive : Exclusive host)
    (found : host.peers.get? addr = some live) : host.reconnectWatermarks.get? addr = none := by
  cases marked : host.reconnectWatermarks.get? addr with
  | none => rfl
  | some mark =>
      have vacant := exclusive addr mark marked
      rw [found] at vacant
      cases vacant

theorem mark_of_raised {connectTime : Int64} {other : SocketAddr} {mark : ReconnectWatermark}
    (found : (state.raiseWatermark addr connectTime).host.reconnectWatermarks.get? other = some mark) :
    ∃ earlier, state.host.reconnectWatermarks.get? other = some earlier ∧
      earlier.connectTime ≤ mark.connectTime := by
  simp only [raiseWatermark, setHost, FiniteMap.get?_modify] at found
  split at found
  · rename_i own
    obtain ⟨earlier, present, rfl⟩ := Option.map_eq_some_iff.mp found
    refine ⟨earlier, own ▸ present, ?_⟩
    split
    · rename_i later
      exact Int64.le_of_lt later
    · exact Int64.le_refl _
  · exact ⟨mark, found, Int64.le_refl _⟩

/-- Where `addr` was vacated or vacant before, an accepted peer enters as a `Welcome`. -/
theorem passage_accepted {host after : Host} {fresh : List (SocketAddr × Bytes)} {peer : Peer}
    (answered : (addr, acceptOf peer) ∈ fresh)
    (peers : ∀ other, after.peers.get? other = if other = addr then some peer else host.peers.get? other)
    (unmarked : after.reconnectWatermarks.get? addr = none)
    (marks : ∀ other mark, after.reconnectWatermarks.get? other = some mark →
      ∃ earlier, host.reconnectWatermarks.get? other = some earlier ∧
        earlier.connectTime ≤ mark.connectTime)
    (ordered : ∀ mark, host.reconnectWatermarks.get? addr = some mark →
      mark.connectTime ≤ peer.connectTime) : Passage host fresh after := by
  refine ⟨fun other found present => ?_, fun other mark present => Or.inl (marks other mark present)⟩
  rw [peers] at present
  split at present
  · rename_i own
    cases present
    exact Or.inr (own ▸ ⟨answered, unmarked, ordered⟩)
  · exact Or.inl ⟨found, present, rfl⟩

def Passes (state after : PollState) : Prop :=
  ∃ fresh, after.sent = state.sent ++ fresh ∧ Passage state.host fresh after.host

theorem Passes.unsent (sent : after.sent = state.sent) (passage : Passage state.host [] after.host) :
    Passes state after :=
  ⟨[], by rw [sent, List.append_nil], passage⟩

theorem Passes.refl (state : PollState) : Passes state state := .unsent rfl (Passage.of_same rfl rfl)

theorem passes_raised {connectTime : Int64} : Passes state (state.raiseWatermark addr connectTime) :=
  .unsent rfl (Passage.of_fewer (fun _ peer found => ⟨peer, found, rfl⟩)
    (fun _ _ found => mark_of_raised found))

theorem Answer.passes (exclusive : Exclusive state.host) (answer : Answer request addr now state after) :
    Passes state after := by
  cases answer with
  | stale found earlier => exact Passes.refl state
  | again found same => exact ⟨_, rfl, Passage.of_same rfl rfl⟩
  | barred vacant found earlier => exact Passes.refl state
  | full vacant unbarred => exact passes_raised
  | @superseded live host _ found later peers marks admission =>
      have unmarked := exclusive.unmarked found
      cases admission with
      | refused vacant => cases vacant
      | accepted peer time inserted erased sent events =>
          refine ⟨_, sent, passage_accepted (List.mem_singleton.mpr rfl) ?_ ?_ ?_ ?_⟩
          · intro other
            simp only [inserted, raise, setHost, peers, FiniteMap.get?_insert, FiniteMap.get?_erase]
            split <;> rfl
          · rw [erased, FiniteMap.get?_erase_self]
          · intro other mark present
            rw [erased] at present
            exact ⟨mark, marks ▸ mark_of_erased present, Int64.le_refl _⟩
          · intro mark present
            rw [unmarked] at present
            cases present
      | @marked recordedHost displaced recorded =>
          have clear : host.reconnectWatermarks.get? addr = none := marks ▸ unmarked
          obtain ⟨kept, -, others⟩ := recordReconnectWatermark_marks clear recorded
          refine Passes.unsent rfl ⟨fun other peer present => ?_, fun other mark present => ?_⟩
          · have erased : (state.host.peers.erase addr).get? other = some peer :=
              peers ▸ (congrArg (fun map => map.get? other) kept).symm.trans present
            rw [FiniteMap.get?_erase] at erased
            split at erased
            · cases erased
            · exact Or.inl ⟨peer, erased, rfl⟩
          · by_cases own : other = addr
            · subst own
              refine Or.inr ⟨?_, live, found⟩
              exact (congrArg (fun map => map.get? other) (kept.trans peers)).trans
                (FiniteMap.get?_erase_self _ _)
            · exact Or.inl ⟨mark, marks ▸ others other mark own present, Int64.le_refl _⟩
  | tried vacant unbarred admission =>
      cases admission with
      | refused _ => exact passes_raised
      | marked displaced _ => cases displaced
      | accepted peer time inserted erased sent events =>
          refine ⟨_, sent, passage_accepted (List.mem_singleton.mpr rfl) ?_ ?_ ?_ ?_⟩
          · intro other
            rw [inserted, FiniteMap.get?_insert]
            rfl
          · rw [erased, FiniteMap.get?_erase_self]
          · intro other mark present
            rw [erased] at present
            exact mark_of_raised (mark_of_erased present)
          · intro mark present
            rw [time]
            exact unbarred mark present

/-- A request that is not genuine is dropped, or told off for its protocol id. -/
theorem handleConnectRequest_outcome {data : Bytes} (indexed : Indexed state.host)
    (done : handleConnectRequest data addr now state = .ok after) :
    after = state ∨ (∃ packet, after = state.send addr packet) ∨
      ∃ request, Answer request addr now state after := by
  cases parsed : parseConnectRequest data with
  | none =>
      simp only [handleConnectRequest, parsed] at done
      cases done
      exact Or.inl rfl
  | some request =>
      by_cases protocol : request.protocolId = protocolId
      · by_cases key : readLitenetString request.connectData = some state.host.connectKey
        · exact Or.inr (Or.inr ⟨request, handleConnectRequest_answer indexed parsed protocol key done⟩)
        · simp only [handleConnectRequest, parsed, protocol, key, ne_eq, not_true_eq_false, if_false,
            not_false_eq_true, if_true] at done
          cases done
          exact Or.inl rfl
      · simp only [handleConnectRequest, parsed, protocol, ne_eq, not_false_eq_true, if_true] at done
        cases done
        exact Or.inr (Or.inl ⟨_, rfl⟩)

theorem handleConnectRequest_passes {data : Bytes} (indexed : Indexed state.host)
    (exclusive : Exclusive state.host) (done : handleConnectRequest data addr now state = .ok after) :
    Passes state after := by
  rcases handleConnectRequest_outcome indexed done with rfl | ⟨packet, rfl⟩ | ⟨request, answer⟩
  · exact Passes.refl _
  · exact ⟨_, rfl, Passage.of_same rfl rfl⟩
  · exact answer.passes exclusive

end Requests

section Handlers
variable {state after : PollState} {addr : SocketAddr} {now : Instant} {data : Bytes}

theorem handleUnreliable_passes : Passes state (handleUnreliable data addr now state) := by
  unfold handleUnreliable
  split
  · exact Passes.refl state
  · exact .unsent rfl (Passage.of_modified rfl rfl fun _ => rfl)

theorem handlePing_passes {ticks : Int64} : Passes state (handlePing data addr ticks now state) := by
  unfold handlePing
  split
  · exact Passes.refl state
  · split
    · exact Passes.refl state
    · exact ⟨_, rfl, Passage.of_modified rfl rfl fun _ => rfl⟩

theorem handlePong_passes : Passes state (handlePong data addr now state) := by
  unfold handlePong
  split
  · exact Passes.refl state
  · refine .unsent rfl (Passage.of_modified rfl rfl fun peer => ?_)
    split
    · split <;> rfl
    · rfl

theorem handleDisconnect_outcome (indexed : Indexed state.host)
    (done : handleDisconnect data addr state = .ok after) :
    after = state ∨ ∃ live host packet, host.peers = state.host.peers.erase addr ∧
      host.reconnectWatermarks = state.host.reconnectWatermarks ∧
      after = ((state.send addr packet).setHost host).raise (.disconnected live .remote) addr := by
  unfold handleDisconnect at done
  split at done
  · cases done
    exact Or.inl rfl
  · split at done
    · cases done
      exact Or.inl rfl
    · rename_i peer found
      split at done
      · cases done
        exact Or.inl rfl
      · obtain ⟨host, left, removed⟩ := removePeerAt_spec indexed found
        simp only [removePeer, send, left] at done
        cases done
        exact Or.inr ⟨peer.id, host, _, removed.peers, removePeerAt_kept left, rfl⟩

theorem handleDisconnect_passes (indexed : Indexed state.host)
    (done : handleDisconnect data addr state = .ok after) : Passes state after := by
  rcases handleDisconnect_outcome indexed done with rfl | ⟨live, host, packet, peers, marks, rfl⟩
  · exact Passes.refl _
  · exact ⟨_, rfl, Passage.of_erased peers marks⟩

theorem handleDatagram_passes {ticks : Int64} (indexed : Indexed state.host)
    (exclusive : Exclusive state.host) (done : handleDatagram data addr ticks now state = .ok after) :
    Passes state after := by
  unfold handleDatagram at done
  split at done
  · cases done
    exact Passes.refl state
  · simp only at done
    split at done
    · cases done
      exact Passes.refl state
    · split at done
      · unfold dispatch at done
        split at done
        · exact handleConnectRequest_passes indexed exclusive done
        split at done
        · cases done
          exact handleUnreliable_passes
        split at done
        · cases done
          exact handlePing_passes
        split at done
        · cases done
          exact handlePong_passes
        split at done
        · exact handleDisconnect_passes indexed done
        · cases done
          exact Passes.refl state
      · cases done
        exact Passes.refl state

theorem keepalive_passes : Passes state (keepalive addr now state) := by
  unfold keepalive
  split
  · exact Passes.refl state
  · split
    · exact Passes.refl state
    · split
      · exact Passes.refl state
      · exact ⟨_, rfl, Passage.of_modified rfl rfl fun _ => rfl⟩

theorem maintainPeer_passes (indexed : Indexed state.host)
    (done : maintainPeer addr now state = .ok after) : Passes state after := by
  unfold maintainPeer at done
  split at done
  · rename_i late
    split at done
    · unfold expired at late
      split at late
      · cases late
      · rename_i peer found
        obtain ⟨host, left, removed, marks⟩ := removePeer_kept indexed found
        rw [left] at done
        cases done
        exact .unsent rfl (Passage.of_erased removed.peers marks)
    · cases done
      exact Passes.refl state
  · cases done
    exact keepalive_passes

theorem disconnect_passage {host kept : Host} {peer : PeerId} {notice : Option (SocketAddr × Bytes)}
    (indexed : Indexed host) (done : host.disconnect peer = .ok (kept, notice)) :
    Indexed kept ∧ Passage host notice.toList kept := by
  unfold Host.disconnect at done
  split at done
  · cases done
    exact ⟨indexed, Passage.of_same rfl rfl⟩
  · rename_i addr live
    obtain ⟨found, present, -⟩ := peer_of_peerAddr live
    obtain ⟨after, left, removed⟩ := removePeerAt_spec indexed present
    simp only [left] at done
    cases done
    exact ⟨removed.indexed, Passage.of_erased removed.peers (removePeerAt_kept left)⟩

end Handlers

section Words
variable {state after : PollState} {addr : SocketAddr} {now : Instant} {data : Bytes}

/-- An unfragmented unreliable datagram from the peer's own address, with its connection number. -/
structure Spoken (host : Host) (data : Bytes) (addr : SocketAddr) (peer : PeerId) (payload : Bytes) :
    Prop where
  whole : (Header.fromByte (data.getD 0 0)).fragmented = false
  unreliable : (Header.fromByte (data.getD 0 0)).property = Property.unreliable
  address : host.peerAddr peer = some addr
  session : ∃ live, host.peers.get? addr = some live ∧ live.id = peer ∧
    live.connectionNumber = (Header.fromByte (data.getD 0 0)).connectionNumber
  body : ∃ first, data = first :: payload

def Wordless (state after : PollState) : Prop :=
  ∀ peer payload source, (Event.data peer payload, source) ∈ after.events →
    (Event.data peer payload, source) ∈ state.events

theorem wordless_same (events : after.events = state.events) : Wordless state after :=
  fun _ _ _ member => events ▸ member

theorem wordless_raised {middle : PollState} {event : Event} {source : SocketAddr}
    (before : Wordless state middle) (events : after.events = middle.events ++ [(event, source)])
    (other : ∀ peer payload, event ≠ .data peer payload) : Wordless state after := by
  intro peer payload origin member
  rw [events, List.mem_append, List.mem_singleton] at member
  rcases member with old | fresh
  · exact before peer payload origin old
  · cases fresh
    exact absurd rfl (other peer payload)

theorem Admission.wordless {request : ConnectRequest} {replaced : Bool}
    (admission : Admission request addr now replaced state after) : Wordless state after := by
  cases admission with
  | accepted peer time peers marks sent events =>
      exact wordless_raised (wordless_same rfl) events (by intro _ _ same; cases same)
  | refused vacant => exact wordless_same rfl
  | marked displaced recorded => exact wordless_same rfl

theorem Answer.wordless {request : ConnectRequest} (answer : Answer request addr now state after) :
    Wordless state after := by
  cases answer with
  | stale found earlier => exact wordless_same rfl
  | again found same => exact wordless_same rfl
  | barred vacant found earlier => exact wordless_same rfl
  | full vacant unbarred => exact wordless_same rfl
  | tried vacant unbarred admission => exact admission.wordless
  | @superseded live host _ found later peers marks admission =>
      have left : Wordless state ((state.setHost host).raise (.disconnected live.id .remote) addr) :=
        wordless_raised (wordless_same rfl) rfl (by intro _ _ same; cases same)
      exact fun peer payload source member =>
        left peer payload source (admission.wordless peer payload source member)

theorem handleConnectRequest_wordless (indexed : Indexed state.host)
    (done : handleConnectRequest data addr now state = .ok after) : Wordless state after := by
  rcases handleConnectRequest_outcome indexed done with rfl | ⟨packet, rfl⟩ | ⟨request, answer⟩
  · exact wordless_same rfl
  · exact wordless_same rfl
  · exact answer.wordless

theorem handleDisconnect_wordless (indexed : Indexed state.host)
    (done : handleDisconnect data addr state = .ok after) : Wordless state after := by
  rcases handleDisconnect_outcome indexed done with rfl | ⟨live, host, packet, -, -, rfl⟩
  · exact wordless_same rfl
  · exact wordless_raised (wordless_same rfl) rfl (by intro _ _ same; cases same)

theorem handlePing_wordless {ticks : Int64} : Wordless state (handlePing data addr ticks now state) := by
  unfold handlePing
  split
  · exact wordless_same rfl
  · split <;> exact wordless_same rfl

theorem handlePong_wordless : Wordless state (handlePong data addr now state) := by
  unfold handlePong
  split <;> exact wordless_same rfl

/-- Only an unreliable datagram of a live session raises a `Data` event. -/
theorem handleDatagram_spoken {ticks : Int64} (indexed : Indexed state.host)
    (done : handleDatagram data addr ticks now state = .ok after) {peer : PeerId} {payload : Bytes}
    {source : SocketAddr} (member : (Event.data peer payload, source) ∈ after.events) :
    (Event.data peer payload, source) ∈ state.events ∨
      source = addr ∧ Spoken state.host data addr peer payload := by
  have quiet : Wordless state after → (Event.data peer payload, source) ∈ state.events ∨
      source = addr ∧ Spoken state.host data addr peer payload :=
    fun wordless => Or.inl (wordless peer payload source member)
  unfold handleDatagram at done
  split at done
  · cases done
    exact quiet (wordless_same rfl)
  · rename_i first rest
    simp only at done
    split at done
    · cases done
      exact quiet (wordless_same rfl)
    · rename_i whole
      split at done
      · rename_i known
        unfold dispatch at done
        split at done
        · exact quiet (handleConnectRequest_wordless indexed done)
        · rename_i no_request
          split at done
          · rename_i unreliable
            cases done
            unfold handleUnreliable at member
            split at member
            · exact Or.inl member
            · rename_i live found
              rcases List.mem_append.mp member with old | fresh
              · exact Or.inl old
              · cases List.mem_singleton.mp fresh
                refine Or.inr ⟨rfl, by simpa using whole, unreliable, indexed.peerAddr_of found,
                  ⟨live, found, rfl, ?_⟩, first, rfl⟩
                simp only [fromSession, found, Bool.or_eq_true, beq_iff_eq, no_request, false_or] at known
                exact known.symm
          split at done
          · cases done
            exact quiet handlePing_wordless
          split at done
          · cases done
            exact quiet handlePong_wordless
          split at done
          · exact quiet (handleDisconnect_wordless indexed done)
          · cases done
            exact quiet (wordless_same rfl)
      · cases done
        exact quiet (wordless_same rfl)

theorem keepalive_wordless : Wordless state (keepalive addr now state) := by
  unfold keepalive
  split
  · exact wordless_same rfl
  · split
    · exact wordless_same rfl
    · split <;> exact wordless_same rfl

theorem maintainPeer_wordless (indexed : Indexed state.host)
    (done : maintainPeer addr now state = .ok after) : Wordless state after := by
  unfold maintainPeer at done
  split at done
  · rename_i late
    split at done
    · unfold expired at late
      split at late
      · cases late
      · rename_i peer found
        obtain ⟨host, left, -⟩ := removePeer_kept indexed found
        rw [left] at done
        cases done
        exact wordless_raised (wordless_same rfl) rfl (by intro _ _ same; cases same)
    · cases done
      exact wordless_same rfl
  · cases done
    exact keepalive_wordless

end Words

end SailwindOnline.ConnectRequests
