import Mathlib.Logic.Relation
import SailwindOnline.ConnectRequests

/-!
The order of connect requests over the life of a host. A peer gives way only
to a strictly later connect time of its address, and where it gave way without
a successor a reconnect watermark stands in for it. A life is the closure of
the moves the calls of a host are made of, so that datagrams may arrive
duplicated, delayed, reordered or forged between any two of them.
-/

namespace SailwindOnline.ConnectOrder
open Host PollState HostIndex HostPoll HostRuns WireProtocol ConnectRequests

/-- A host in the middle of its life; `past` holds what left its socket before the present poll. -/
structure Chronicle where
  past : List (SocketAddr × Bytes)
  state : PollState

namespace Chronicle

def start (limits : PeerLimits) (connectKey : String) : Chronicle :=
  { past := [], state := { host := bound limits connectKey } }

def sent (chronicle : Chronicle) : List (SocketAddr × Bytes) := chronicle.past ++ chronicle.state.sent

end Chronicle

/-- What the calls of a host are made of. The budgets of a poll only bound how many moves it makes. -/
inductive Move : Chronicle → Chronicle → Prop
  | opened {chronicle : Chronicle} (now : Instant) :
      Move chronicle
        { past := chronicle.sent
          state := expireReconnectWatermarks now maxPollWatermarkCleanups (startPoll chronicle.state.host) }
  | counted {chronicle : Chronicle} (work : PollWork) :
      Move chronicle { chronicle with state := { chronicle.state with work } }
  | received {chronicle : Chronicle} {after : PollState} {data : Bytes} {addr : SocketAddr}
      {ticks : Int64} {now : Instant}
      (handled : handleDatagram data addr ticks now chronicle.state = .ok after) :
      Move chronicle { chronicle with state := after }
  | scanned {chronicle : Chronicle} (maintenanceCursor : Nat) :
      Move chronicle
        { chronicle with
          state := chronicle.state.setHost { chronicle.state.host with maintenanceCursor } }
  | maintained {chronicle : Chronicle} {after : PollState} {addr : SocketAddr} {now : Instant}
      (maintained : maintainPeer addr now chronicle.state = .ok after) :
      Move chronicle { chronicle with state := after }
  | spoke {chronicle : Chronicle} {peer : PeerId} {bytes : Bytes} {delivered : Bool}
      {packet : Option (SocketAddr × Bytes)}
      (spoken : chronicle.state.host.sendUnreliable peer bytes delivered = .ok (.ok packet)) :
      Move chronicle { chronicle with past := chronicle.past ++ packet.toList }
  | disconnected {chronicle : Chronicle} {peer : PeerId} {after : Host}
      {notice : Option (SocketAddr × Bytes)}
      (closed : chronicle.state.host.disconnect peer = .ok (after, notice)) :
      Move chronicle
        { past := chronicle.past ++ notice.toList, state := chronicle.state.setHost after }
  | shut {chronicle : Chronicle} (order : List SocketAddr) :
      Move chronicle { past := chronicle.sent, state := chronicle.state.host.shutdown order }

abbrev Life : Chronicle → Chronicle → Prop := Relation.ReflTransGen Move

structure Sound (chronicle : Chronicle) : Prop where
  indexed : Indexed chronicle.state.host
  exclusive : Exclusive chronicle.state.host
  welcomed : ∀ addr peer, chronicle.state.host.peers.get? addr = some peer →
    (addr, acceptOf peer) ∈ chronicle.sent

section Lives
variable {chronicle later : Chronicle}

theorem sound_start (limits : PeerLimits) (connectKey : String) :
    Sound (Chronicle.start limits connectKey) where
  indexed := indexed_bound limits connectKey
  exclusive := by
    intro addr mark found
    rfl
  welcomed := by
    intro addr peer found
    cases found

theorem passes_log {after : PollState} (passes : Passes chronicle.state after) :
    ∃ fresh, (∀ packet, packet ∈ chronicle.sent ∨ packet ∈ fresh →
      packet ∈ ({ chronicle with state := after } : Chronicle).sent) ∧
      Passage chronicle.state.host fresh after.host := by
  obtain ⟨fresh, sent, passage⟩ := passes
  refine ⟨fresh, fun packet logged => ?_, passage⟩
  simp only [Chronicle.sent, sent, List.mem_append] at logged ⊢
  rcases logged with (old | recent) | fresh
  · exact Or.inl old
  · exact Or.inr (Or.inl recent)
  · exact Or.inr (Or.inr fresh)

/-- Every move keeps the indices in agreement and passes sessions and watermarks on. -/
theorem Move.passage (sound : Sound chronicle) (move : Move chronicle later) :
    Indexed later.state.host ∧
      ∃ fresh, (∀ packet, packet ∈ chronicle.sent ∨ packet ∈ fresh → packet ∈ later.sent) ∧
        Passage chronicle.state.host fresh later.state.host := by
  cases move with
  | opened now =>
      have started := indexed_startPoll sound.indexed
      obtain ⟨same, -, -⟩ := expireReconnectWatermarks_same now maxPollWatermarkCleanups
        (startPoll chronicle.state.host)
      have expired : MarksWithin chronicle.state.host
          (expireReconnectWatermarks now maxPollWatermarkCleanups (startPoll chronicle.state.host)).host :=
        expireReconnectWatermarks_marks now _ (startPoll chronicle.state.host)
      refine ⟨same.indexed started, [], fun packet logged => ?_, expired.passage []⟩
      exact List.mem_append_left _ (logged.resolve_right (List.not_mem_nil))
  | counted work =>
      exact ⟨sound.indexed, passes_log (.unsent rfl (Passage.of_same rfl rfl))⟩
  | @received after data addr ticks now handled =>
      obtain ⟨result, done, advance⟩ := handleDatagram_advances data addr ticks now sound.indexed
      rw [handled, Except.ok.injEq] at done
      subst done
      exact ⟨advance.indexed, passes_log (handleDatagram_passes sound.indexed sound.exclusive handled)⟩
  | scanned maintenanceCursor =>
      have same : SameIndex chronicle.state.host
          { chronicle.state.host with maintenanceCursor } := .of_peers_eq rfl
      exact ⟨same.indexed sound.indexed, passes_log (.unsent rfl (Passage.of_same rfl rfl))⟩
  | @maintained after addr now maintained =>
      obtain ⟨result, done, advance⟩ := maintainPeer_advances now addr sound.indexed
      rw [maintained, Except.ok.injEq] at done
      subst done
      exact ⟨advance.indexed, passes_log (maintainPeer_passes sound.indexed maintained)⟩
  | @spoke peer bytes delivered packet spoken =>
      refine ⟨sound.indexed, [], fun sent logged => ?_, Passage.of_same rfl rfl⟩
      have old := logged.resolve_right List.not_mem_nil
      simp only [Chronicle.sent, List.mem_append] at old ⊢
      exact old.imp_left Or.inl
  | @disconnected peer after notice closed =>
      obtain ⟨indexed, passage⟩ := disconnect_passage sound.indexed closed
      refine ⟨indexed, notice.toList, fun packet logged => ?_, passage⟩
      simp only [Chronicle.sent, List.mem_append] at logged ⊢
      rcases logged with (old | recent) | fresh
      · exact Or.inl (Or.inl old)
      · exact Or.inr recent
      · exact Or.inl (Or.inr fresh)
  | shut order =>
      have same : SameIndex (bound chronicle.state.host.limits chronicle.state.host.connectKey)
          (chronicle.state.host.shutdown order).host := .of_peers_eq rfl
      refine ⟨same.indexed (indexed_bound _ _), [], fun packet logged => ?_, ?_⟩
      · exact List.mem_append_left _ (logged.resolve_right List.not_mem_nil)
      · exact ⟨fun addr peer found => (by cases found), fun addr mark found => (by cases found)⟩

theorem Sound.move (sound : Sound chronicle) (move : Move chronicle later) : Sound later := by
  obtain ⟨indexed, fresh, logged, passage⟩ := move.passage sound
  refine ⟨indexed, fun addr mark found => ?_, fun addr peer found => ?_⟩
  · rcases passage.marks addr mark found with ⟨earlier, present, -⟩ | ⟨vacant, -⟩
    · cases entered : later.state.host.peers.get? addr with
      | none => rfl
      | some peer =>
          rcases passage.sessions addr peer entered with ⟨before, live, -⟩ | welcome
          · rw [sound.exclusive addr earlier present] at live
            cases live
          · rw [welcome.unmarked] at found
            cases found
    · exact vacant
  · rcases passage.sessions addr peer found with ⟨earlier, live, same⟩ | welcome
    · rw [← acceptOf_session same]
      exact logged _ (Or.inl (sound.welcomed addr earlier live))
    · exact logged _ (Or.inr welcome.answered)

theorem Sound.life (sound : Sound chronicle) (life : Life chronicle later) : Sound later := by
  induction life with
  | refl => exact sound
  | tail _ move ih => exact ih.move move

/-- A move after which `addr` still has a watermark. -/
def Retains (addr : SocketAddr) (chronicle later : Chronicle) : Prop :=
  Move chronicle later ∧ ∃ mark, later.state.host.reconnectWatermarks.get? addr = some mark

/-- While it is retained a watermark only rises: a live peer is what it would have to start over from. -/
theorem retained_rises {addr : SocketAddr} {mark : ReconnectWatermark} (sound : Sound chronicle)
    (held : chronicle.state.host.reconnectWatermarks.get? addr = some mark)
    (retained : Relation.ReflTransGen (Retains addr) chronicle later) :
    Sound later ∧ ∃ last, later.state.host.reconnectWatermarks.get? addr = some last ∧
      mark.connectTime ≤ last.connectTime := by
  induction retained with
  | refl => exact ⟨sound, mark, held, Int64.le_refl _⟩
  | tail _ step ih =>
      obtain ⟨before, last, present, floor⟩ := ih
      obtain ⟨move, next, found⟩ := step
      obtain ⟨-, fresh, -, passage⟩ := move.passage before
      refine ⟨before.move move, next, found, ?_⟩
      rcases passage.marks addr next found with ⟨earlier, same, rises⟩ | ⟨-, live, entered⟩
      · rw [present, Option.some.injEq] at same
        exact Int64.le_trans floor (same ▸ rises)
      · rw [before.exclusive addr last present] at entered
        cases entered

theorem accepted_above_watermark {addr : SocketAddr} {mark : ReconnectWatermark} {peer : Peer}
    (sound : Sound chronicle) (held : chronicle.state.host.reconnectWatermarks.get? addr = some mark)
    (move : Move chronicle later) (accepted : later.state.host.peers.get? addr = some peer) :
    mark.connectTime ≤ peer.connectTime := by
  obtain ⟨-, fresh, -, passage⟩ := move.passage sound
  rcases passage.sessions addr peer accepted with ⟨earlier, live, -⟩ | welcome
  · rw [sound.exclusive addr mark held] at live
    cases live
  · exact welcome.ordered mark held

end Lives

section Polls
variable {now : Instant}

/-- The drain loop is a life, and its `Data` events are words of datagrams it took from the script. -/
theorem drainSocket_life (past : List (SocketAddr × Bytes)) (script : List SocketTurn) (state : PollState)
    {drained : PollState} (indexed : Indexed state.host) (done : drainSocket now script state = .ok drained) :
    Life ⟨past, state⟩ ⟨past, drained⟩ ∧
      ∀ peer payload source, (Event.data peer payload, source) ∈ drained.events →
        (Event.data peer payload, source) ∈ state.events ∨
          ∃ size data ticks before, SocketTurn.peeked size (.datagram data source ticks) ∈ script ∧
            Life ⟨past, state⟩ ⟨past, before⟩ ∧ Spoken before.host data source peer payload := by
  induction script generalizing state with
  | nil =>
      cases done
      exact ⟨.refl, fun _ _ _ member => Or.inl member⟩
  | cons turn rest ih =>
      have stopped : Except.ok state = (.ok drained : Except Panic PollState) →
          Life ⟨past, state⟩ ⟨past, drained⟩ ∧
            ∀ peer payload source, (Event.data peer payload, source) ∈ drained.events →
              (Event.data peer payload, source) ∈ state.events ∨
                ∃ size data ticks before,
                  SocketTurn.peeked size (.datagram data source ticks) ∈ turn :: rest ∧
                  Life ⟨past, state⟩ ⟨past, before⟩ ∧ Spoken before.host data source peer payload := by
        intro same
        cases same
        exact ⟨.refl, fun _ _ _ member => Or.inl member⟩
      -- What holds of the loop from a later state of the same poll holds from this one.
      have onward : ∀ middle : PollState, Indexed middle.host → Life ⟨past, state⟩ ⟨past, middle⟩ →
          drainSocket now rest middle = .ok drained →
          Life ⟨past, state⟩ ⟨past, drained⟩ ∧
            ∀ peer payload source, (Event.data peer payload, source) ∈ drained.events →
              (Event.data peer payload, source) ∈ middle.events ∨
                ∃ size data ticks before,
                  SocketTurn.peeked size (.datagram data source ticks) ∈ turn :: rest ∧
                  Life ⟨past, state⟩ ⟨past, before⟩ ∧ Spoken before.host data source peer payload := by
        intro middle settled before went
        obtain ⟨life, words⟩ := ih middle settled went
        refine ⟨before.trans life, fun peer payload source member => ?_⟩
        rcases words peer payload source member with old | ⟨size, data, ticks, moment, listed, lived, spoken⟩
        · exact Or.inl old
        · exact Or.inr ⟨size, data, ticks, moment, List.mem_cons_of_mem turn listed, before.trans lived,
            spoken⟩
      have counted : ∀ size, Life ⟨past, state⟩ ⟨past, state.countPacket size⟩ := fun size =>
        .single (Move.counted _)
      unfold drainSocket at done
      split at done
      · cases turn with
        | wouldBlock => exact stopped done
        | failed => exact stopped done
        | connectionReset => exact onward (state.countPacket 0) indexed (counted 0) done
        | peeked size received =>
            simp only at done
            split at done
            · exact stopped done
            · cases received with
              | wouldBlock => exact stopped done
              | failed => exact stopped done
              | connectionReset => exact onward (state.countPacket 0) indexed (counted 0) done
              | datagram data addr ticks =>
                  simp only at done
                  split at done
                  · exact onward (state.countPacket data.length) indexed (counted data.length) done
                  · have here : Indexed (state.countPacket data.length).host := indexed
                    obtain ⟨after, handled, advance⟩ := handleDatagram_advances data addr ticks now here
                    rw [handled] at done
                    have moved : Life ⟨past, state⟩ ⟨past, after⟩ :=
                      (counted data.length).tail (Move.received handled)
                    obtain ⟨life, words⟩ := onward after advance.indexed moved done
                    refine ⟨life, fun peer payload source member => ?_⟩
                    rcases words peer payload source member with recent | earlier
                    · rcases handleDatagram_spoken here handled recent with old | ⟨rfl, spoken⟩
                      · exact Or.inl old
                      · exact Or.inr ⟨size, data, ticks, _, List.mem_cons_self, counted data.length, spoken⟩
                    · exact Or.inr earlier
      · exact stopped done

theorem scanSlots_life (past : List (SocketAddr × Bytes)) {slotCount : Nat} (scans : Nat)
    (state : PollState) {scanned : PollState} (indexed : Indexed state.host)
    (done : scanSlots now slotCount scans state = .ok scanned) :
    Life ⟨past, state⟩ ⟨past, scanned⟩ ∧ Wordless state scanned := by
  induction scans generalizing state with
  | zero =>
      cases done
      exact ⟨.refl, wordless_same rfl⟩
  | succ scans ih =>
      have moved : Life ⟨past, state⟩ ⟨past, (nextSlot slotCount state).1⟩ :=
        .tail (.single (Move.scanned _)) (Move.counted _)
      have advanced : Advance state (nextSlot slotCount state).1 :=
        Advance.of_same indexed (.of_peers_eq rfl) rfl rfl
      have settled := advanced.indexed
      unfold scanSlots at done
      rcases stepped : nextSlot slotCount state with ⟨next, slot⟩
      have events : next.events = state.events := by
        have first := congrArg (fun pair : PollState × Nat => pair.1.events) stepped
        exact first.symm
      rw [stepped] at moved settled
      simp only [stepped] at done
      split at done
      · cases done
      · obtain ⟨life, wordless⟩ := ih next settled done
        exact ⟨moved.trans life, fun peer payload source member =>
          events ▸ wordless peer payload source member⟩
      · rename_i addr _
        obtain ⟨after, kept, advance⟩ := maintainPeer_advances now addr settled
        rw [kept] at done
        obtain ⟨life, wordless⟩ := ih after advance.indexed done
        refine ⟨(moved.tail (Move.maintained kept)).trans life, fun peer payload source member => ?_⟩
        exact events ▸ maintainPeer_wordless settled kept peer payload source
          (wordless peer payload source member)

/-- A poll is a life, and each of its `Data` events is the word of a datagram in its script. -/
theorem pollWithWork_life {chronicle : Chronicle} (sound : Sound chronicle) (now : Instant)
    (script : List SocketTurn) :
    ∃ batch, chronicle.state.host.pollWithWork now script = .ok batch ∧
      Life chronicle ⟨chronicle.sent, batch⟩ ∧
      ∀ peer payload source, (Event.data peer payload, source) ∈ batch.events →
        ∃ size data ticks before, SocketTurn.peeked size (.datagram data source ticks) ∈ script ∧
          Life chronicle before ∧ Spoken before.state.host data source peer payload := by
  have opened : Life chronicle
      ⟨chronicle.sent, expireReconnectWatermarks now maxPollWatermarkCleanups
        (startPoll chronicle.state.host)⟩ := .single (Move.opened now)
  have settled := (sound.life opened).indexed
  obtain ⟨-, silent, -⟩ := expireReconnectWatermarks_same now maxPollWatermarkCleanups
    (startPoll chronicle.state.host)
  obtain ⟨drained, drain, advance⟩ := drainSocket_advances now script _ settled
  obtain ⟨draining, words⟩ := drainSocket_life chronicle.sent script _ settled drain
  have counted : Life chronicle ⟨chronicle.sent,
      { drained with work := { drained.work with socketEvents := drained.events.length } }⟩ :=
    (opened.trans draining).tail (Move.counted _)
  have counted_indexed := (sound.life counted).indexed
  obtain ⟨batch, done, -⟩ := pollWithWork_advances sound.indexed now script
  refine ⟨batch, done, ?_⟩
  simp only [pollWithWork, drain, processPeerMaintenance] at done
  have finished : Life chronicle ⟨chronicle.sent, batch⟩ ∧
      Wordless { drained with work := { drained.work with socketEvents := drained.events.length } }
        batch := by
    split at done
    · cases done
      exact ⟨counted.tail (Move.scanned 0), wordless_same rfl⟩
    · obtain ⟨scanning, wordless⟩ := scanSlots_life chronicle.sent _ _ counted_indexed done
      exact ⟨counted.trans scanning, wordless⟩
  refine ⟨finished.1, fun peer payload source member => ?_⟩
  rcases words peer payload source (finished.2 peer payload source member) with
    old | ⟨size, data, ticks, before, listed, lived, spoken⟩
  · rw [silent] at old
    cases old
  · exact ⟨size, data, ticks, ⟨chronicle.sent, before⟩, listed, opened.trans lived, spoken⟩

/-- Every reachable host is the host of some life. -/
theorem reachable_life {host : Host} (reached : Reachable host) :
    ∃ limits connectKey chronicle, Life (Chronicle.start limits connectKey) chronicle ∧
      chronicle.state.host = host := by
  induction reached with
  | bound limits connectKey => exact ⟨limits, connectKey, _, .refl, rfl⟩
  | @serve host outcome call _ served ih =>
      obtain ⟨limits, connectKey, chronicle, life, rfl⟩ := ih
      have sound := (sound_start limits connectKey).life life
      cases call with
      | poll now script =>
          obtain ⟨batch, done, polled, -⟩ := pollWithWork_life sound now script
          simp only [serve, done] at served
          cases served
          exact ⟨limits, connectKey, _, life.trans polled, rfl⟩
      | sendUnreliable peer bytes delivered =>
          obtain ⟨answer, done⟩ := sendUnreliable_total chronicle.state.host peer bytes delivered
          simp only [serve, done] at served
          cases served
          cases answer with
          | error refused => exact ⟨limits, connectKey, chronicle, life, rfl⟩
          | ok packet => exact ⟨limits, connectKey, _, life.tail (Move.spoke done), rfl⟩
      | disconnect peer =>
          simp only [serve] at served
          split at served
          · cases served
          · rename_i after notice done
            cases served
            refine ⟨limits, connectKey, _, life.tail (Move.disconnected done), ?_⟩
            unfold evictionOutcome
            split
            · rfl
            · split <;> rfl
  | @shutdown host order _ ih =>
      obtain ⟨limits, connectKey, chronicle, life, rfl⟩ := ih
      exact ⟨limits, connectKey, _, life.tail (Move.shut order), rfl⟩

end Polls

/-- A genuine request from `addr`, handled with `after` as its outcome, keeps the order of connect times. -/
structure Ordered (chronicle : Chronicle) (request : ConnectRequest) (addr : SocketAddr)
    (after : PollState) : Prop where
  stale : ∀ live, chronicle.state.host.peers.get? addr = some live →
    request.connectTime < live.connectTime → after = chronicle.state
  again : ∀ live, chronicle.state.host.peers.get? addr = some live →
    request.connectTime = live.connectTime →
      after = chronicle.state.send addr (acceptOf live) ∧ (addr, acceptOf live) ∈ chronicle.sent
  replaced : ∀ live, chronicle.state.host.peers.get? addr = some live →
    after.host.peers.get? addr ≠ some live → live.connectTime < request.connectTime
  succeeded : ∀ live, chronicle.state.host.peers.get? addr = some live →
    live.connectTime < request.connectTime →
      (∃ peer, after.host.peers.get? addr = some peer ∧ peer.connectTime = request.connectTime) ∨
        after.host.peers.get? addr = none ∧
          ∃ mark, after.host.reconnectWatermarks.get? addr = some mark ∧
            mark.connectTime = request.connectTime
  barred : ∀ mark, chronicle.state.host.reconnectWatermarks.get? addr = some mark →
    request.connectTime < mark.connectTime → after = chronicle.state
  apart : ∀ other, other ≠ addr →
    after.host.peers.get? other = chronicle.state.host.peers.get? other

section Order
variable {chronicle : Chronicle} {request : ConnectRequest} {addr : SocketAddr} {now : Instant}
  {after : PollState}

theorem irreflexive {left right : Int64} (less : left < right) (same : left = right) : False :=
  Int64.lt_irrefl (same ▸ less)

theorem asymmetric {left right : Int64} (less : left < right) (greater : right < left) : False :=
  Int64.lt_irrefl (Int64.lt_trans less greater)

theorem ordered_superseded {live : Peer} {host : Host} (sound : Sound chronicle)
    (found : chronicle.state.host.peers.get? addr = some live)
    (later : live.connectTime < request.connectTime)
    (peers : host.peers = chronicle.state.host.peers.erase addr)
    (marks : host.reconnectWatermarks = chronicle.state.host.reconnectWatermarks)
    (admission : Admission request addr now true
      ((chronicle.state.setHost host).raise (.disconnected live.id .remote) addr) after) :
    Ordered chronicle request addr after := by
  have unmarked := sound.exclusive.unmarked found
  have only : ∀ other, chronicle.state.host.peers.get? addr = some other → other = live :=
    fun other present => Option.some.inj (present.symm.trans found)
  refine ⟨fun other present earlier => ?_, fun other present same => ?_, fun other present _ => ?_,
    fun other present _ => ?_, fun mark held _ => ?_, fun other differs => ?_⟩
  · rw [only other present] at earlier
    exact (asymmetric earlier later).elim
  · rw [only other present] at same
    exact (irreflexive later same.symm).elim
  · rw [only other present]
    exact later
  · cases admission with
    | refused vacant => cases vacant
    | accepted peer time inserted erased sent events =>
        exact Or.inl ⟨peer, by rw [inserted, FiniteMap.get?_insert_self], time⟩
    | marked displaced recorded =>
        have clear : host.reconnectWatermarks.get? addr = none := marks ▸ unmarked
        obtain ⟨kept, recorded, -⟩ := recordReconnectWatermark_marks clear recorded
        refine Or.inr ⟨?_, recorded⟩
        exact (congrArg (fun map => map.get? addr) (kept.trans peers)).trans
          (FiniteMap.get?_erase_self _ _)
  · rw [unmarked] at held
    cases held
  · have erased : host.peers.get? other = chronicle.state.host.peers.get? other := by
      rw [peers, FiniteMap.get?_erase, if_neg differs]
    cases admission with
    | refused vacant => exact erased
    | accepted peer time inserted _ sent events =>
        rw [inserted, FiniteMap.get?_insert, if_neg differs]
        exact erased
    | marked displaced recorded =>
        have clear : host.reconnectWatermarks.get? addr = none := marks ▸ unmarked
        obtain ⟨kept, -⟩ := recordReconnectWatermark_marks clear recorded
        exact (congrArg (fun map => map.get? other) kept).trans erased

/-- Without a live peer at the address only the watermark can bar the request. -/
theorem ordered_vacant (vacant : chronicle.state.host.peers.get? addr = none)
    (barred : ∀ mark, chronicle.state.host.reconnectWatermarks.get? addr = some mark →
      request.connectTime < mark.connectTime → after = chronicle.state)
    (apart : ∀ other, other ≠ addr →
      after.host.peers.get? other = chronicle.state.host.peers.get? other) :
    Ordered chronicle request addr after := by
  have nobody : ∀ live, chronicle.state.host.peers.get? addr = some live → False := by
    intro live found
    rw [vacant] at found
    cases found
  exact ⟨fun live found => (nobody live found).elim, fun live found => (nobody live found).elim,
    fun live found => (nobody live found).elim, fun live found => (nobody live found).elim, barred, apart⟩

theorem Answer.ordered (sound : Sound chronicle) (answer : Answer request addr now chronicle.state after) :
    Ordered chronicle request addr after := by
  have unbarred_false : ∀ {mark : ReconnectWatermark}, mark.connectTime ≤ request.connectTime →
      request.connectTime < mark.connectTime → False :=
    fun floor earlier => Int64.not_lt.mpr floor earlier
  cases answer with
  | @stale live found earlier =>
      have only : ∀ other, chronicle.state.host.peers.get? addr = some other → other = live :=
        fun other present => Option.some.inj (present.symm.trans found)
      refine ⟨fun _ _ _ => rfl, fun other present same => ?_, fun other present changed => ?_,
        fun other present later => ?_, fun _ _ _ => rfl, fun _ _ => rfl⟩
      · rw [only other present] at same
        exact (irreflexive earlier same).elim
      · exact absurd present changed
      · rw [only other present] at later
        exact (asymmetric earlier later).elim
  | @again live found same =>
      have only : ∀ other, chronicle.state.host.peers.get? addr = some other → other = live :=
        fun other present => Option.some.inj (present.symm.trans found)
      refine ⟨fun other present earlier => ?_, fun other present _ => ?_, fun other present changed => ?_,
        fun other present later => ?_, fun mark held _ => ?_, fun _ _ => rfl⟩
      · rw [only other present] at earlier
        exact (irreflexive earlier same.symm).elim
      · rw [only other present]
        exact ⟨rfl, sound.welcomed addr live found⟩
      · exact absurd present changed
      · rw [only other present] at later
        exact (irreflexive later same).elim
      · rw [sound.exclusive.unmarked found] at held
        cases held
  | superseded found later peers marks admission =>
      exact ordered_superseded sound found later peers marks admission
  | barred vacant found earlier => exact ordered_vacant vacant (fun _ _ _ => rfl) fun _ _ => rfl
  | full vacant unbarred =>
      exact ordered_vacant vacant
        (fun mark held earlier => (unbarred_false (unbarred mark held) earlier).elim) fun _ _ => rfl
  | tried vacant unbarred admission =>
      refine ordered_vacant vacant
        (fun mark held earlier => (unbarred_false (unbarred mark held) earlier).elim)
        fun other differs => ?_
      cases admission with
      | refused _ => rfl
      | accepted peer time inserted erased sent events =>
          rw [inserted, FiniteMap.get?_insert, if_neg differs]
          rfl
      | marked displaced _ => cases displaced

end Order

/-- At every point of every life: genuine requests are answered in the order of their connect times, a
retained watermark bars earlier peers, and the `Data` events of a poll are words of live sessions. -/
theorem connect_requests_ordered {limits : PeerLimits} {connectKey : String} {chronicle : Chronicle}
    (life : Life (Chronicle.start limits connectKey) chronicle) :
    (∀ data addr ticks now, ∃ after, handleDatagram data addr ticks now chronicle.state = .ok after ∧
      (∀ request, Genuine chronicle.state.host data request → Ordered chronicle request addr after) ∧
      ∀ peer payload source, (Event.data peer payload, source) ∈ after.events →
        (Event.data peer payload, source) ∈ chronicle.state.events ∨
          source = addr ∧ Spoken chronicle.state.host data addr peer payload) ∧
    (∀ addr mark, chronicle.state.host.reconnectWatermarks.get? addr = some mark →
      chronicle.state.host.peers.get? addr = none ∧
      ∀ later next peer, Relation.ReflTransGen (Retains addr) chronicle later → Move later next →
        next.state.host.peers.get? addr = some peer → mark.connectTime ≤ peer.connectTime) ∧
    (∀ now script, ∃ batch, chronicle.state.host.pollWithWork now script = .ok batch ∧
      Life chronicle ⟨chronicle.sent, batch⟩ ∧
      ∀ peer payload source, (Event.data peer payload, source) ∈ batch.events →
        ∃ size data ticks before, SocketTurn.peeked size (.datagram data source ticks) ∈ script ∧
          Life chronicle before ∧ Spoken before.state.host data source peer payload) := by
  have sound := (sound_start limits connectKey).life life
  refine ⟨fun data addr ticks now => ?_, fun addr mark held => ?_, pollWithWork_life sound⟩
  · obtain ⟨after, done, -⟩ := handleDatagram_advances data addr ticks now sound.indexed
    refine ⟨after, done, fun request genuine => ?_, fun peer payload source member =>
      handleDatagram_spoken sound.indexed done member⟩
    have handled : handleConnectRequest data addr now chronicle.state = .ok after :=
      genuine.handled.symm.trans done
    exact Answer.ordered sound (handleConnectRequest_answer sound.indexed genuine.parsed genuine.protocol
      genuine.key handled)
  · refine ⟨sound.exclusive addr mark held, fun later next peer retained move accepted => ?_⟩
    obtain ⟨settled, last, still, floor⟩ := retained_rises sound held retained
    exact Int64.le_trans floor (accepted_above_watermark settled still move accepted)

def staleRequest : ConnectRequest :=
  { connectionNumber := 1, protocolId, connectTime := 5, peerId := 0
    connectData := writeLitenetString "key" }

def staleDatagram : Bytes := buildConnectRequest 1 5 0 16 (writeLitenetString "key")

/-- A request of time 5 that arrives after the peer of time 7 was accepted changes nothing. -/
theorem connect_requests_ordered_stale :
    ∃ chronicle live, Life (Chronicle.start pairLimits "key") chronicle ∧
      chronicle.state.host.peers.get? firstAddr = some live ∧ live.connectTime = 7 ∧
      Genuine chronicle.state.host staleDatagram staleRequest ∧
      handleDatagram staleDatagram firstAddr 0 1 chronicle.state = .ok chronicle.state := by
  let script := [SocketTurn.peeked 39 (.datagram
    (buildConnectRequest 0 7 0 16 (writeLitenetString "key")) firstAddr 0)]
  obtain ⟨batch, polled, life, -⟩ :=
    (connect_requests_ordered (Relation.ReflTransGen.refl :
      Life (Chronicle.start pairLimits "key") (Chronicle.start pairLimits "key"))).2.2 0 script
  have facts : ((bound pairLimits "key").pollWithWork 0 script).toOption.map (fun batch =>
      ((batch.host.peers.get? firstAddr).map Peer.connectTime, batch.host.connectKey)) =
      some (some 7, "key") := by decide +kernel
  have at_start : (bound pairLimits "key").pollWithWork 0 script = .ok batch := polled
  rw [at_start] at facts
  obtain ⟨time, key⟩ := Prod.mk.inj (Option.some.inj facts)
  obtain ⟨live, found, seven⟩ := Option.map_eq_some_iff.mp time
  have genuine : Genuine batch.host staleDatagram staleRequest :=
    ⟨by decide +kernel, by decide +kernel, rfl, by rw [key]; decide +kernel⟩
  refine ⟨_, live, life, found, seven, genuine, ?_⟩
  obtain ⟨after, handled, ordered, -⟩ := (connect_requests_ordered life).1 staleDatagram firstAddr 0 1
  rw [handled, (ordered staleRequest genuine).stale live found (by rw [seven]; decide)]

end SailwindOnline.ConnectOrder
