import SailwindOnline.HostRuns

/-!
Timeout cleanup. Every poll inspects the next slots after its cursor and removes
at most 64 expired peers; one it has no budget for waits for a later round over
all slots. A round therefore removes 64 peers or leaves no expired one.
-/

namespace SailwindOnline.HostTimeouts
open Host HostIndex HostPoll PollState

section Cleaning
variable {host middle after : Host} {now : Instant} {addr : SocketAddr} {removed : List SocketAddr}

/-- What maintenance reads of a peer, apart from its pings. -/
def standing (peer : Peer) : PeerId × Nat × Instant := (peer.id, peer.slot, peer.lastRecv)

def view (host : Host) (addr : SocketAddr) : Option (PeerId × Nat × Instant) :=
  (host.peers.get? addr).map standing

def idAt (host : Host) (addr : SocketAddr) : PeerId := ((host.peers.get? addr).map Peer.id).getD 0

/-- The peers that a poll at `now` may drop. -/
def expiredPeers (host : Host) (now : Instant) : Finset SocketAddr :=
  host.peers.keys.filter fun addr => expired host addr now = true

theorem expired_eq (host : Host) (addr : SocketAddr) (now : Instant) :
    expired host addr now = (view host addr).any fun seen => decide (now - seen.2.2 > host.timeout) := by
  unfold expired view
  split <;> rename_i found <;> simp [found, standing]

theorem idAt_eq (host : Host) (addr : SocketAddr) : idAt host addr = ((view host addr).map Prod.fst).getD 0 := by
  unfold idAt view
  rw [Option.map_map]
  rfl

theorem mem_expiredPeers (host : Host) (addr : SocketAddr) (now : Instant) :
    addr ∈ expiredPeers host now ↔ expired host addr now = true := by
  rw [expiredPeers, Finset.mem_filter, and_iff_right_iff_imp, FiniteMap.mem_keys]
  intro late
  unfold expired at late
  split at late
  · cases late
  · rename_i found
    rw [found]
    rfl

/-- The peers at the addresses in `removed`, all of them expired, are gone and the others stand as before. -/
structure Cleaned (now : Instant) (host : Host) (removed : List SocketAddr) (after : Host) : Prop where
  indexed : Indexed after
  slots : after.peerSlots.length = host.peerSlots.length
  timeout : after.timeout = host.timeout
  unique : removed.Nodup
  late : ∀ addr ∈ removed, expired host addr now = true
  view : ∀ addr, view after addr = if addr ∈ removed then none else view host addr

namespace Cleaned

theorem of_same (indexed : Indexed after) (slots : after.peerSlots.length = host.peerSlots.length)
    (timeout : after.timeout = host.timeout)
    (same : ∀ addr, HostTimeouts.view after addr = HostTimeouts.view host addr) :
    Cleaned now host [] after :=
  ⟨indexed, slots, timeout, List.nodup_nil, by simp, by simpa using same⟩

theorem expired_iff (cleaned : Cleaned now host removed after) (addr : SocketAddr) :
    expired after addr now = true ↔ addr ∉ removed ∧ expired host addr now = true := by
  rw [expired_eq, expired_eq, cleaned.view, cleaned.timeout]
  split <;> rename_i gone <;> simp [gone]

theorem trans {early late : List SocketAddr} (first : Cleaned now host early middle)
    (second : Cleaned now middle late after) : Cleaned now host (early ++ late) after where
  indexed := second.indexed
  slots := second.slots.trans first.slots
  timeout := second.timeout.trans first.timeout
  unique := by
    refine List.nodup_append.mpr ⟨first.unique, second.unique, ?_⟩
    rintro addr before _ after rfl
    exact ((first.expired_iff addr).mp (second.late addr after)).1 before
  late := by
    intro addr listed
    rcases List.mem_append.mp listed with before | after
    · exact first.late addr before
    · exact ((first.expired_iff addr).mp (second.late addr after)).2
  view := by
    intro addr
    rw [second.view, first.view]
    by_cases after : addr ∈ late <;> by_cases before : addr ∈ early <;> simp [after, before]

theorem idAt_kept (cleaned : Cleaned now host removed after) (present : addr ∉ removed) :
    idAt after addr = idAt host addr := by
  rw [idAt_eq, idAt_eq, cleaned.view, if_neg present]

theorem expiredPeers_eq (cleaned : Cleaned now host removed after) :
    expiredPeers after now = expiredPeers host now \ removed.toFinset := by
  ext addr
  rw [Finset.mem_sdiff, mem_expiredPeers, mem_expiredPeers, cleaned.expired_iff, List.mem_toFinset, and_comm]

/-- Every removal leaves one expired peer less. -/
theorem card_add (cleaned : Cleaned now host removed after) :
    (expiredPeers after now).card + removed.length = (expiredPeers host now).card := by
  have inside : removed.toFinset ⊆ expiredPeers host now := by
    intro addr listed
    exact (mem_expiredPeers host addr now).mpr (cleaned.late addr (List.mem_toFinset.mp listed))
  rw [cleaned.expiredPeers_eq, ← List.toFinset_card_of_nodup cleaned.unique]
  exact Finset.card_sdiff_add_card_eq_card inside

end Cleaned
end Cleaning

/-! One slot. -/
section Scans
variable {state middle after : PollState} {now : Instant} {addr : SocketAddr} {removed : List SocketAddr}

def timeoutAt (host : Host) (addr : SocketAddr) : Event × SocketAddr := (.disconnected (idAt host addr) .timeout, addr)

/-- A stretch of maintenance: what it removed, raised and spent of the budget. -/
structure Tidied (now : Instant) (state : PollState) (removed : List SocketAddr) (after : PollState) : Prop where
  cleaned : Cleaned now state.host removed after.host
  events : after.events = state.events ++ removed.map (timeoutAt state.host)
  spent : after.work.timeoutEvents = state.work.timeoutEvents + removed.length
  within : state.work.timeoutEvents ≤ maxPollTimeoutEvents → after.work.timeoutEvents ≤ maxPollTimeoutEvents

theorem Tidied.trans {early late : List SocketAddr} (first : Tidied now state early middle)
    (second : Tidied now middle late after) : Tidied now state (early ++ late) after where
  cleaned := first.cleaned.trans second.cleaned
  events := by
    have same : late.map (timeoutAt middle.host) = late.map (timeoutAt state.host) := by
      refine List.map_congr_left fun addr listed => ?_
      have present := ((first.cleaned.expired_iff addr).mp (second.cleaned.late addr listed)).1
      rw [timeoutAt, timeoutAt, first.cleaned.idAt_kept present]
    rw [second.events, first.events, same, List.append_assoc, List.map_append]
  spent := by
    rw [second.spent, first.spent, List.length_append]
    omega
  within fits := second.within (first.within fits)

theorem tidied_of_same (indexed : Indexed after.host)
    (slots : after.host.peerSlots.length = state.host.peerSlots.length)
    (timeout : after.host.timeout = state.host.timeout) (same : ∀ addr, view after.host addr = view state.host addr)
    (events : after.events = state.events) (spent : after.work.timeoutEvents = state.work.timeoutEvents) :
    Tidied now state [] after where
  cleaned := .of_same indexed slots timeout same
  events := by simp [events]
  spent := spent
  within fits := spent ▸ fits

theorem keepalive_tidies (addr : SocketAddr) (now : Instant) (indexed : Indexed state.host) :
    Tidied now state [] (keepalive addr now state) ∧
      (keepalive addr now state).host.maintenanceCursor = state.host.maintenanceCursor := by
  have still : Tidied now state [] state := tidied_of_same indexed rfl rfl (fun _ => rfl) rfl rfl
  unfold keepalive
  split
  · exact ⟨still, rfl⟩
  split
  · exact ⟨still, rfl⟩
  split
  · exact ⟨still, rfl⟩
  · have settled := (sameIndex_modify state.host addr
      (fun peer => { peer with pingSeq := peer.pingSeq + 1, lastPingSent := now, pingSentAt := some now })
      fun _ => rfl).indexed indexed
    refine ⟨tidied_of_same settled rfl rfl ?_ rfl rfl, rfl⟩
    intro other
    show ((state.host.peers.modify addr _).get? other).map standing = _
    rw [FiniteMap.get?_modify]
    split
    · rename_i own
      rw [own, Option.map_map]
      rfl
    · rfl

theorem removePeerAt_rest {host after : Host} {gone : Option Peer} (done : host.removePeerAt addr = .ok (after, gone)) :
    after.timeout = host.timeout ∧ after.maintenanceCursor = host.maintenanceCursor := by
  unfold removePeerAt at done
  split at done
  · cases done
    exact ⟨rfl, rfl⟩
  split at done
  · cases done
    exact ⟨rfl, rfl⟩
  simp only at done
  split at done
  · cases done
    exact ⟨rfl, rfl⟩
  · cases done

theorem removePeer_rest {host : Host} {gone : Option Peer}
    (done : state.removePeer addr = .ok (state.setHost host, gone)) :
    host.timeout = state.host.timeout ∧ host.maintenanceCursor = state.host.maintenanceCursor := by
  unfold removePeer at done
  split at done
  · cases done
  all_goals
    rename_i removing
    simp only [Except.ok.injEq, Prod.mk.injEq] at done
    have same := congrArg PollState.host done.1
    dsimp only [setHost] at same
    rw [← same]
    exact removePeerAt_rest removing

/-- An expired peer is dropped unless this poll has already dropped as many as it may. -/
theorem maintainPeer_tidies (addr : SocketAddr) (now : Instant) (indexed : Indexed state.host) :
    ∃ after removed, maintainPeer addr now state = .ok after ∧ Tidied now state removed after ∧
      after.host.maintenanceCursor = state.host.maintenanceCursor ∧
      (expired after.host addr now = true → maxPollTimeoutEvents ≤ after.work.timeoutEvents) := by
  unfold maintainPeer
  split <;> rename_i late
  · split <;> rename_i room
    · have gone := late
      unfold expired at gone
      split at gone
      · cases gone
      rename_i peer found
      obtain ⟨host, done, dropped⟩ := removePeer_spec indexed found
      obtain ⟨timeout, cursor⟩ := removePeer_rest done
      have absent : view host addr = none := by
        rw [view, dropped.peers, FiniteMap.get?_erase_self]
        rfl
      have cleaned : Cleaned now state.host [addr] host :=
        { indexed := dropped.indexed
          slots := dropped.slots
          timeout := timeout
          unique := List.nodup_singleton addr
          late := by simpa using late
          view := by
            intro other
            by_cases own : other = addr
            · rw [own, absent, if_pos List.mem_cons_self]
            · rw [if_neg (by simpa using own), view, dropped.peers, FiniteMap.get?_erase, if_neg own, view] }
      simp only [done]
      refine ⟨_, [addr], rfl, ⟨cleaned, ?_, rfl, fun _ => room⟩, cursor, ?_⟩
      · simp [raise, setHost, timeoutAt, idAt, found]
      · intro again
        have gone := ((cleaned.expired_iff addr).mp again).1
        simp at gone
    · exact ⟨state, [], rfl, tidied_of_same indexed rfl rfl (fun _ => rfl) rfl rfl, rfl, fun _ => Nat.not_lt.mp room⟩
  · obtain ⟨tidied, cursor⟩ := keepalive_tidies addr now indexed
    refine ⟨_, [], rfl, tidied, cursor, ?_⟩
    intro again
    exact absurd ((tidied.cleaned.expired_iff addr).mp again).2 late

/-- No expired peer is left in the slot, or this poll's budget is spent. -/
def Settled (now : Instant) (slot : Nat) (state : PollState) : Prop :=
  ∀ addr peer, state.host.peers.get? addr = some peer → peer.slot = slot → expired state.host addr now = true →
    maxPollTimeoutEvents ≤ state.work.timeoutEvents

theorem Cleaned.peer_before {host after : Host} {peer : Peer} (cleaned : Cleaned now host removed after)
    (found : after.peers.get? addr = some peer) :
    ∃ old, host.peers.get? addr = some old ∧ standing old = standing peer := by
  have seen := cleaned.view addr
  rw [HostTimeouts.view, found] at seen
  split at seen
  · cases seen
  · exact Option.map_eq_some_iff.mp seen.symm

theorem Settled.later {slot : Nat} (settled : Settled now slot state) (tidied : Tidied now state removed after) :
    Settled now slot after := by
  intro addr peer found placed late
  obtain ⟨old, present, same⟩ := tidied.cleaned.peer_before found
  simp only [standing, Prod.mk.injEq] at same
  have spent := settled addr old present (same.2.1.trans placed) ((tidied.cleaned.expired_iff addr).mp late).2
  rw [tidied.spent]
  omega

/-- The slot a scan reads when its cursor has not run past the end. -/
def place (slotCount cursor : Nat) : Nat := if cursor ≥ slotCount then 0 else cursor

theorem place_succ {slotCount cursor : Nat} (inside : cursor < slotCount) :
    place slotCount (cursor + 1) = (cursor + 1) % slotCount := by
  unfold place
  split <;> rename_i ended
  · rw [show cursor + 1 = slotCount by omega, Nat.mod_self]
  · exact (Nat.mod_eq_of_lt (by omega)).symm

theorem place_lt {slotCount : Nat} (positive : 0 < slotCount) (cursor : Nat) : place slotCount cursor < slotCount := by
  unfold place
  split <;> omega

/-- The slots that `scanSlots` reads, in order. -/
def scannedSlots (now : Instant) (slotCount : Nat) : Nat → PollState → List Nat
  | 0, _ => []
  | scans + 1, state =>
    match nextSlot slotCount state with
    | (state, slot) =>
      slot ::
        match state.host.peerSlots[slot]? with
        | none => []
        | some none => scannedSlots now slotCount scans state
        | some (some addr) =>
          match maintainPeer addr now state with
          | .error _ => []
          | .ok state => scannedSlots now slotCount scans state

/-- What a stretch of scans leaves. -/
structure Scanned (now : Instant) (slotCount scans : Nat) (state : PollState) (removed : List SocketAddr)
    (after : PollState) : Prop where
  tidied : Tidied now state removed after
  slots : scannedSlots now slotCount scans state =
    (List.range scans).map fun scan => (place slotCount state.host.maintenanceCursor + scan) % slotCount
  cursor : place slotCount after.host.maintenanceCursor =
    (place slotCount state.host.maintenanceCursor + scans) % slotCount
  settled : ∀ slot ∈ scannedSlots now slotCount scans state, Settled now slot after

theorem settled_of_holder {slot : Nat} (indexed : Indexed state.host) {holder : Option SocketAddr}
    (held : state.host.peerSlots[slot]? = some holder)
    (spent : ∀ addr, holder = some addr → expired state.host addr now = true →
      maxPollTimeoutEvents ≤ state.work.timeoutEvents) : Settled now slot state := by
  intro addr peer found placed late
  have here := (indexed.slot_iff slot addr).mpr ⟨peer, found, placed⟩
  rw [held, Option.some.injEq] at here
  exact spent addr here late

/-- A scan reads the slot at the cursor and leaves no expired peer in it, unless the budget is spent. -/
theorem scan_step {slotCount : Nat} (now : Instant) (positive : 0 < slotCount) (state : PollState)
    (indexed : Indexed state.host) (whole : state.host.peerSlots.length = slotCount) :
    ∃ middle removed, Tidied now state removed middle ∧
      middle.host.maintenanceCursor = place slotCount state.host.maintenanceCursor + 1 ∧
      Settled now (place slotCount state.host.maintenanceCursor) middle ∧
      (∀ scans, scanSlots now slotCount (scans + 1) state = scanSlots now slotCount scans middle) ∧
      ∀ scans, scannedSlots now slotCount (scans + 1) state =
        place slotCount state.host.maintenanceCursor :: scannedSlots now slotCount scans middle := by
  have inside : place slotCount state.host.maintenanceCursor < state.host.peerSlots.length :=
    whole ▸ place_lt positive state.host.maintenanceCursor
  have same : SameIndex state.host (nextSlot slotCount state).1.host := .of_peers_eq rfl
  have moved : Tidied now state [] (nextSlot slotCount state).1 :=
    tidied_of_same (same.indexed indexed) rfl rfl (fun _ => rfl) rfl rfl
  obtain ⟨holder, held⟩ : ∃ holder, (nextSlot slotCount state).1.host.peerSlots[(nextSlot slotCount state).2]? =
      some holder := ⟨_, List.getElem?_eq_getElem inside⟩
  cases holder with
  | none =>
      refine ⟨(nextSlot slotCount state).1, [], moved, rfl,
        settled_of_holder moved.cleaned.indexed held (by rintro _ ⟨⟩), ?_, ?_⟩
      · intro scans
        rw [scanSlots]
        simp only [held]
      · intro scans
        rw [scannedSlots]
        simp only [held]
        rfl
  | some addr =>
      obtain ⟨middle, removed, done, tidied, cursor, spent⟩ := maintainPeer_tidies addr now moved.cleaned.indexed
      refine ⟨middle, removed, moved.trans tidied, cursor, ?_, ?_, ?_⟩
      · intro other peer found placed late
        obtain ⟨old, present, standing⟩ := tidied.cleaned.peer_before found
        simp only [HostTimeouts.standing, Prod.mk.injEq] at standing
        have here := (moved.cleaned.indexed.slot_iff _ other).mpr ⟨old, present, standing.2.1.trans placed⟩
        cases held.symm.trans here
        exact spent late
      · intro scans
        rw [scanSlots]
        simp only [held, done]
      · intro scans
        rw [scannedSlots]
        simp only [held, done]
        rfl

theorem scanSlots_scanned {slotCount : Nat} (now : Instant) (positive : 0 < slotCount) (scans : Nat) (state : PollState)
    (indexed : Indexed state.host) (whole : state.host.peerSlots.length = slotCount) :
    ∃ after removed, scanSlots now slotCount scans state = .ok after ∧
      Scanned now slotCount scans state removed after := by
  induction scans generalizing state with
  | zero =>
      refine ⟨state, [], rfl, tidied_of_same indexed rfl rfl (fun _ => rfl) rfl rfl, rfl, ?_, by simp [scannedSlots]⟩
      exact (Nat.mod_eq_of_lt (place_lt positive _)).symm
  | succ scans ih =>
      obtain ⟨middle, first, step, cursor, settled, scan, read⟩ := scan_step now positive state indexed whole
      obtain ⟨after, rest, done, scanned⟩ := ih middle step.cleaned.indexed (step.cleaned.slots.trans whole)
      have inside := place_lt positive state.host.maintenanceCursor
      have advanced := place_succ inside
      rw [← cursor] at advanced
      have slots := scanned.slots
      have resumed := scanned.cursor
      rw [advanced] at slots resumed
      refine ⟨after, first ++ rest, (scan scans).trans done, step.trans scanned.tidied, ?_, ?_, ?_⟩
      · rw [read, slots, List.range_succ_eq_map, List.map_cons, List.map_map, Nat.add_zero, Nat.mod_eq_of_lt inside]
        congr 1
        refine List.map_congr_left fun scan _ => ?_
        rw [Nat.mod_add_mod]
        simp only [Function.comp_apply, Nat.succ_eq_add_one]
        congr 1
        omega
      · rw [resumed, Nat.mod_add_mod]
        congr 1
        omega
      · intro slot listed
        rw [read] at listed
        rcases List.mem_cons.mp listed with rfl | later
        · exact settled.later scanned.tidied
        · exact scanned.settled slot later

end Scans

/-! One poll without datagrams. -/
section Polls
variable {host after : Host} {now : Instant} {script : List SocketTurn} {removed : List SocketAddr}

/-- The socket has no datagram for this poll. -/
def Silent (script : List SocketTurn) : Prop :=
  ∀ turn ∈ script, ∀ size data addr ticks, turn ≠ .peeked size (.datagram data addr ticks)

/-- What maintenance starts from. -/
def restOf (state : PollState) :=
  (state.host.peers, state.host.peerSlots, state.host.timeout, state.host.maintenanceCursor, state.events,
    state.work.timeoutEvents)

theorem expireReconnectWatermarks_rest (now : Instant) (budget : Nat) (state : PollState) :
    restOf (expireReconnectWatermarks now budget state) = restOf state := by
  induction budget generalizing state with
  | zero => rfl
  | succ budget ih =>
      unfold expireReconnectWatermarks
      split
      · rfl
      · simp only
        split
        · split
          · split
            · rfl
            · exact ih _
          · exact ih _
        · exact ih _

theorem drainSocket_silent (now : Instant) (silent : Silent script) (state : PollState) :
    ∃ after, drainSocket now script state = .ok after ∧ after.host = state.host ∧ restOf after = restOf state := by
  induction script generalizing state with
  | nil => exact ⟨state, rfl, rfl, rfl⟩
  | cons turn rest ih =>
      have quiet : Silent rest := fun turn listed => silent turn (List.mem_cons_of_mem _ listed)
      obtain ⟨after, done, host, kept⟩ := ih quiet (state.countPacket 0)
      have skipped : ∃ after, drainSocket now rest (state.countPacket 0) = .ok after ∧ after.host = state.host ∧
          restOf after = restOf state := ⟨after, done, host, kept⟩
      have unchanged : ∃ after, (.ok state : Except Panic PollState) = .ok after ∧ after.host = state.host ∧
          restOf after = restOf state := ⟨state, rfl, rfl, rfl⟩
      unfold drainSocket
      split
      · cases turn with
        | wouldBlock => exact unchanged
        | failed => exact unchanged
        | connectionReset => exact skipped
        | peeked size received =>
            simp only
            split
            · exact unchanged
            · cases received with
              | wouldBlock => exact unchanged
              | failed => exact unchanged
              | connectionReset => exact skipped
              | datagram data addr ticks => exact absurd rfl (silent _ List.mem_cons_self size data addr ticks)
      · exact unchanged

/-- The state in which a poll starts its maintenance. -/
def drained (host : Host) (now : Instant) (script : List SocketTurn) : Except Panic PollState :=
  match drainSocket now script (expireReconnectWatermarks now maxPollWatermarkCleanups (startPoll host)) with
  | .error panic => .error panic
  | .ok state => .ok { state with work := { state.work with socketEvents := state.events.length } }

/-- The slots that the poll's maintenance inspects, in order. -/
def inspected (host : Host) (now : Instant) (script : List SocketTurn) : List Nat :=
  match drained host now script with
  | .error _ => []
  | .ok state =>
    scannedSlots now state.host.peerSlots.length (min state.host.peerSlots.length maxPollMaintenanceScans) state

/-- The slots that a poll reads: up to 512 in turn from the one at the cursor. -/
def turnAt (slotCount start : Nat) : List Nat :=
  (List.range (min slotCount maxPollMaintenanceScans)).map fun scan => (start + scan) % slotCount

/-- What a poll without datagrams does. -/
structure Polled (now : Instant) (host : Host) (script : List SocketTurn) (removed : List SocketAddr)
    (state : PollState) : Prop where
  cleaned : Cleaned now host removed state.host
  events : state.events = removed.map (timeoutAt host)
  within : removed.length ≤ maxPollTimeoutEvents
  slots : inspected host now script = turnAt host.peerSlots.length (place host.peerSlots.length host.maintenanceCursor)
  cursor : place host.peerSlots.length state.host.maintenanceCursor =
    (place host.peerSlots.length host.maintenanceCursor + min host.peerSlots.length maxPollMaintenanceScans) %
      host.peerSlots.length
  settled : ∀ slot ∈ inspected host now script, ∀ addr peer, state.host.peers.get? addr = some peer →
    peer.slot = slot → expired state.host addr now = true → maxPollTimeoutEvents ≤ removed.length

/-- Before maintenance a poll without datagrams only forgets watermarks. -/
theorem drained_silent (now : Instant) (indexed : Indexed host) (silent : Silent script) :
    ∃ state, drained host now script = .ok state ∧ Indexed state.host ∧ restOf state = restOf (startPoll host) := by
  have woken := expireReconnectWatermarks_rest now maxPollWatermarkCleanups (startPoll host)
  have settled := (expireReconnectWatermarks_same now maxPollWatermarkCleanups (startPoll host)).1.indexed
    (indexed_startPoll indexed)
  obtain ⟨state, done, same, rest⟩ := drainSocket_silent now silent
    (expireReconnectWatermarks now maxPollWatermarkCleanups (startPoll host))
  refine ⟨{ state with work := { state.work with socketEvents := state.events.length } }, ?_, ?_, ?_⟩
  · simp only [drained, done]
  · rw [← same] at settled
    exact settled
  · exact rest.trans woken

theorem poll_silent (now : Instant) (indexed : Indexed host) (silent : Silent script) :
    ∃ state removed, host.pollWithWork now script = .ok state ∧ Polled now host script removed state := by
  obtain ⟨ready, done, settled, rest⟩ := drained_silent now indexed silent
  simp only [restOf, startPoll, Prod.mk.injEq] at rest
  obtain ⟨peers, slots, timeout, cursor, events, spent⟩ := rest
  have polled : host.pollWithWork now script = processPeerMaintenance now ready := by
    unfold drained at done
    unfold pollWithWork
    cases socket : drainSocket now script (expireReconnectWatermarks now maxPollWatermarkCleanups host.startPoll) with
    | error panic =>
        rw [socket] at done
        cases done
    | ok state =>
        rw [socket] at done
        cases done
        rfl
  have begun : Cleaned now host [] ready.host :=
    .of_same settled (congrArg List.length slots) timeout fun addr => by rw [view, view, peers]
  have reads : inspected host now script = scannedSlots now host.peerSlots.length
      (min host.peerSlots.length maxPollMaintenanceScans) ready := by
    simp only [inspected, done, slots]
  -- A host that never had a peer has no slots to inspect: maintenance only resets the cursor.
  by_cases empty : host.peerSlots.length = 0
  · have none : host.peerSlots = [] := List.length_eq_zero_iff.mp empty
    have same : SameIndex ready.host { ready.host with maintenanceCursor := 0 } := .of_peers_eq rfl
    refine ⟨ready.setHost { ready.host with maintenanceCursor := 0 }, [], ?_, ?_⟩
    · rw [polled, processPeerMaintenance]
      simp [slots, none]
    · rw [empty] at reads
      refine ⟨begun.trans (.of_same (same.indexed settled) rfl rfl fun _ => rfl), events, by simp, ?_, ?_, ?_⟩
      · rw [reads, empty]
        rfl
      · simp [empty, place]
      · intro slot listed
        rw [reads] at listed
        cases listed
  · obtain ⟨after, removed, scans, scanned⟩ := scanSlots_scanned now (Nat.pos_of_ne_zero empty)
      (min host.peerSlots.length maxPollMaintenanceScans) ready settled (congrArg List.length slots)
    have tidied := scanned.tidied
    have raised := tidied.events
    have counted := tidied.spent
    have within := tidied.within (by rw [spent]; exact Nat.zero_le _)
    rw [events, List.nil_append] at raised
    rw [spent, Nat.zero_add] at counted
    refine ⟨after, removed, ?_, begun.trans tidied.cleaned, ?_, ?_, ?_, ?_, ?_⟩
    · rw [polled, processPeerMaintenance]
      simp only [slots, empty, if_false]
      exact scans
    · rw [raised]
      refine List.map_congr_left fun addr _ => ?_
      rw [timeoutAt, timeoutAt, idAt, idAt, peers]
    · rw [← counted]
      exact within
    · rw [reads, scanned.slots, cursor]
      rfl
    · rw [← cursor]
      exact scanned.cursor
    · intro slot listed addr peer found placed late
      rw [reads] at listed
      rw [← counted]
      exact scanned.settled slot listed addr peer found placed late

end Polls

/-! Polls in a row. -/
section Rounds
variable {host middle after : Host} {now : Instant} {scripts : List (List SocketTurn)} {removed : List SocketAddr}

/-- Polls at one time, the events of all of them in order. -/
def pollAll (now : Instant) : List (List SocketTurn) → Host → Except Panic (Host × List Event)
  | [], host => .ok (host, [])
  | script :: rest, host =>
    match host.pollWithWork now script with
    | .error panic => .error panic
    | .ok state =>
      match pollAll now rest state.host with
      | .error panic => .error panic
      | .ok (after, events) => .ok (after, state.events.map Prod.fst ++ events)

/-- The slots that each of the polls inspects. -/
def inspectedAll (now : Instant) : List (List SocketTurn) → Host → List (List Nat)
  | [], _ => []
  | script :: rest, host =>
    inspected host now script ::
      match host.pollWithWork now script with
      | .error _ => []
      | .ok state => inspectedAll now rest state.host

/-- How many polls go round all slots. -/
def roundPolls (slotCount : Nat) : Nat := (slotCount + 511) / 512

/-- The slots of `polls` polls in a row. -/
def turns (slotCount start polls : Nat) : List (List Nat) :=
  (List.range polls).map fun poll => turnAt slotCount (start + poll * min slotCount maxPollMaintenanceScans)

/-- What polls in a row without datagrams do. -/
structure PolledAll (now : Instant) (host : Host) (scripts : List (List SocketTurn)) (removed : List SocketAddr)
    (after : Host) : Prop where
  done : pollAll now scripts host = .ok (after, removed.map fun addr => .disconnected (idAt host addr) .timeout)
  cleaned : Cleaned now host removed after
  slots : inspectedAll now scripts host =
    turns host.peerSlots.length (place host.peerSlots.length host.maintenanceCursor) scripts.length
  settled : ∀ slots ∈ inspectedAll now scripts host, ∀ slot ∈ slots, ∀ addr peer,
    after.peers.get? addr = some peer → peer.slot = slot → expired after addr now = true →
    maxPollTimeoutEvents ≤ removed.length

theorem turnAt_mod (slotCount start : Nat) : turnAt slotCount (start % slotCount) = turnAt slotCount start := by
  unfold turnAt
  simp only [Nat.mod_add_mod]

theorem turns_succ (slotCount start polls : Nat) :
    turns slotCount start (polls + 1) = turnAt slotCount start ::
      turns slotCount ((start + min slotCount maxPollMaintenanceScans) % slotCount) polls := by
  rw [turns, List.range_succ_eq_map, List.map_cons, List.map_map, Nat.zero_mul, Nat.add_zero, turns]
  congr 1
  refine List.map_congr_left fun poll _ => ?_
  rw [Function.comp_apply, Nat.succ_mul, ← turnAt_mod, ← turnAt_mod _ (_ % _ + _), Nat.mod_add_mod]
  congr 2
  omega

/-- As many polls in a row as a round takes inspect every slot, wherever they start. -/
theorem turns_cover {slotCount start polls : Nat} {front window back : List (List Nat)}
    (split : turns slotCount start polls = front ++ window ++ back) (enough : roundPolls slotCount ≤ window.length)
    {slot : Nat} (inside : slot < slotCount) : ∃ slots ∈ window, slot ∈ slots := by
  have capacity : maxPollMaintenanceScans = 512 := rfl
  have rounded : roundPolls slotCount = (slotCount + 511) / 512 := rfl
  generalize scans : min slotCount maxPollMaintenanceScans = width
  have positive : 0 < width := by omega
  -- How far the slot lies after the one that the window starts from.
  obtain ⟨ahead, near, reaches⟩ : ∃ ahead < slotCount, (start + front.length * width + ahead) % slotCount = slot := by
    have base := Nat.mod_lt (start + front.length * width) (show 0 < slotCount by omega)
    refine ⟨(slot + slotCount - (start + front.length * width) % slotCount) % slotCount,
      Nat.mod_lt _ (by omega), ?_⟩
    rw [Nat.add_mod_mod, ← Nat.mod_add_mod]
    rw [show (start + front.length * width) % slotCount +
      (slot + slotCount - (start + front.length * width) % slotCount) = slot + slotCount by omega,
      Nat.add_mod_right, Nat.mod_eq_of_lt inside]
  have poll : ahead / width < window.length := by
    rcases Nat.le_total slotCount maxPollMaintenanceScans with few | many
    · rw [Nat.div_eq_of_lt (by omega)]
      omega
    · rw [show width = 512 by omega]
      omega
  have listed : turns slotCount start polls = front ++ (window ++ back) := by rw [split, List.append_assoc]
  have entry : (turns slotCount start polls)[front.length + ahead / width]? = some window[ahead / width] := by
    rw [listed, List.getElem?_append_right (Nat.le_add_right _ _), Nat.add_sub_cancel_left,
      List.getElem?_append_left poll,
      List.getElem?_eq_getElem poll]
  rw [turns, List.getElem?_map, Option.map_eq_some_iff] at entry
  obtain ⟨index, found, same⟩ := entry
  obtain ⟨_, rfl⟩ := List.getElem?_eq_some_iff.mp found
  rw [List.getElem_range, scans] at same
  refine ⟨_, List.getElem_mem poll, ?_⟩
  rw [← same, turnAt, scans]
  refine List.mem_map.mpr ⟨ahead % width, List.mem_range.mpr (Nat.mod_lt _ positive), ?_⟩
  have divided := Nat.div_add_mod ahead width
  rw [← reaches, Nat.add_mul, Nat.mul_comm (ahead / width)]
  congr 1
  omega

theorem pollAll_silent (now : Instant) (indexed : Indexed host) (silent : ∀ script ∈ scripts, Silent script) :
    ∃ after removed, PolledAll now host scripts removed after := by
  induction scripts generalizing host with
  | nil =>
      exact ⟨host, [], rfl, .of_same indexed rfl rfl fun _ => rfl, rfl, by simp [inspectedAll]⟩
  | cons script rest ih =>
      obtain ⟨state, first, done, polled⟩ := poll_silent now indexed (silent script List.mem_cons_self)
      obtain ⟨after, later, all⟩ := ih polled.cleaned.indexed fun script listed =>
        silent script (List.mem_cons_of_mem _ listed)
      have slots := polled.cleaned.slots
      have same : later.map (fun addr => Event.disconnected (idAt state.host addr) .timeout) =
          later.map fun addr => .disconnected (idAt host addr) .timeout := by
        refine List.map_congr_left fun addr listed => ?_
        rw [polled.cleaned.idAt_kept ((polled.cleaned.expired_iff addr).mp (all.cleaned.late addr listed)).1]
      refine ⟨after, first ++ later, ?_, polled.cleaned.trans all.cleaned, ?_, ?_⟩
      · rw [pollAll, done]
        simp only [all.done, polled.events, same, List.map_append, List.map_map]
        rfl
      · rw [inspectedAll, done]
        simp only
        rw [all.slots, slots, polled.cursor, polled.slots, List.length_cons, turns_succ]
      · intro slots listed slot inside addr peer found placed late
        rw [inspectedAll, done] at listed
        rw [List.length_append]
        rcases List.mem_cons.mp listed with rfl | remaining
        · obtain ⟨old, present, same⟩ := all.cleaned.peer_before found
          simp only [standing, Prod.mk.injEq] at same
          have spent := polled.settled slot inside addr old present (same.2.1.trans placed)
            ((all.cleaned.expired_iff addr).mp late).2
          omega
        · have spent := all.settled slots remaining slot inside addr peer found placed late
          omega

theorem pollAll_append {front back : List (List SocketTurn)} {early late : List Event}
    (first : pollAll now front host = .ok (middle, early)) (second : pollAll now back middle = .ok (after, late)) :
    pollAll now (front ++ back) host = .ok (after, early ++ late) := by
  induction front generalizing host early with
  | nil =>
      cases first
      exact second
  | cons script rest ih =>
      rw [pollAll] at first
      rw [List.cons_append, pollAll]
      split at first
      · cases first
      rename_i state done
      split at first
      · cases first
      rename_i remaining polled
      cases first
      simp only [ih polled, List.append_assoc]

/-- A round over all slots leaves no expired peer, or has removed as many as one poll may. -/
theorem PolledAll.round (all : PolledAll now host scripts removed after)
    (enough : roundPolls host.peerSlots.length ≤ scripts.length) :
    expiredPeers after now = ∅ ∨ maxPollTimeoutEvents ≤ removed.length := by
  rw [or_iff_not_imp_left]
  intro left
  obtain ⟨addr, member⟩ := Finset.nonempty_iff_ne_empty.mpr left
  have late := (mem_expiredPeers after addr now).mp member
  obtain ⟨peer, found⟩ : ∃ peer, after.peers.get? addr = some peer := by
    unfold expired at late
    split at late
    · cases late
    · exact ⟨_, by assumption⟩
  have inside : peer.slot < host.peerSlots.length := by
    rw [← all.cleaned.slots]
    exact SlotPool.lt_of_holder (all.cleaned.indexed.holder_of found)
  have split : turns host.peerSlots.length (place host.peerSlots.length host.maintenanceCursor) scripts.length =
      [] ++ inspectedAll now scripts host ++ [] := by simp [all.slots]
  have length : (inspectedAll now scripts host).length = scripts.length := by
    rw [all.slots, turns, List.length_map, List.length_range]
  obtain ⟨slots, listed, slot⟩ := turns_cover split (by rw [length]; exact enough) inside
  exact all.settled slots listed peer.slot slot addr peer found rfl late

/-- Every round takes 64 expired peers or all that are left. -/
theorem PolledAll.finished (rounds : Nat) (all : PolledAll now host scripts removed after) (indexed : Indexed host)
    (silent : ∀ script ∈ scripts, Silent script)
    (enough : rounds * roundPolls host.peerSlots.length ≤ scripts.length)
    (few : (expiredPeers host now).card ≤ maxPollTimeoutEvents * rounds) : expiredPeers after now = ∅ := by
  induction rounds generalizing host scripts removed with
  | zero =>
      have counted := all.cleaned.card_add
      exact Finset.card_eq_zero.mp (by omega)
  | succ rounds ih =>
      have parts := List.take_append_drop (roundPolls host.peerSlots.length) scripts
      obtain ⟨middle, early, first⟩ := pollAll_silent now indexed fun script listed =>
        silent script (List.mem_of_mem_take listed)
      obtain ⟨final, late, second⟩ := pollAll_silent now first.cleaned.indexed fun script listed =>
        silent script (List.mem_of_mem_drop listed)
      have whole := pollAll_append first.done second.done
      rw [parts, all.done, Except.ok.injEq, Prod.mk.injEq] at whole
      obtain ⟨rfl, -⟩ := whole
      rw [Nat.succ_mul] at enough
      have taken := first.round (by rw [List.length_take]; omega)
      -- A round that stopped at its budget has brought the count down; one that did not has finished.
      rcases taken with none | budget
      · have counted := second.cleaned.card_add
        rw [none, Finset.card_empty] at counted
        exact Finset.card_eq_zero.mp (by omega)
      · have counted := first.cleaned.card_add
        refine ih second first.cleaned.indexed (fun script listed => silent script (List.mem_of_mem_drop listed)) ?_ ?_
        · rw [first.cleaned.slots, List.length_drop]
          omega
        · rw [Nat.mul_succ] at few
          omega

end Rounds

section Cleanup
variable {host : Host}

theorem expired_iff (host : Host) (addr : SocketAddr) (now : Instant) :
    expired host addr now = true ↔ ∃ peer, host.peers.get? addr = some peer ∧ now - peer.lastRecv > host.timeout := by
  unfold expired
  split <;> rename_i found <;> simp [found]

theorem idAt_of_found {addr : SocketAddr} {peer : Peer} (found : host.peers.get? addr = some peer) :
    idAt host addr = peer.id := by simp [idAt, found]

/-- Distinct addresses belong to distinct ids. -/
theorem events_nodup {now : Instant} {after : Host} {removed : List SocketAddr} (indexed : Indexed host)
    (cleaned : Cleaned now host removed after) :
    (removed.map fun addr => Event.disconnected (idAt host addr) .timeout).Nodup := by
  refine cleaned.unique.map_on ?_
  intro addr listed other present same
  obtain ⟨peer, found, -⟩ := (expired_iff host addr now).mp (cleaned.late addr listed)
  obtain ⟨second, known, -⟩ := (expired_iff host other now).mp (cleaned.late other present)
  rw [idAt_of_found found, idAt_of_found known, Event.disconnected.injEq] at same
  obtain ⟨ids, -⟩ := same
  have slot := (indexed.identity addr peer found).1
  have place := (indexed.identity other second known).1
  have here := (indexed.slot_iff peer.slot addr).mpr ⟨peer, found, rfl⟩
  have slots : second.slot = peer.slot := Nat.succ.inj (place.symm.trans (ids.symm.trans slot))
  have there := (indexed.slot_iff peer.slot other).mpr ⟨second, known, slots⟩
  rw [here, Option.some.injEq, Option.some.injEq] at there
  exact there

/-- Polls at one time without datagrams drop the expired peers, each with one event, within as many rounds
over the slots as it takes at 64 a round; the others stay, and every round inspects every slot. -/
theorem timeout_cleanup (reached : HostRuns.Reachable host) (now : Instant) (scripts : List (List SocketTurn))
    (silent : ∀ script ∈ scripts, Silent script) :
    ∃ after events, pollAll now scripts host = .ok (after, events) ∧ events.Nodup ∧
      (∀ event ∈ events, ∃ addr peer, host.peers.get? addr = some peer ∧ now - peer.lastRecv > host.timeout ∧
        event = .disconnected peer.id .timeout ∧ after.peers.get? addr = none) ∧
      (∀ addr peer, host.peers.get? addr = some peer → ¬ now - peer.lastRecv > host.timeout →
        ∃ kept, after.peers.get? addr = some kept ∧ kept.id = peer.id) ∧
      (((expiredPeers host now).card + 63) / 64 * ((host.peerSlots.length + 511) / 512) ≤ scripts.length →
        ∀ addr peer, host.peers.get? addr = some peer → now - peer.lastRecv > host.timeout →
          after.peers.get? addr = none ∧ .disconnected peer.id .timeout ∈ events) ∧
      (inspectedAll now scripts host).length = scripts.length ∧
      ∀ front window back, inspectedAll now scripts host = front ++ window ++ back →
        (host.peerSlots.length + 511) / 512 ≤ window.length →
        ∀ slot < host.peerSlots.length, ∃ slots ∈ window, slot ∈ slots := by
  have indexed := reached.indexed
  obtain ⟨after, removed, all⟩ := pollAll_silent now indexed silent
  have cleaned := all.cleaned
  have gone : ∀ addr ∈ removed, after.peers.get? addr = none := by
    intro addr listed
    have seen := cleaned.view addr
    rw [if_pos listed, view, Option.map_eq_none_iff] at seen
    exact seen
  refine ⟨after, _, all.done, events_nodup indexed cleaned, ?_, ?_, ?_, ?_, ?_⟩
  · intro event listed
    obtain ⟨addr, dropped, rfl⟩ := List.mem_map.mp listed
    obtain ⟨peer, found, late⟩ := (expired_iff host addr now).mp (cleaned.late addr dropped)
    exact ⟨addr, peer, found, late, by rw [idAt_of_found found], gone addr dropped⟩
  · intro addr peer found fresh
    have seen := cleaned.view addr
    rw [if_neg, view, view, found] at seen
    · obtain ⟨kept, present, same⟩ := Option.map_eq_some_iff.mp seen
      exact ⟨kept, present, congrArg Prod.fst same⟩
    · intro dropped
      obtain ⟨old, known, late⟩ := (expired_iff host addr now).mp (cleaned.late addr dropped)
      rw [found, Option.some.injEq] at known
      exact fresh (known ▸ late)
  · intro enough addr peer found late
    have none := all.finished (((expiredPeers host now).card + 63) / 64) indexed silent enough (by
      unfold maxPollTimeoutEvents
      omega)
    have listed : addr ∈ removed := by
      by_contra present
      have again := (cleaned.expired_iff addr).mpr ⟨present, (expired_iff host addr now).mpr ⟨peer, found, late⟩⟩
      rw [← mem_expiredPeers, none] at again
      cases again
    exact ⟨gone addr listed, List.mem_map.mpr ⟨addr, listed, by rw [idAt_of_found found]⟩⟩
  · rw [all.slots, turns, List.length_map, List.length_range]
  · intro front window back split enough slot inside
    rw [all.slots] at split
    exact turns_cover split enough inside

end Cleanup

/-! More clients than a poll may drop fell silent at time 0, and one more has connected since. -/
section Crowded
open HostRuns

def crowdLimits : PeerLimits := ⟨80, 80, by decide, by decide, by decide, by decide⟩

def berth (n : Nat) : SocketAddr := .v4 2130706433 (UInt16.ofNat n)

def crowd : Host :=
  let silent := afterCall (bound crowdLimits "key") (.poll 0 ((List.range 66).map fun n => requestFrom (berth n)))
  afterCall silent (.poll (4 * second) [requestFrom (berth 66)])

theorem crowd_reached : Reachable crowd :=
  afterCall_reached (afterCall_reached (.bound crowdLimits "key") _) _

theorem crowd_view : (∀ n < 66, view crowd (berth n) = some (n + 1, n, 0)) ∧
    view crowd (berth 66) = some (67, 66, 4 * second) ∧ crowd.timeout = defaultTimeout ∧
      ((expiredPeers crowd (6 * second)).card + 63) / 64 * ((crowd.peerSlots.length + 511) / 512) = 2 := by
  decide +kernel

/-- The second poll drops the two that the budget of the first had no room for. -/
theorem timeout_cleanup_crowd :
    ∃ after events, pollAll (6 * second) [[.wouldBlock], [.wouldBlock]] crowd = .ok (after, events) ∧ events.Nodup ∧
      (∀ n < 66, after.peers.get? (berth n) = none ∧ .disconnected (n + 1) .timeout ∈ events) ∧
      ∃ kept, after.peers.get? (berth 66) = some kept ∧ kept.id = 67 := by
  have silent : ∀ script ∈ [[SocketTurn.wouldBlock], [SocketTurn.wouldBlock]], Silent script := by simp [Silent]
  obtain ⟨after, events, done, once, -, stay, cleared, -⟩ := timeout_cleanup crowd_reached (6 * second) _ silent
  obtain ⟨quiet, awake, timeout, enough⟩ := crowd_view
  refine ⟨after, events, done, once, ?_, ?_⟩
  · intro n early
    obtain ⟨peer, found, stands⟩ := Option.map_eq_some_iff.mp (quiet n early)
    simp only [standing, Prod.mk.injEq] at stands
    obtain ⟨id, -, silentSince⟩ := stands
    have late : 6 * second - peer.lastRecv > crowd.timeout := by
      rw [silentSince, timeout]
      decide
    rw [← id]
    exact cleared (le_of_eq enough) (berth n) peer found late
  · obtain ⟨peer, found, stands⟩ := Option.map_eq_some_iff.mp awake
    simp only [standing, Prod.mk.injEq] at stands
    obtain ⟨id, -, heardAt⟩ := stands
    have fresh : ¬ 6 * second - peer.lastRecv > crowd.timeout := by
      rw [heardAt, timeout]
      decide
    obtain ⟨kept, present, same⟩ := stay (berth 66) peer found fresh
    exact ⟨kept, present, same.trans id⟩

end Crowded
end SailwindOnline.HostTimeouts
