import SailwindOnline.HostIndex

/-!
What the parts of a poll do to the host's indices. Removing and admitting a
peer are the only operations that move them; every handler is one of these or
leaves the indices alone, so a whole poll advances the table of peer ids
through the events it raises and never panics.
-/

namespace SailwindOnline.HostPoll
open Host HostIndex Incarnations PollState

structure Removed (host : Host) (addr : SocketAddr) (peer : Peer) (after : Host) : Prop where
  indexed : Indexed after
  limits : after.limits = host.limits
  peers : after.peers = host.peers.erase addr
  slots : after.peerSlots.length = host.peerSlots.length
  table_eq : table after =
    { live := Function.update (table host).live peer.id none
      retired := insert peer.id (table host).retired }

section Removal
variable {host : Host} {addr : SocketAddr} {peer : Peer}

theorem counters_removed (indexed : Indexed host) (present : host.peers.get? addr = some peer)
    {count : Nat} (counted : host.peersPerIp.get? addr.ip = some count) (ip : IpAddr) :
    (if count > 1 then host.peersPerIp.insert addr.ip (count - 1)
      else host.peersPerIp.erase addr.ip).get? ip =
      if livePerIp (host.peers.erase addr) ip = 0 then none
      else some (livePerIp (host.peers.erase addr) ip) := by
  have exact_count := indexed.perIp addr.ip
  have left_ip := livePerIp_erase host.peers addr present ip
  by_cases own : ip = addr.ip
  · subst own
    have positive := livePerIp_pos host.peers addr present
    rw [counted, if_neg (by omega), Option.some.injEq] at exact_count
    simp only [if_true] at left_ip
    by_cases several : count > 1
    · rw [if_pos several, FiniteMap.get?_insert_self, if_neg (by omega)]
      congr 1
      omega
    · rw [if_neg several, FiniteMap.get?_erase_self, if_pos (by omega)]
  · simp only [Ne.symm own, if_false, Nat.add_zero] at left_ip
    rw [left_ip, ← indexed.perIp ip]
    split
    · rw [FiniteMap.get?_insert, if_neg own]
    · rw [FiniteMap.get?_erase, if_neg own]

section
variable {after : Host} (released : slotPool after = (slotPool host).release peer.slot)
include released

theorem indexed_removed (indexed : Indexed host) (present : host.peers.get? addr = some peer)
    (limits : after.limits = host.limits) (peers : after.peers = host.peers.erase addr)
    (counters : ∀ ip, after.peersPerIp.get? ip =
      if livePerIp (host.peers.erase addr) ip = 0 then none
      else some (livePerIp (host.peers.erase addr) ip)) : Indexed after := by
  have held := indexed.holder_of present
  have outcome := SlotPool.release_spec indexed.formed held
  exact
    { formed := by
        rw [released, limits]
        exact outcome.formed
      slot_iff := by
        intro slot other
        have inverse := indexed.holder_iff slot other
        refine (slotPool after).holder_eq_some.symm.trans ?_
        rw [released, outcome.holder_eq, peers]
        simp only [FiniteMap.get?_erase]
        -- Only the freed slot changes its holder, and the inverse index says no other peer answered to it.
        by_cases here : slot = peer.slot
        · subst here
          by_cases own : other = addr
          · simp [own]
          · rw [if_pos rfl, if_neg own, ← inverse, held]
            simp [Ne.symm own]
        · rw [if_neg here]
          by_cases own : other = addr
          · subst own
            rw [inverse, present]
            simp [Ne.symm here]
          · rw [if_neg own, inverse]
      identity := by
        intro other found known
        rw [peers, FiniteMap.get?_erase] at known
        split at known
        · cases known
        · exact indexed.identity other found known
      balance := by
        have smaller := FiniteMap.size_erase_present host.peers addr peer present
        have balance := indexed.balance
        have slots := congrArg (fun pool => pool.slots.length) released
        have free := congrArg (fun pool => pool.free.length) released
        simp only [slotPool, SlotPool.release, List.length_set, List.length_append,
          List.length_singleton] at slots free
        rw [peers]
        omega
      perIp := by
        intro ip
        rw [peers]
        exact counters ip
      perIpBound := by
        intro ip
        have fewer := livePerIp_erase host.peers addr present ip
        have before := indexed.perIpBound ip
        rw [peers, limits]
        omega }

theorem table_removed (indexed : Indexed host) (present : host.peers.get? addr = some peer)
    (settled : Indexed after) :
    table after =
      { live := Function.update (table host).live peer.id none
        retired := insert peer.id (table host).retired } := by
  have outcome := SlotPool.release_spec indexed.formed (indexed.holder_of present)
  have moved : ∀ other, (slotPool after).holder other =
      if other = peer.slot then none else (slotPool host).holder other := by
    rw [released]
    exact outcome.holder_eq
  simp only [table, Table.mk.injEq, (indexed.identity addr peer present).1]
  refine ⟨peerAddr_update indexed settled moved, ?_⟩
  ext id
  simp only [released, outcome.resting_eq, List.mem_append, List.mem_singleton, Set.mem_insert_iff]
  constructor
  · rintro ⟨slot, resting | rfl, rfl⟩
    · exact Or.inr ⟨slot, resting, rfl⟩
    · exact Or.inl rfl
  · rintro (rfl | ⟨slot, resting, rfl⟩)
    · exact ⟨peer.slot, Or.inr rfl, rfl⟩
    · exact ⟨slot, Or.inl resting, rfl⟩

theorem removed_of (indexed : Indexed host) (present : host.peers.get? addr = some peer)
    (limits : after.limits = host.limits) (peers : after.peers = host.peers.erase addr)
    (counters : ∀ ip, after.peersPerIp.get? ip =
      if livePerIp (host.peers.erase addr) ip = 0 then none
      else some (livePerIp (host.peers.erase addr) ip)) : Removed host addr peer after := by
  have settled := indexed_removed released indexed present limits peers counters
  have slots : after.peerSlots.length = host.peerSlots.length := by
    have equal := congrArg (fun pool => pool.slots.length) released
    simpa [slotPool, SlotPool.release] using equal
  exact ⟨settled, limits, peers, slots, table_removed released indexed present settled⟩

end

/-- A present peer is always removed: neither early return is reachable. -/
theorem removePeerAt_spec (indexed : Indexed host) (present : host.peers.get? addr = some peer) :
    ∃ after, host.removePeerAt addr = .ok (after, some peer) ∧ Removed host addr peer after := by
  have inside : peer.slot < host.peerSlots.length := SlotPool.lt_of_holder (indexed.holder_of present)
  have positive := livePerIp_pos host.peers addr present
  obtain ⟨count, counted⟩ : ∃ count, host.peersPerIp.get? addr.ip = some count :=
    ⟨_, by rw [indexed.perIp, if_neg (by omega)]⟩
  unfold removePeerAt
  simp only [present, counted, inside, if_true]
  exact ⟨_, rfl, removed_of rfl indexed present rfl rfl (counters_removed indexed present counted)⟩

theorem Removed.room (removed : Removed host addr peer after) (indexed : Indexed host)
    (present : host.peers.get? addr = some peer) :
    livePerIp after.peers addr.ip < after.limits.maxPeersPerIp := by
  have fewer := livePerIp_erase host.peers addr present addr.ip
  have before := indexed.perIpBound addr.ip
  rw [removed.peers, removed.limits]
  simp only [if_true] at fewer
  omega

end Removal

structure Admitted (host : Host) (peer : Peer) (after : Host) : Prop where
  indexed : Indexed after
  limits : after.limits = host.limits
  slots : host.peerSlots.length ≤ after.peerSlots.length
  vacant : (table host).live peer.id = none
  rested : peer.id ∉ (table host).retired
  table_eq : table after = { table host with live := Function.update (table host).live peer.id (some peer.addr) }

section Admission
variable {host : Host}

/-- The half-open host has handed out the slot but does not know its owner yet. -/
structure HalfOpen (host : Host) (slot : Nat) (addr : SocketAddr) (opened : Host) : Prop where
  issued : SlotPool.Issued host.limits.maxPeers (slotPool host) slot addr
    ((slotPool opened).occupy slot addr)
  limits : opened.limits = host.limits
  counters : opened.peersPerIp = host.peersPerIp
  peers : opened.peers = host.peers

variable {peer : Peer} {opened after : Host}

theorem indexed_admitted (indexed : Indexed host) (half : HalfOpen host peer.slot peer.addr opened)
    (fresh : host.peers.get? peer.addr = none)
    (room : livePerIp host.peers peer.addr.ip < host.limits.maxPeersPerIp)
    (identity : peer.id = peer.slot + 1)
    (occupied : slotPool after = (slotPool opened).occupy peer.slot peer.addr)
    (limits : after.limits = opened.limits) (peers : after.peers = opened.peers.insert peer.addr peer)
    (counters : after.peersPerIp = opened.peersPerIp.insert peer.addr.ip
      ((opened.peersPerIp.get? peer.addr.ip).getD 0 + 1)) : Indexed after := by
  have issued := half.issued
  rw [← occupied] at issued
  rw [half.limits] at limits
  rw [half.peers] at peers
  rw [half.counters] at counters
  exact
    { formed := by
        rw [limits]
        exact issued.formed
      slot_iff := by
        intro slot other
        have inverse := indexed.holder_iff slot other
        refine (slotPool after).holder_eq_some.symm.trans ?_
        rw [issued.holder_eq, peers]
        simp only [FiniteMap.get?_insert]
        -- Only the issued slot changes its holder, and it was vacant when it was issued.
        by_cases here : slot = peer.slot
        · subst here
          by_cases own : other = peer.addr
          · simp [own]
          · rw [if_pos rfl, if_neg own, ← inverse, issued.vacant]
            simp [Ne.symm own]
        · rw [if_neg here]
          by_cases own : other = peer.addr
          · subst own
            rw [inverse, fresh]
            simp [Ne.symm here]
          · rw [if_neg own, inverse]
      identity := by
        intro other found known
        rw [peers, FiniteMap.get?_insert] at known
        split at known <;> rename_i own
        · cases known
          exact ⟨identity, own.symm⟩
        · exact indexed.identity other found known
      balance := by
        have balance : after.peerSlots.length + host.freePeerSlots.length =
            host.peerSlots.length + after.freePeerSlots.length + 1 := issued.balance
        have before := indexed.balance
        rw [peers, FiniteMap.size_insert_fresh _ _ _ fresh]
        omega
      perIp := by
        intro ip
        have before := indexed.perIp ip
        rw [peers, counters, livePerIp_insert _ _ _ fresh, FiniteMap.get?_insert]
        by_cases own : ip = peer.addr.ip
        · subst own
          rw [before]
          by_cases alone : livePerIp host.peers peer.addr.ip = 0 <;> simp [alone]
        · simp [own, Ne.symm own, before]
      perIpBound := by
        intro ip
        have before := indexed.perIpBound ip
        rw [peers, limits, livePerIp_insert _ _ _ fresh]
        split <;> rename_i own
        · rw [← own]
          omega
        · exact before }

theorem table_admitted (indexed : Indexed host) (half : HalfOpen host peer.slot peer.addr opened)
    (identity : peer.id = peer.slot + 1)
    (occupied : slotPool after = (slotPool opened).occupy peer.slot peer.addr) (settled : Indexed after) :
    table after =
      { table host with live := Function.update (table host).live peer.id (some peer.addr) } := by
  have issued := half.issued
  rw [← occupied] at issued
  simp only [table, Table.mk.injEq, identity, issued.resting_eq, and_true]
  exact peerAddr_update indexed settled issued.holder_eq

/-- Recording the owner of an issued slot restores the agreement of all indices. -/
theorem insertPeer_spec (peer : Peer) (indexed : Indexed host)
    (half : HalfOpen host peer.slot peer.addr opened)
    (fresh : host.peers.get? peer.addr = none)
    (room : livePerIp host.peers peer.addr.ip < host.limits.maxPeersPerIp)
    (identity : peer.id = peer.slot + 1) :
    ∃ after, opened.insertPeer peer = .ok after ∧ Admitted host peer after := by
  have inside : peer.slot < opened.peerSlots.length := by
    have held := half.issued.holder_eq peer.slot
    rw [if_pos rfl] at held
    have bound := SlotPool.lt_of_holder held
    simpa [slotPool, SlotPool.occupy] using bound
  have vacant : host.peerAddr peer.id = none := by
    rw [identity, indexed.peerAddr_succ]
    exact half.issued.vacant
  have rested : peer.id ∉ (table host).retired := by
    rintro ⟨slot, resting, same⟩
    rw [identity, Nat.add_right_cancel_iff] at same
    exact half.issued.rested (same ▸ resting)
  unfold insertPeer
  simp only [inside, if_true]
  refine ⟨_, rfl, ?_, half.limits, half.issued.grows, vacant, rested, ?_⟩
  · exact indexed_admitted indexed half fresh room identity rfl rfl rfl rfl
  · exact table_admitted indexed half identity rfl
      (indexed_admitted indexed half fresh room identity rfl rfl rfl rfl)

theorem allocatePeerSlot_spec (indexed : Indexed host) (addr : SocketAddr) :
    (∃ slot opened, host.allocatePeerSlot = (opened, some slot) ∧ HalfOpen host slot addr opened) ∨
      host.allocatePeerSlot = (host, none) := by
  rcases SlotPool.allocate_spec indexed.formed addr with ⟨slot, handed, issued⟩ | ⟨kept, -⟩
  · left
    unfold SlotPool.allocate at handed issued
    unfold allocatePeerSlot
    simp only [slotPool] at handed issued
    by_cases room : host.peerSlots.length < host.limits.maxPeers
    · simp only [room, if_true, Option.some.injEq] at handed issued ⊢
      subst handed
      exact ⟨_, _, rfl, issued, rfl, rfl, rfl⟩
    · by_cases ready : host.availableFreePeerSlots > 0
      · simp only [room, ready, if_true, if_false] at handed issued ⊢
        rw [handed]
        exact ⟨slot, _, rfl, issued, rfl, rfl, rfl⟩
      · simp [room, ready] at handed
  · right
    unfold SlotPool.allocate at kept
    unfold allocatePeerSlot
    simp only [slotPool] at kept
    by_cases room : host.peerSlots.length < host.limits.maxPeers
    · simp [room] at kept
    · by_cases ready : host.availableFreePeerSlots > 0
      · simp only [room, ready, if_true, if_false, Prod.mk.injEq, SlotPool.mk.injEq] at kept
        omega
      · simp [room, ready]

end Admission

/-- What a stretch of a poll amounts to: the events it raised account for every change of the table. -/
structure Advance (state after : PollState) : Prop where
  indexed : Indexed after.host
  limits : after.host.limits = state.host.limits
  slots : state.host.peerSlots.length ≤ after.host.peerSlots.length
  clean : after.emptyRemovals = state.emptyRemovals
  raised : ∃ fresh, after.events = state.events ++ fresh ∧
    Steps (table state.host) (fresh.map markOf) (table after.host)

def Advances (state : PollState) (result : Except Panic PollState) : Prop :=
  ∃ after, result = .ok after ∧ Advance state after

namespace Advance
variable {state middle after : PollState}

theorem of_same (indexed : Indexed state.host) (same : SameIndex state.host after.host)
    (events : after.events = state.events) (clean : after.emptyRemovals = state.emptyRemovals) :
    Advance state after where
  indexed := same.indexed indexed
  limits := same.limits
  slots := by rw [same.slots]
  clean := clean
  raised := ⟨[], by simp [events], by rw [same.table_eq]; exact Steps.refl _⟩

theorem refl (indexed : Indexed state.host) : Advance state state :=
  of_same indexed (.of_peers_eq rfl) rfl rfl

theorem trans (first : Advance state middle) (second : Advance middle after) : Advance state after := by
  obtain ⟨early, early_eq, early_steps⟩ := first.raised
  obtain ⟨late, late_eq, late_steps⟩ := second.raised
  refine ⟨second.indexed, second.limits.trans first.limits, first.slots.trans second.slots,
    second.clean.trans first.clean, early ++ late, ?_, ?_⟩
  · rw [late_eq, early_eq, List.append_assoc]
  · rw [List.map_append]
    exact early_steps.trans late_steps

theorem one {event : Event} {addr : SocketAddr} (indexed : Indexed after.host)
    (limits : after.host.limits = state.host.limits)
    (slots : state.host.peerSlots.length ≤ after.host.peerSlots.length)
    (clean : after.emptyRemovals = state.emptyRemovals)
    (events : after.events = state.events ++ [(event, addr)])
    (step : Step (table state.host) (markOf (event, addr)) (table after.host)) : Advance state after :=
  ⟨indexed, limits, slots, clean, [(event, addr)], events, Steps.single step⟩

end Advance

theorem Advances.of_ok {state after : PollState} (advance : Advance state after) :
    Advances state (.ok after) := ⟨after, rfl, advance⟩

theorem Advance.then {state middle : PollState} {result : Except Panic PollState}
    (first : Advance state middle) (second : Advances middle result) : Advances state result := by
  obtain ⟨after, done, advance⟩ := second
  exact ⟨after, done, first.trans advance⟩

section Handlers
variable {state : PollState} {addr : SocketAddr} {now : Instant}

theorem sameIndex_modify (host : Host) (addr : SocketAddr) (change : Peer → Peer)
    (keeps : ∀ peer, identityOf (change peer) = identityOf peer) :
    SameIndex host { host with peers := host.peers.modify addr change } where
  slots := rfl
  free := rfl
  available := rfl
  counters := rfl
  limits := rfl
  identities := by
    intro other
    rw [FiniteMap.get?_modify]
    split <;> rename_i own
    · rw [own, Option.map_map]
      congr 1
      funext peer
      exact keeps peer
    · rfl

theorem removePeer_spec (indexed : Indexed state.host) {peer : Peer}
    (present : state.host.peers.get? addr = some peer) :
    ∃ host, state.removePeer addr = .ok (state.setHost host, some peer) ∧
      Removed state.host addr peer host := by
  obtain ⟨host, done, removed⟩ := removePeerAt_spec indexed present
  exact ⟨host, by simp [removePeer, done, setHost], removed⟩

/-- Retiring a peer and raising its `Disconnected` event. -/
theorem advance_removed (indexed : Indexed state.host) {peer : Peer} {host : Host}
    (present : state.host.peers.get? addr = some peer) (removed : Removed state.host addr peer host)
    (reason : DisconnectReason) :
    Advance state ((state.setHost host).raise (.disconnected peer.id reason) addr) := by
  refine Advance.one removed.indexed removed.limits removed.slots.ge rfl rfl ?_
  show Step (table state.host) (.closed peer.id addr reason) (table host)
  rw [removed.table_eq]
  exact Step.close reason (indexed.peerAddr_of present)

theorem sameIndex_rolledGenerations (host : Host) : SameIndex host (rolledGenerations host) := by
  unfold rolledGenerations
  split <;> exact .of_peers_eq rfl

theorem evictOldestWatermark_spec (host : Host) :
    ∃ after, evictOldestWatermark host = .ok after ∧ SameIndex host after := by
  unfold evictOldestWatermark
  split <;> rename_i full
  · split
    · rename_i none_recorded
      -- A full order has an entry because the peer limit is positive.
      have positive := host.limits.globalPositive
      rw [none_recorded, List.length_nil] at full
      omega
    · exact ⟨_, rfl, .of_peers_eq rfl⟩
  · exact ⟨host, rfl, .of_peers_eq rfl⟩

theorem SameIndex.trans {first second third : Host} (one : SameIndex first second)
    (two : SameIndex second third) : SameIndex first third :=
  ⟨two.slots.trans one.slots, two.free.trans one.free, two.available.trans one.available,
    two.counters.trans one.counters, two.limits.trans one.limits,
    fun addr => (two.identities addr).trans (one.identities addr)⟩

theorem recordReconnectWatermark_spec (host : Host) (addr : SocketAddr) (connectTime : Int64)
    (now : Instant) :
    ∃ after, host.recordReconnectWatermark addr connectTime now = .ok after ∧ SameIndex host after := by
  have numbered : SameIndex (rolledGenerations host)
      { rolledGenerations host with
        nextReconnectWatermarkGeneration := (rolledGenerations host).nextReconnectWatermarkGeneration + 1 } :=
    .of_peers_eq rfl
  obtain ⟨evicted, done, same⟩ := evictOldestWatermark_spec
    { rolledGenerations host with
      nextReconnectWatermarkGeneration := (rolledGenerations host).nextReconnectWatermarkGeneration + 1 }
  unfold recordReconnectWatermark
  simp only [done]
  refine ⟨_, rfl, ?_⟩
  exact SameIndex.trans (SameIndex.trans (SameIndex.trans (sameIndex_rolledGenerations host) numbered) same)
    (.of_peers_eq rfl)

/-- Admission either issues an id that is vacant and rested or leaves the indices alone. -/
theorem admitConnectRequest_advances (request : WireProtocol.ConnectRequest) (indexed : Indexed state.host)
    (fresh : state.host.peers.get? addr = none)
    (room : livePerIp state.host.peers addr.ip < state.host.limits.maxPeersPerIp) (replaced : Bool) :
    Advances state (admitConnectRequest request addr now replaced state) := by
  unfold admitConnectRequest
  rcases allocatePeerSlot_spec indexed addr with ⟨slot, opened, handed, half⟩ | refused
  · have narrow : slot < 65535 := Nat.lt_of_lt_of_le half.issued.below state.host.limits.globalNarrow
    have id_fits : peerIdTryFrom (slot + 1) = some (slot + 1) := by
      simp only [peerIdTryFrom]
      rw [if_pos (by omega)]
    have local_fits : i32TryFrom slot = some (Int32.ofNat slot) := by
      simp only [i32TryFrom]
      rw [if_pos (by omega)]
    simp only [handed, id_fits, local_fits]
    obtain ⟨after, inserted, admitted⟩ := insertPeer_spec
      (newPeer request addr now (slot + 1) slot (Int32.ofNat slot)) indexed half fresh room rfl
    simp only [inserted]
    have same : SameIndex after
        { after with reconnectWatermarks := after.reconnectWatermarks.erase addr } :=
      .of_peers_eq rfl
    refine Advances.of_ok (Advance.one (same.indexed admitted.indexed) admitted.limits admitted.slots
      rfl rfl ?_)
    show Step (table state.host) (.opened (slot + 1) addr)
      (table { after with reconnectWatermarks := after.reconnectWatermarks.erase addr })
    rw [same.table_eq, admitted.table_eq]
    exact Step.issue admitted.vacant admitted.rested
  · simp only [refused]
    by_cases marked : replaced = true
    · obtain ⟨after, done, same⟩ :=
        recordReconnectWatermark_spec state.host addr request.connectTime now
      simp only [marked, if_true, done]
      exact Advances.of_ok (Advance.of_same indexed same rfl rfl)
    · simp only [marked]
      exact Advances.of_ok (Advance.refl indexed)

theorem handleConnectRequest_advances (data : WireProtocol.Bytes) (indexed : Indexed state.host) :
    Advances state (handleConnectRequest data addr now state) := by
  have unchanged : Advance state state := Advance.refl indexed
  have answered : ∀ packet, Advance state (state.send addr packet) := fun packet =>
    Advance.of_same indexed (.of_peers_eq rfl) rfl rfl
  unfold handleConnectRequest
  split
  · exact Advances.of_ok unchanged
  · rename_i request _
    split
    · exact Advances.of_ok (answered _)
    split
    · exact Advances.of_ok unchanged
    cases found : state.host.peers.get? addr with
    | some existing =>
        simp only
        split
        · exact Advances.of_ok unchanged
        split
        · exact Advances.of_ok (answered _)
        -- The replaced peer leaves first, which frees its share of the per-address budget.
        obtain ⟨host, done, removed⟩ := removePeer_spec indexed found
        rw [done]
        have left := advance_removed indexed found removed .remote
        refine left.then (admitConnectRequest_advances request left.indexed ?_ ?_ true)
        · show host.peers.get? addr = none
          rw [removed.peers, FiniteMap.get?_erase_self]
        · exact removed.room indexed found
    | none =>
        simp only
        split
        · exact Advances.of_ok unchanged
        have raised : Advance state (state.raiseWatermark addr request.connectTime) :=
          Advance.of_same indexed (.of_peers_eq rfl) rfl rfl
        split <;> rename_i full
        · exact Advances.of_ok raised
        · rw [not_or] at full
          refine raised.then (admitConnectRequest_advances request raised.indexed found ?_ false)
          have counted := raised.indexed.perIp addr.ip
          have below := full.2
          rw [counted] at below
          split at below <;> rename_i live
          · exact lt_of_eq_of_lt live state.host.limits.perIpPositive
          · exact Nat.lt_of_not_le below

theorem handleDisconnect_advances (data : WireProtocol.Bytes) (indexed : Indexed state.host) :
    Advances state (handleDisconnect data addr state) := by
  unfold handleDisconnect
  split
  · exact Advances.of_ok (Advance.refl indexed)
  · split
    · exact Advances.of_ok (Advance.refl indexed)
    · rename_i peer found
      split
      · exact Advances.of_ok (Advance.refl indexed)
      · have answered : Advance state
            (state.send addr (WireProtocol.buildControl WireProtocol.Property.shutdownOk)) :=
          Advance.of_same indexed (.of_peers_eq rfl) rfl rfl
        obtain ⟨host, done, removed⟩ := removePeer_spec answered.indexed found
        rw [done]
        exact answered.then (Advances.of_ok (advance_removed answered.indexed found removed .remote))

theorem advance_modify (addr : SocketAddr) (indexed : Indexed state.host) (change : Peer → Peer)
    (keeps : ∀ peer, identityOf (change peer) = identityOf peer) :
    Advance state (state.modifyPeer addr change) :=
  Advance.of_same indexed (sameIndex_modify state.host addr change keeps) rfl rfl

theorem handlePing_advance (data : WireProtocol.Bytes) (ticks : Int64) (indexed : Indexed state.host) :
    Advance state (handlePing data addr ticks now state) := by
  unfold handlePing
  split
  · exact Advance.refl indexed
  · split
    · exact Advance.refl indexed
    · exact Advance.of_same indexed (sameIndex_modify state.host addr _ fun _ => rfl) rfl rfl

theorem handlePong_advance (data : WireProtocol.Bytes) (indexed : Indexed state.host) :
    Advance state (handlePong data addr now state) := by
  unfold handlePong
  split
  · exact Advance.refl indexed
  · refine advance_modify addr indexed _ fun peer => ?_
    split
    · split <;> rfl
    · rfl

theorem handleUnreliable_advance (data : WireProtocol.Bytes) (indexed : Indexed state.host) :
    Advance state (handleUnreliable data addr now state) := by
  unfold handleUnreliable
  split
  · exact Advance.refl indexed
  · rename_i peer found
    have heard := advance_modify addr indexed (fun peer => { peer with lastRecv := now }) fun _ => rfl
    refine heard.trans (Advance.one heard.indexed rfl (Nat.le_refl _) rfl rfl ?_)
    refine Step.speak (data.drop WireProtocol.headerSize) ?_
    have same := sameIndex_modify state.host addr (fun peer => { peer with lastRecv := now }) fun _ => rfl
    exact (same.peerAddr_eq peer.id).trans (indexed.peerAddr_of found)

theorem handleDatagram_advances (data : WireProtocol.Bytes) (addr : SocketAddr) (ticks : Int64)
    (now : Instant) (indexed : Indexed state.host) :
    Advances state (handleDatagram data addr ticks now state) := by
  have unchanged : Advances state (.ok state) := Advances.of_ok (Advance.refl indexed)
  unfold handleDatagram
  split
  · exact unchanged
  · simp only
    split
    · exact unchanged
    split
    · unfold dispatch
      split
      · exact handleConnectRequest_advances _ indexed
      split
      · exact Advances.of_ok (handleUnreliable_advance _ indexed)
      split
      · exact Advances.of_ok (handlePing_advance _ _ indexed)
      split
      · exact Advances.of_ok (handlePong_advance _ indexed)
      split
      · exact handleDisconnect_advances _ indexed
      · exact unchanged
    · exact unchanged

end Handlers

section Loops
variable {state : PollState} (now : Instant)

theorem advance_host_kept {after : PollState} (indexed : Indexed state.host) (host : after.host = state.host)
    (events : after.events = state.events) (clean : after.emptyRemovals = state.emptyRemovals) :
    Advance state after := by
  refine Advance.of_same indexed ?_ events clean
  rw [host]
  exact .of_peers_eq rfl

theorem drainSocket_advances (script : List SocketTurn) (state : PollState) (indexed : Indexed state.host) :
    Advances state (drainSocket now script state) := by
  induction script generalizing state with
  | nil => exact Advances.of_ok (Advance.refl indexed)
  | cons turn rest ih =>
      have unchanged : Advances state (.ok state) := Advances.of_ok (Advance.refl indexed)
      have counted : ∀ size, Advance state (state.countPacket size) := fun size =>
        advance_host_kept indexed rfl rfl rfl
      have skipped : ∀ size, Advances state (drainSocket now rest (state.countPacket size)) := fun size =>
        (counted size).then (ih _ (counted size).indexed)
      unfold drainSocket
      split
      · cases turn with
        | wouldBlock => exact unchanged
        | failed => exact unchanged
        | connectionReset => exact skipped 0
        | peeked size received =>
            simp only
            split
            · exact unchanged
            · cases received with
              | wouldBlock => exact unchanged
              | failed => exact unchanged
              | connectionReset => exact skipped 0
              | datagram data addr ticks =>
                  simp only
                  split
                  · exact skipped data.length
                  · obtain ⟨after, done, advance⟩ :=
                      handleDatagram_advances data addr ticks now (counted data.length).indexed
                    rw [done]
                    exact (counted data.length).then (advance.then (ih after advance.indexed))
      · exact unchanged

theorem expireReconnectWatermarks_same (budget : Nat) (state : PollState) :
    SameIndex state.host (expireReconnectWatermarks now budget state).host ∧
      (expireReconnectWatermarks now budget state).events = state.events ∧
      (expireReconnectWatermarks now budget state).emptyRemovals = state.emptyRemovals := by
  induction budget generalizing state with
  | zero => exact ⟨.of_peers_eq rfl, rfl, rfl⟩
  | succ budget ih =>
      have popped : ∀ next : PollState, SameIndex state.host next.host → next.events = state.events →
          next.emptyRemovals = state.emptyRemovals →
          SameIndex state.host (expireReconnectWatermarks now budget next).host ∧
            (expireReconnectWatermarks now budget next).events = state.events ∧
            (expireReconnectWatermarks now budget next).emptyRemovals = state.emptyRemovals := by
        intro next same events clean
        have rest := ih next
        exact ⟨SameIndex.trans same rest.1, rest.2.1.trans events, rest.2.2.trans clean⟩
      unfold expireReconnectWatermarks
      split
      · exact ⟨.of_peers_eq rfl, rfl, rfl⟩
      · simp only
        split
        · split
          · split
            · exact ⟨.of_peers_eq rfl, rfl, rfl⟩
            · exact popped _ (.of_peers_eq rfl) rfl rfl
          · exact popped _ (.of_peers_eq rfl) rfl rfl
        · exact popped _ (.of_peers_eq rfl) rfl rfl

theorem keepalive_advance (addr : SocketAddr) (indexed : Indexed state.host) :
    Advance state (keepalive addr now state) := by
  unfold keepalive
  split
  · exact Advance.refl indexed
  · split
    · exact Advance.refl indexed
    · split
      · exact Advance.refl indexed
      · exact Advance.of_same indexed (sameIndex_modify state.host addr _ fun _ => rfl) rfl rfl

theorem maintainPeer_advances (addr : SocketAddr) (indexed : Indexed state.host) :
    Advances state (maintainPeer addr now state) := by
  unfold maintainPeer
  split <;> rename_i late
  · split
    · unfold expired at late
      split at late
      · cases late
      · rename_i peer found
        obtain ⟨host, done, removed⟩ := removePeer_spec indexed found
        rw [done]
        have left := advance_removed indexed found removed .timeout
        exact left.then (Advances.of_ok (advance_host_kept left.indexed rfl rfl rfl))
    · exact Advances.of_ok (Advance.refl indexed)
  · exact Advances.of_ok (keepalive_advance now addr indexed)

theorem scanSlots_advances {slotCount : Nat} (some_slots : 0 < slotCount) (scans : Nat) (state : PollState)
    (indexed : Indexed state.host) (enough : slotCount ≤ state.host.peerSlots.length) :
    Advances state (scanSlots now slotCount scans state) := by
  induction scans generalizing state with
  | zero => exact Advances.of_ok (Advance.refl indexed)
  | succ scans ih =>
      have moved : Advance state (nextSlot slotCount state).1 :=
        Advance.of_same indexed (.of_peers_eq rfl) rfl rfl
      have inside : (nextSlot slotCount state).2 < (nextSlot slotCount state).1.host.peerSlots.length := by
        show (if state.host.maintenanceCursor ≥ slotCount then 0 else state.host.maintenanceCursor) <
          state.host.peerSlots.length
        split <;> omega
      unfold scanSlots
      rcases stepped : nextSlot slotCount state with ⟨next, slot⟩
      rw [stepped] at moved inside
      simp only [List.getElem?_eq_getElem inside]
      cases held : next.host.peerSlots[slot] with
      | none => exact moved.then (ih next moved.indexed (enough.trans moved.slots))
      | some addr =>
          obtain ⟨after, done, advance⟩ := maintainPeer_advances now addr moved.indexed
          simp only [done]
          exact moved.then (advance.then
            (ih after advance.indexed ((enough.trans moved.slots).trans advance.slots)))

theorem processPeerMaintenance_advances (indexed : Indexed state.host) :
    Advances state (processPeerMaintenance now state) := by
  unfold processPeerMaintenance
  simp only
  split <;> rename_i empty
  · exact Advances.of_ok (Advance.of_same indexed (.of_peers_eq rfl) rfl rfl)
  · exact scanSlots_advances now (Nat.pos_of_ne_zero empty) _ state indexed (Nat.le_refl _)

end Loops

section Poll
variable {host : Host}

theorem indexed_startPoll (indexed : Indexed host) : Indexed (startPoll host).host :=
  ⟨SlotPool.wellFormed_beginEpoch indexed.formed, indexed.slot_iff, indexed.identity, indexed.balance,
    indexed.perIp, indexed.perIpBound⟩

/-- A poll opens a new epoch: nothing is retired in it yet, and every live id stays live. -/
theorem table_startPoll (host : Host) :
    table (startPoll host).host = { table host with retired := ∅ } := by
  simp only [table, Table.mk.injEq]
  refine ⟨rfl, ?_⟩
  ext id
  simp [startPoll, slotPool, SlotPool.resting]

/-- A poll never panics, and its events account for every change of the peer table. -/
theorem pollWithWork_advances (indexed : Indexed host) (now : Instant) (script : List SocketTurn) :
    Advances (startPoll host) (host.pollWithWork now script) := by
  have started := indexed_startPoll indexed
  obtain ⟨same, events, clean⟩ :=
    expireReconnectWatermarks_same now maxPollWatermarkCleanups (startPoll host)
  have cleaned := Advance.of_same started same events clean
  obtain ⟨drained, done, advance⟩ := drainSocket_advances now script _ cleaned.indexed
  unfold pollWithWork
  simp only [done]
  have counted : Advance drained
      { drained with work := { drained.work with socketEvents := drained.events.length } } :=
    advance_host_kept advance.indexed rfl rfl rfl
  exact cleaned.then (advance.then (counted.then (processPeerMaintenance_advances now counted.indexed)))

end Poll

end SailwindOnline.HostPoll
