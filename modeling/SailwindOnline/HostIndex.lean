import SailwindOnline.Host
import SailwindOnline.SlotPool
import SailwindOnline.Incarnations

/-!
The indices of the host agree: the peer table and the slot vector are mutually
inverse, the free queue lists the empty slots, and the per-address counters
count the live peers. Every part of a poll keeps them in agreement, and moves
the table of peer ids only by issuing, using and retiring them.
-/

namespace SailwindOnline.HostIndex
open Host Incarnations

abbrev PeerMark := Mark PeerId SocketAddr WireProtocol.Bytes DisconnectReason

def slotPool (host : Host) : SlotPool SocketAddr :=
  { slots := host.peerSlots, free := host.freePeerSlots, available := host.availableFreePeerSlots }

def livePerIp (peers : FiniteMap SocketAddr Peer) (ip : IpAddr) : Nat :=
  (peers.keys.filter fun addr => addr.ip = ip).card

structure Indexed (host : Host) : Prop where
  formed : (slotPool host).WellFormed host.limits.maxPeers
  slot_iff : ∀ slot addr, host.peerSlots[slot]? = some (some addr) ↔
    ∃ peer, host.peers.get? addr = some peer ∧ peer.slot = slot
  identity : ∀ addr peer, host.peers.get? addr = some peer → peer.id = peer.slot + 1 ∧ peer.addr = addr
  balance : host.peerSlots.length = host.peers.size + host.freePeerSlots.length
  perIp : ∀ ip, host.peersPerIp.get? ip =
    if livePerIp host.peers ip = 0 then none else some (livePerIp host.peers ip)
  perIpBound : ∀ ip, livePerIp host.peers ip ≤ host.limits.maxPeersPerIp

/-- The ids of the slots resting in the free queue are those retired since the poll began. -/
def table (host : Host) : Table PeerId SocketAddr :=
  { live := host.peerAddr, retired := { id | ∃ slot ∈ (slotPool host).resting, id = slot + 1 } }

def markOf : Event × SocketAddr → PeerMark
  | (.connected peer, addr) => .opened peer addr
  | (.data peer payload, addr) => .spoke peer addr payload
  | (.disconnected peer reason, addr) => .closed peer addr reason

section Counters
variable (peers : FiniteMap SocketAddr Peer) (addr : SocketAddr)

theorem livePerIp_insert (peer : Peer) (fresh : peers.get? addr = none) (ip : IpAddr) :
    livePerIp (peers.insert addr peer) ip = livePerIp peers ip + if addr.ip = ip then 1 else 0 := by
  have absent : addr ∉ peers.keys := (peers.not_mem_keys addr).mpr fresh
  rw [livePerIp, FiniteMap.keys_insert, Finset.filter_insert]
  split
  · rw [Finset.card_insert_of_notMem (by simp [absent]), livePerIp]
  · rfl

theorem livePerIp_erase {peer : Peer} (present : peers.get? addr = some peer) (ip : IpAddr) :
    livePerIp (peers.erase addr) ip + (if addr.ip = ip then 1 else 0) = livePerIp peers ip := by
  have member : addr ∈ peers.keys := (peers.mem_keys_iff_exists addr).mpr ⟨peer, present⟩
  rw [livePerIp, FiniteMap.keys_erase, Finset.filter_erase, livePerIp]
  split <;> rename_i own
  · exact Finset.card_erase_add_one (by simp [member, own])
  · rw [Finset.erase_eq_of_notMem (by simp [own])]
    rfl

theorem livePerIp_pos {peer : Peer} (present : peers.get? addr = some peer) :
    0 < livePerIp peers addr.ip := by
  have counted := livePerIp_erase peers addr present addr.ip
  simp only [if_true] at counted
  omega

end Counters

/-- The peer's identity is what the indices know about it; the rest is session bookkeeping. -/
def identityOf (peer : Peer) : PeerId × Nat × SocketAddr := (peer.id, peer.slot, peer.addr)

/-- The part of a host that its indices are read from. -/
def indexedPart (host : Host) :=
  (host.peerSlots, host.freePeerSlots, host.availableFreePeerSlots, host.peersPerIp, host.limits, host.peers)

structure SameIndex (host after : Host) : Prop where
  slots : after.peerSlots = host.peerSlots
  free : after.freePeerSlots = host.freePeerSlots
  available : after.availableFreePeerSlots = host.availableFreePeerSlots
  counters : after.peersPerIp = host.peersPerIp
  limits : after.limits = host.limits
  identities : ∀ addr, (after.peers.get? addr).map identityOf = (host.peers.get? addr).map identityOf

namespace SameIndex
variable {host after : Host}

theorem of_peers_eq (same : indexedPart after = indexedPart host) : SameIndex host after := by
  simp only [indexedPart, Prod.mk.injEq] at same
  obtain ⟨slots, free, available, counters, limits, peers⟩ := same
  exact ⟨slots, free, available, counters, limits, fun addr => by rw [peers]⟩

theorem slotPool_eq (same : SameIndex host after) : slotPool after = slotPool host := by
  simp [slotPool, same.slots, same.free, same.available]

theorem keys_eq (same : SameIndex host after) : after.peers.keys = host.peers.keys := by
  ext addr
  rw [FiniteMap.mem_keys, FiniteMap.mem_keys]
  have equal := congrArg Option.isSome (same.identities addr)
  simpa using Bool.eq_iff_iff.mp equal

theorem livePerIp_eq (same : SameIndex host after) (ip : IpAddr) :
    livePerIp after.peers ip = livePerIp host.peers ip := by
  rw [livePerIp, same.keys_eq, livePerIp]

theorem peer_of (same : SameIndex host after) {addr : SocketAddr} {peer : Peer}
    (found : after.peers.get? addr = some peer) :
    ∃ old, host.peers.get? addr = some old ∧ identityOf old = identityOf peer := by
  have equal := same.identities addr
  rw [found, Option.map_some, eq_comm, Option.map_eq_some_iff] at equal
  exact equal

theorem symm (same : SameIndex host after) : SameIndex after host :=
  ⟨same.slots.symm, same.free.symm, same.available.symm, same.counters.symm, same.limits.symm,
    fun addr => (same.identities addr).symm⟩

theorem slot_exists_iff (same : SameIndex host after) (slot : Nat) (addr : SocketAddr) :
    (∃ peer, after.peers.get? addr = some peer ∧ peer.slot = slot) ↔
      ∃ peer, host.peers.get? addr = some peer ∧ peer.slot = slot := by
  have carry : ∀ {a b : Host}, SameIndex a b →
      (∃ peer, b.peers.get? addr = some peer ∧ peer.slot = slot) →
        ∃ peer, a.peers.get? addr = some peer ∧ peer.slot = slot := by
    rintro a b equal ⟨peer, found, here⟩
    obtain ⟨old, present, identity⟩ := equal.peer_of found
    simp only [identityOf, Prod.mk.injEq] at identity
    exact ⟨old, present, identity.2.1.trans here⟩
  exact ⟨carry same, carry same.symm⟩

theorem peerAddr_eq (same : SameIndex host after) (id : PeerId) : after.peerAddr id = host.peerAddr id := by
  unfold peerAddr
  rw [same.slots]
  split
  · rfl
  · split
    · rfl
    · rename_i addr _
      have equal := same.identities addr
      cases mine : after.peers.get? addr with
      | none =>
          rw [mine, Option.map_none, eq_comm, Option.map_eq_none_iff] at equal
          simp [equal]
      | some peer =>
          obtain ⟨old, present, identity⟩ := same.peer_of mine
          simp only [identityOf, Prod.mk.injEq] at identity
          simp [present, identity.1]

theorem table_eq (same : SameIndex host after) : table after = table host := by
  simp only [table, same.slotPool_eq]
  congr 1
  funext id
  exact same.peerAddr_eq id

theorem indexed (same : SameIndex host after) (indexed : Indexed host) : Indexed after where
  formed := by
    rw [same.slotPool_eq, same.limits]
    exact indexed.formed
  slot_iff := by
    intro slot addr
    rw [same.slots, indexed.slot_iff, same.slot_exists_iff]
  identity := by
    intro addr peer found
    obtain ⟨old, present, identity⟩ := same.peer_of found
    simp only [identityOf, Prod.mk.injEq] at identity
    have known := indexed.identity addr old present
    exact ⟨by rw [← identity.1, ← identity.2.1]; exact known.1, identity.2.2.symm.trans known.2⟩
  balance := by
    rw [same.slots, same.free, FiniteMap.size, same.keys_eq]
    exact indexed.balance
  perIp := by
    intro ip
    rw [same.counters, same.livePerIp_eq]
    exact indexed.perIp ip
  perIpBound := by
    intro ip
    rw [same.livePerIp_eq, same.limits]
    exact indexed.perIpBound ip

end SameIndex

theorem indexed_bound (limits : PeerLimits) (connectKey : String) : Indexed (bound limits connectKey) where
  formed := SlotPool.wellFormed_empty _
  slot_iff := by simp [bound]
  identity := by simp [bound]
  balance := by simp [bound]
  perIp := by simp [bound, livePerIp]
  perIpBound := by simp [bound, livePerIp]

section Lookups
variable {host : Host}

theorem Indexed.holder_iff (indexed : Indexed host) (slot : Nat) (addr : SocketAddr) :
    (slotPool host).holder slot = some addr ↔
      ∃ peer, host.peers.get? addr = some peer ∧ peer.slot = slot :=
  (slotPool host).holder_eq_some.trans (indexed.slot_iff slot addr)

theorem Indexed.holder_of (indexed : Indexed host) {addr : SocketAddr} {peer : Peer}
    (present : host.peers.get? addr = some peer) : (slotPool host).holder peer.slot = some addr :=
  (indexed.holder_iff peer.slot addr).mpr ⟨peer, present, rfl⟩

/-- With the indices in agreement, a peer id resolves through its slot alone. -/
theorem Indexed.peerAddr_succ (indexed : Indexed host) (slot : Nat) :
    host.peerAddr (slot + 1) = (slotPool host).holder slot := by
  unfold peerAddr
  simp only [Nat.add_one_ne_zero, if_false, Nat.add_sub_cancel]
  cases held : host.peerSlots[slot]?.join with
  | none => exact held.symm
  | some addr =>
      obtain ⟨peer, present, here⟩ := (indexed.slot_iff slot addr).mp (Option.join_eq_some_iff.mp held)
      have identity := (indexed.identity addr peer present).1
      simp [present, identity, here]
      exact held.symm

theorem peerAddr_zero : host.peerAddr 0 = none := by simp [peerAddr]

theorem Indexed.peerAddr_of (indexed : Indexed host) {addr : SocketAddr} {peer : Peer}
    (present : host.peers.get? addr = some peer) : host.peerAddr peer.id = some addr := by
  rw [(indexed.identity addr peer present).1, indexed.peerAddr_succ]
  exact indexed.holder_of present

theorem peer_of_peerAddr {id : PeerId} {addr : SocketAddr} (live : host.peerAddr id = some addr) :
    ∃ peer, host.peers.get? addr = some peer ∧ peer.id = id := by
  unfold peerAddr at live
  split at live
  · cases live
  · split at live
    · cases live
    · split at live
      · cases live
      · rename_i found
        split at live <;> rename_i own
        · cases live
          exact ⟨_, found, own⟩
        · cases live

/-- Moving the owner of one slot moves the address of one peer id. -/
theorem peerAddr_update {after : Host} (indexed : Indexed host) (settled : Indexed after) {slot : Nat}
    {current : Option SocketAddr}
    (moved : ∀ other, (slotPool after).holder other =
      if other = slot then current else (slotPool host).holder other) :
    after.peerAddr = Function.update host.peerAddr (slot + 1) current := by
  funext id
  cases id with
  | zero =>
      have other : 0 ≠ slot + 1 := by omega
      rw [Function.update_of_ne other, peerAddr_zero, peerAddr_zero]
  | succ position =>
      rw [settled.peerAddr_succ, moved]
      by_cases own : position = slot
      · rw [if_pos own, own, Function.update_self]
      · have other : position + 1 ≠ slot + 1 := by omega
        rw [if_neg own, Function.update_of_ne other, indexed.peerAddr_succ]

end Lookups

end SailwindOnline.HostIndex
