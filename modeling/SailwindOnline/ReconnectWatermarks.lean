import SailwindOnline.ConnectOrder
import SailwindOnline.StampedQueue

/-!
The reconnect watermarks and the queue they expire along. Recording gives each
watermark a generation above all before it, and everything else only drops
watermarks or raises their connect times, so the queue and the map stay in step
over any life of a host. As long as poll times never decrease, watermarks also
expire in the order of the queue.
-/

namespace SailwindOnline.ReconnectWatermarks
open Host PollState HostIndex HostPoll HostRuns WireProtocol ConnectRequests ConnectOrder StampedQueue

structure Kept (host : Host) : Prop where
  queued : Queued UInt64.toNat ReconnectWatermark.generation host.reconnectWatermarks.get?
    host.reconnectWatermarkOrder host.nextReconnectWatermarkGeneration.toNat
  short : host.reconnectWatermarkOrder.length ≤ host.limits.maxPeers

def Timely (host : Host) (limit : Instant) : Prop :=
  Timed UInt64.toNat ReconnectWatermark.generation ReconnectWatermark.expiresAt host.reconnectWatermarks.get? limit

/-- The queue is as before and no watermark is new. -/
structure Thinned (host after : Host) : Prop where
  order : after.reconnectWatermarkOrder = host.reconnectWatermarkOrder
  next : after.nextReconnectWatermarkGeneration = host.nextReconnectWatermarkGeneration
  limits : after.limits = host.limits
  timeout : after.timeout = host.timeout
  marks : Fewer ReconnectWatermark.generation ReconnectWatermark.expiresAt host.reconnectWatermarks.get?
    after.reconnectWatermarks.get?

/-- What the handling of a datagram or of a slot at `now` may do to the watermarks. -/
inductive Touched (now : Instant) (host after : Host) : Prop
  | thinned (thinned : Thinned host after)
  | recorded {middle : Host} {addr : SocketAddr} {connectTime : Int64} (thinned : Thinned host middle)
      (recorded : middle.recordReconnectWatermark addr connectTime now = .ok after)

section Recording
variable {host after : Host}

theorem Thinned.trans {middle : Host} (first : Thinned host middle) (second : Thinned middle after) :
    Thinned host after :=
  ⟨second.order.trans first.order, second.next.trans first.next, second.limits.trans first.limits,
    second.timeout.trans first.timeout, first.marks.trans second.marks⟩

theorem Kept.thinned (kept : Kept host) (thinned : Thinned host after) : Kept after := by
  constructor
  · rw [thinned.order, thinned.next]
    exact kept.queued.fewer thinned.marks
  · rw [thinned.order, thinned.limits]
    exact kept.short

theorem Kept.forgotten (orders : host.reconnectWatermarkOrder = [])
    (none : ∀ addr, host.reconnectWatermarks.get? addr = none) : Kept host := by
  constructor
  · rw [orders]
    exact .empty none _
  · rw [orders]
    exact Nat.zero_le _

theorem rolled_kept (kept : Kept host) : Kept (rolledGenerations host) ∧
    (rolledGenerations host).nextReconnectWatermarkGeneration.toNat + 1 < 2 ^ 64 := by
  unfold rolledGenerations
  split
  · refine ⟨.forgotten rfl fun _ => FiniteMap.get?_empty _, ?_⟩
    show (0 : UInt64).toNat + 1 < 2 ^ 64
    decide
  · rename_i unspent
    refine ⟨kept, ?_⟩
    have bound := host.nextReconnectWatermarkGeneration.toNat_lt
    have apart : host.nextReconnectWatermarkGeneration.toNat ≠ 2 ^ 64 - 1 := by
      intro same
      apply unspent
      apply UInt64.toNat_inj.mp
      rw [same]
      decide
    omega

theorem rolled_limits (host : Host) : (rolledGenerations host).limits = host.limits ∧
    (rolledGenerations host).timeout = host.timeout := by
  unfold rolledGenerations
  split <;> exact ⟨rfl, rfl⟩

/-- Eviction makes room for one more entry, and takes the watermark of the entry it drops. -/
theorem evicted_kept {next : Nat} (done : evictOldestWatermark host = .ok after)
    (queued : Queued UInt64.toNat ReconnectWatermark.generation host.reconnectWatermarks.get?
      host.reconnectWatermarkOrder next)
    (short : host.reconnectWatermarkOrder.length ≤ host.limits.maxPeers) :
    Queued UInt64.toNat ReconnectWatermark.generation after.reconnectWatermarks.get? after.reconnectWatermarkOrder
        next ∧
      after.reconnectWatermarkOrder.length < host.limits.maxPeers ∧
      after.nextReconnectWatermarkGeneration = host.nextReconnectWatermarkGeneration ∧
      after.limits = host.limits ∧ after.timeout = host.timeout := by
  have within := marksWithin_evicted done
  unfold evictOldestWatermark at done
  split at done
  · rename_i full
    split at done
    · cases done
    · rename_i addr generation rest orders
      rw [orders] at queued full
      rw [List.length_cons] at full
      cases done
      have fewer : Fewer ReconnectWatermark.generation ReconnectWatermark.expiresAt host.reconnectWatermarks.get? _ :=
        .of_within within.2
      refine ⟨queued.popped fewer ?_, by simp only; omega, rfl, rfl, rfl⟩
      intro mark found stamped
      have held := within.2 addr mark found
      simp only [held, stamped, if_true, FiniteMap.get?_erase_self] at found
      cases found
  · cases done
    exact ⟨queued, by omega, rfl, rfl, rfl⟩

/-- A watermark with a generation above all before it goes to the back of the queue. -/
theorem appended_kept {bound : Nat} (addr : SocketAddr) {mark : ReconnectWatermark}
    (queued : Queued UInt64.toNat ReconnectWatermark.generation host.reconnectWatermarks.get?
      host.reconnectWatermarkOrder bound)
    (room : host.reconnectWatermarkOrder.length < host.limits.maxPeers)
    (fresh : bound < mark.generation.toNat) (next : host.nextReconnectWatermarkGeneration = mark.generation) :
    let appended : Host :=
      { host with
        reconnectWatermarks := host.reconnectWatermarks.insert addr mark
        reconnectWatermarkOrder := host.reconnectWatermarkOrder ++ [(addr, mark.generation)] }
    Kept appended ∧ ∀ limit, Timely host limit → mark.expiresAt = limit → Timely appended limit := by
  have looked : (host.reconnectWatermarks.insert addr mark).get? =
      fun other => if other = addr then some mark else host.reconnectWatermarks.get? other := by
    funext other
    exact FiniteMap.get?_insert _ _ _ _
  refine ⟨⟨?_, ?_⟩, ?_⟩
  · simp only [looked, next]
    exact queued.pushed fresh
  · simp only [List.length_append, List.length_singleton]
    omega
  · intro limit timely falls
    simp only [Timely, looked]
    exact timely.pushed queued fresh falls

theorem recordReconnectWatermark_appends {addr : SocketAddr} {connectTime : Int64} {now : Instant}
    (done : host.recordReconnectWatermark addr connectTime now = .ok after) :
    ∃ (evicted : Host) (mark : ReconnectWatermark),
      evictOldestWatermark { rolledGenerations host with nextReconnectWatermarkGeneration := mark.generation } =
        .ok evicted ∧
      mark.generation = (rolledGenerations host).nextReconnectWatermarkGeneration + 1 ∧
      mark.expiresAt = (checkedAddInstant now evicted.timeout).getD now ∧
      after = { evicted with
        reconnectWatermarks := evicted.reconnectWatermarks.insert addr mark
        reconnectWatermarkOrder := evicted.reconnectWatermarkOrder ++ [(addr, mark.generation)] } := by
  unfold recordReconnectWatermark at done
  simp only at done
  split at done
  · cases done
  · rename_i evicted freed
    cases found : evicted.reconnectWatermarks.get? addr with
    | none =>
        simp only [found] at done
        cases done
        exact ⟨evicted, _, freed, rfl, rfl, rfl⟩
    | some watermark =>
        simp only [found] at done
        cases done
        exact ⟨evicted, _, freed, rfl, rfl, rfl⟩

/-- Recording gives the watermark a generation of its own, at the back of the queue. -/
theorem Kept.recorded {addr : SocketAddr} {connectTime : Int64} {now : Instant} (kept : Kept host)
    (done : host.recordReconnectWatermark addr connectTime now = .ok after) :
    Kept after ∧ after.timeout = host.timeout ∧
      ∀ limit, Timely host limit → limit ≤ now + host.timeout → now + host.timeout < instantLimit →
        Timely after (now + host.timeout) := by
  obtain ⟨rolledKept, unspent⟩ := rolled_kept kept
  obtain ⟨-, rolledTimeout⟩ := rolled_limits host
  have rolledWithin := marksWithin_rolled host
  obtain ⟨evicted, mark, freed, generation, expiry, rfl⟩ := recordReconnectWatermark_appends done
  have within := marksWithin_evicted freed
  obtain ⟨queued, room, next, limits, timeout⟩ := evicted_kept freed rolledKept.queued rolledKept.short
  have same : evicted.timeout = host.timeout := timeout.trans rolledTimeout
  have fresh : (rolledGenerations host).nextReconnectWatermarkGeneration.toNat < mark.generation.toNat := by
    rw [generation, UInt64.toNat_add, UInt64.toNat_one, Nat.mod_eq_of_lt unspent]
    exact Nat.lt_succ_self _
  rw [← limits] at room
  obtain ⟨kept_after, timely_after⟩ := appended_kept addr queued room fresh next
  refine ⟨kept_after, same, ?_⟩
  intro limit timely before fits
  apply timely_after
  · have thinner : Timely evicted limit :=
      timely.fewer (.of_within fun other found held => rolledWithin.2 other found (within.2 other found held))
    exact thinner.later before
  · rw [expiry, same, checkedAddInstant, if_pos fits]
    rfl

end Recording

section Expiring
variable {state : PollState}

/-- The front entry of the queue goes; its own watermark may not stay. -/
theorem popped_kept {host : Host} {addr : SocketAddr} {generation : UInt64} {rest : List (SocketAddr × UInt64)}
    {reconnectWatermarks : FiniteMap SocketAddr ReconnectWatermark} (kept : Kept host)
    (orders : host.reconnectWatermarkOrder = (addr, generation) :: rest)
    (within : ∀ other mark, reconnectWatermarks.get? other = some mark →
      host.reconnectWatermarks.get? other = some mark)
    (gone : ∀ mark, reconnectWatermarks.get? addr = some mark → mark.generation ≠ generation) :
    Kept { host with reconnectWatermarks, reconnectWatermarkOrder := rest } := by
  have queued := kept.queued
  have short := kept.short
  rw [orders] at queued short
  rw [List.length_cons] at short
  have fewer : Fewer ReconnectWatermark.generation ReconnectWatermark.expiresAt host.reconnectWatermarks.get?
      reconnectWatermarks.get? := .of_within within
  exact ⟨queued.popped fewer gone, by simp only; omega⟩

/-- What `budget` turns of the expiry loop leave. -/
structure Expired (now : Instant) (budget : Nat) (state after : PollState) : Prop where
  kept : Kept after.host
  timeout : after.host.timeout = state.host.timeout
  marks : MarksWithin state.host after.host
  spent : after.work.watermarkCleanups ≤ state.work.watermarkCleanups + budget
  due : ∀ limit, Timely state.host limit → after.work.watermarkCleanups < state.work.watermarkCleanups + budget →
    ∀ addr mark, after.host.reconnectWatermarks.get? addr = some mark → now < mark.expiresAt

theorem expireReconnectWatermarks_expired (now : Instant) (budget : Nat) (state : PollState) (kept : Kept state.host) :
    Expired now budget state (expireReconnectWatermarks now budget state) := by
  induction budget generalizing state with
  | zero => exact ⟨kept, rfl, .refl _, Nat.le_refl _, fun _ _ left => absurd left (Nat.lt_irrefl _)⟩
  | succ budget ih =>
      -- An entry that goes costs one turn, and what the rest of the loop leaves is what this one leaves.
      have onward : ∀ next : PollState, Kept next.host → next.host.timeout = state.host.timeout →
          MarksWithin state.host next.host → next.work.watermarkCleanups = state.work.watermarkCleanups + 1 →
          Expired now (budget + 1) state (expireReconnectWatermarks now budget next) := by
        intro next nextKept timeout within counted
        obtain ⟨restKept, restTimeout, restMarks, spent, due⟩ := ih next nextKept
        refine ⟨restKept, restTimeout.trans timeout, within.trans restMarks, by omega, ?_⟩
        intro limit timely unspent
        exact due limit (timely.fewer (.of_within within.2)) (by omega)
      rw [expireReconnectWatermarks]
      split
      · rename_i orders
        refine ⟨kept, rfl, .refl _, by omega, ?_⟩
        intro limit timely unspent addr mark found
        have listed := kept.queued.listed addr mark found
        rw [orders] at listed
        cases listed
      · rename_i addr generation rest orders
        simp only
        split
        · rename_i watermark held
          split
          · rename_i fresh
            split
            · -- No watermark falls due before the one in front.
              rename_i later
              refine ⟨kept, rfl, .refl _, by omega, ?_⟩
              intro limit timely unspent other mark found
              have queued := kept.queued
              rw [orders, ← fresh] at queued
              exact Nat.lt_of_lt_of_le later (timely.front queued held found)
            · have within : ∀ other mark, (state.host.reconnectWatermarks.erase addr).get? other = some mark →
                  state.host.reconnectWatermarks.get? other = some mark := fun other mark => mark_of_erased
              refine onward _ (popped_kept kept orders within ?_) rfl ⟨rfl, within⟩ rfl
              intro mark found
              rw [FiniteMap.get?_erase_self] at found
              cases found
          · rename_i stale
            refine onward _ (popped_kept kept orders (fun _ _ found => found) ?_) rfl (.refl _) rfl
            intro mark found
            rw [held, Option.some.injEq] at found
            rw [← found]
            exact stale
        · rename_i absent
          refine onward _ (popped_kept kept orders (fun _ _ found => found) ?_) rfl (.refl _) rfl
          intro mark found
          rw [absent] at found
          cases found

end Expiring

section Handlers
variable {state after : PollState} {host kept : Host} {addr : SocketAddr} {now : Instant} {data : Bytes}

/-- What of a host its watermarks are kept in. -/
def shelf (host : Host) :=
  (host.reconnectWatermarks, host.reconnectWatermarkOrder, host.nextReconnectWatermarkGeneration, host.limits,
    host.timeout)

theorem Thinned.of_shelf {after : Host} (same : shelf after = shelf host) : Thinned host after := by
  simp only [shelf, Prod.mk.injEq] at same
  obtain ⟨marks, order, next, limits, timeout⟩ := same
  exact ⟨order, next, limits, timeout, marks ▸ .refl _⟩

theorem removePeerAt_shelf {gone : Option Peer} (done : host.removePeerAt addr = .ok (kept, gone)) :
    shelf kept = shelf host := by
  unfold removePeerAt at done
  split at done
  · cases done
    rfl
  · split at done
    · cases done
      rfl
    · simp only at done
      split at done
      · cases done
        rfl
      · cases done

theorem removePeer_shelf {gone : Option Peer} (done : state.removePeer addr = .ok (after, gone)) :
    shelf after.host = shelf state.host := by
  unfold removePeer at done
  split at done
  · cases done
  all_goals
    rename_i removing
    cases done
    exact removePeerAt_shelf removing

theorem allocatePeerSlot_shelf (host : Host) : shelf host.allocatePeerSlot.1 = shelf host := by
  unfold allocatePeerSlot
  split
  · rfl
  · split <;> rfl

theorem insertPeer_shelf {peer : Peer} (done : host.insertPeer peer = .ok kept) : shelf kept = shelf host := by
  unfold insertPeer at done
  split at done
  · cases done
    rfl
  · cases done

theorem erased_thinned (host : Host) (addr : SocketAddr) :
    Thinned host { host with reconnectWatermarks := host.reconnectWatermarks.erase addr } :=
  ⟨rfl, rfl, rfl, rfl, .of_within fun _ _ found => mark_of_erased found⟩

/-- Raising changes connect times alone. -/
theorem raised_thinned (state : PollState) (addr : SocketAddr) (connectTime : Int64) :
    Thinned state.host (state.raiseWatermark addr connectTime).host := by
  refine ⟨rfl, rfl, rfl, rfl, ?_⟩
  intro other mark found
  simp only [raiseWatermark, setHost, FiniteMap.get?_modify] at found
  split at found
  · rename_i own
    obtain ⟨earlier, present, rfl⟩ := Option.map_eq_some_iff.mp found
    refine ⟨earlier, own ▸ present, ?_⟩
    split <;> exact ⟨rfl, rfl⟩
  · exact ⟨mark, found, rfl, rfl⟩

theorem Touched.of_shelf {host after : Host} (same : shelf after = shelf host) : Touched now host after :=
  .thinned (.of_shelf same)

theorem Touched.after_thinned {host middle after : Host} (thinned : Thinned host middle)
    (touched : Touched now middle after) : Touched now host after := by
  cases touched with
  | thinned further => exact .thinned (thinned.trans further)
  | recorded further recorded => exact .recorded (thinned.trans further) recorded

theorem admitConnectRequest_touched {request : ConnectRequest} {replaced : Bool}
    (done : admitConnectRequest request addr now replaced state = .ok after) :
    Touched now state.host after.host := by
  have allocated := Thinned.of_shelf (allocatePeerSlot_shelf state.host)
  unfold admitConnectRequest at done
  split at done
  · rename_i host refused
    rw [refused] at allocated
    split at done
    · split at done
      · cases done
      · rename_i recorded
        cases done
        exact .recorded allocated recorded
    · cases done
      exact .thinned allocated
  · rename_i host slot opened
    rw [opened] at allocated
    split at done
    · cases done
    · split at done
      · cases done
      · simp only at done
        split at done
        · cases done
        · rename_i entered inserted
          cases done
          exact .thinned ((allocated.trans (.of_shelf (insertPeer_shelf inserted))).trans (erased_thinned entered addr))

theorem handleConnectRequest_touched (done : handleConnectRequest data addr now state = .ok after) :
    Touched now state.host after.host := by
  unfold handleConnectRequest at done
  split at done
  · cases done
    exact .of_shelf rfl
  split at done
  · cases done
    exact .of_shelf rfl
  split at done
  · cases done
    exact .of_shelf rfl
  split at done
  · split at done
    · cases done
      exact .of_shelf rfl
    split at done
    · cases done
      exact .of_shelf rfl
    split at done
    · cases done
    · rename_i removing
      have removed := Thinned.of_shelf (removePeer_shelf removing)
      have admitted := admitConnectRequest_touched done
      exact .after_thinned removed admitted
  · split at done
    · cases done
      exact .of_shelf rfl
    simp only at done
    split at done
    · cases done
      exact .thinned (raised_thinned state addr _)
    · exact .after_thinned (raised_thinned state addr _) (admitConnectRequest_touched done)

theorem handleDisconnect_shelf (done : handleDisconnect data addr state = .ok after) :
    shelf after.host = shelf state.host := by
  unfold handleDisconnect at done
  split at done
  · cases done
    rfl
  split at done
  · cases done
    rfl
  split at done
  · cases done
    rfl
  split at done
  · cases done
  · rename_i removing
    cases done
    have removed := removePeer_shelf removing
    exact removed

theorem handlePing_shelf (data : Bytes) (addr : SocketAddr) (ticks : Int64) (now : Instant) (state : PollState) :
    shelf (handlePing data addr ticks now state).host = shelf state.host := by
  unfold handlePing
  split
  · rfl
  · split <;> rfl

theorem handlePong_shelf (data : Bytes) (addr : SocketAddr) (now : Instant) (state : PollState) :
    shelf (handlePong data addr now state).host = shelf state.host := by
  unfold handlePong
  split <;> rfl

theorem handleUnreliable_shelf (data : Bytes) (addr : SocketAddr) (now : Instant) (state : PollState) :
    shelf (handleUnreliable data addr now state).host = shelf state.host := by
  unfold handleUnreliable
  split <;> rfl

theorem handleDatagram_touched {ticks : Int64} (done : handleDatagram data addr ticks now state = .ok after) :
    Touched now state.host after.host := by
  unfold handleDatagram at done
  split at done
  · cases done
    exact .of_shelf rfl
  simp only at done
  split at done
  · cases done
    exact .of_shelf rfl
  split at done
  · unfold dispatch at done
    split at done
    · exact handleConnectRequest_touched done
    split at done
    · cases done
      exact .of_shelf (handleUnreliable_shelf _ addr now state)
    split at done
    · cases done
      exact .of_shelf (handlePing_shelf _ addr ticks now state)
    split at done
    · cases done
      exact .of_shelf (handlePong_shelf _ addr now state)
    split at done
    · exact .of_shelf (handleDisconnect_shelf done)
    · cases done
      exact .of_shelf rfl
  · cases done
    exact .of_shelf rfl

theorem keepalive_shelf (addr : SocketAddr) (now : Instant) (state : PollState) :
    shelf (keepalive addr now state).host = shelf state.host := by
  unfold keepalive
  split
  · rfl
  · split
    · rfl
    · split <;> rfl

theorem maintainPeer_shelf (done : maintainPeer addr now state = .ok after) :
    shelf after.host = shelf state.host := by
  unfold maintainPeer at done
  split at done
  · split at done
    · split at done
      · cases done
      all_goals
        rename_i removing
        cases done
        have removed := removePeer_shelf removing
        exact removed
    · cases done
      rfl
  · cases done
    exact keepalive_shelf addr now state

end Handlers

section Polls
variable {P : PollState → Prop} {now : Instant}

/-- What the parts of a poll keep its drain loop keeps. -/
theorem drainSocket_keeps (counted : ∀ state work, P state → P { state with work })
    (handled : ∀ state after data addr ticks, P state → handleDatagram data addr ticks now state = .ok after → P after)
    (script : List SocketTurn) (state : PollState) {drained : PollState} (held : P state)
    (done : drainSocket now script state = .ok drained) : P drained := by
  induction script generalizing state with
  | nil =>
      cases done
      exact held
  | cons turn rest ih =>
      unfold drainSocket at done
      split at done
      · cases turn with
        | wouldBlock =>
            cases done
            exact held
        | failed =>
            cases done
            exact held
        | connectionReset => exact ih _ (counted state _ held) done
        | peeked size received =>
            simp only at done
            split at done
            · cases done
              exact held
            · cases received with
              | wouldBlock =>
                  cases done
                  exact held
              | failed =>
                  cases done
                  exact held
              | connectionReset => exact ih _ (counted state _ held) done
              | datagram data addr ticks =>
                  simp only at done
                  have charged : P (state.countPacket data.length) := counted state _ held
                  split at done
                  · exact ih _ charged done
                  · split at done
                    · cases done
                    · rename_i answered
                      exact ih _ (handled _ _ data addr ticks charged answered) done
      · cases done
        exact held

theorem scanSlots_keeps {slotCount : Nat}
    (scanned : ∀ state maintenanceCursor work, P state →
      P { state with host := { state.host with maintenanceCursor }, work })
    (maintained : ∀ state after addr, P state → maintainPeer addr now state = .ok after → P after) (scans : Nat)
    (state : PollState) {after : PollState} (held : P state)
    (done : scanSlots now slotCount scans state = .ok after) : P after := by
  induction scans generalizing state with
  | zero =>
      cases done
      exact held
  | succ scans ih =>
      have moved : P (nextSlot slotCount state).1 := scanned state _ _ held
      unfold scanSlots at done
      split at done
      rename_i next slot stepped
      rw [stepped] at moved
      split at done
      · cases done
      · exact ih _ moved done
      · split at done
        · cases done
        · rename_i kept
          exact ih _ (maintained _ _ _ moved kept) done

/-- What the parts of a poll at `now` keep, the poll keeps from its start on. -/
theorem pollWithWork_keeps {host : Host} {script : List SocketTurn} {batch : PollState}
    (scanned : ∀ state maintenanceCursor work, P state →
      P { state with host := { state.host with maintenanceCursor }, work })
    (handled : ∀ state after data addr ticks, P state → handleDatagram data addr ticks now state = .ok after → P after)
    (maintained : ∀ state after addr, P state → maintainPeer addr now state = .ok after → P after)
    (opened : P (expireReconnectWatermarks now maxPollWatermarkCleanups (startPoll host)))
    (done : host.pollWithWork now script = .ok batch) : P batch := by
  have counted : ∀ state work, P state → P { state with work } := fun state work =>
    scanned state state.host.maintenanceCursor work
  unfold pollWithWork at done
  split at done
  · cases done
  · rename_i drained drain
    have ready := counted _ { drained.work with socketEvents := drained.events.length }
      (drainSocket_keeps counted handled script _ opened drain)
    unfold processPeerMaintenance at done
    simp only at done
    split at done
    · cases done
      exact scanned { drained with work := { drained.work with socketEvents := drained.events.length } } 0 _ ready
    · exact scanSlots_keeps scanned maintained _ _ ready done

end Polls

section Hosts
variable {host after : Host} {now : Instant}

theorem Kept.touched (kept : Kept host) (touched : Touched now host after) : Kept after := by
  cases touched with
  | thinned thinned => exact kept.thinned thinned
  | recorded thinned recorded => exact ((kept.thinned thinned).recorded recorded).1

theorem kept_bound (limits : PeerLimits) (connectKey : String) : Kept (bound limits connectKey) :=
  .forgotten rfl fun _ => FiniteMap.get?_empty _

theorem pollWithWork_kept {script : List SocketTurn} {batch : PollState} (kept : Kept host)
    (done : host.pollWithWork now script = .ok batch) : Kept batch.host := by
  refine pollWithWork_keeps (P := fun state => Kept state.host) ?_ ?_ ?_ ?_ done
  · intro state maintenanceCursor work held
    exact ⟨held.queued, held.short⟩
  · intro state after data addr ticks held handled
    exact held.touched (handleDatagram_touched handled)
  · intro state after addr held maintained
    exact held.thinned (.of_shelf (maintainPeer_shelf maintained))
  · exact (expireReconnectWatermarks_expired now _ (startPoll host) ⟨kept.queued, kept.short⟩).kept

theorem disconnect_shelf {peer : PeerId} {notice : Option (SocketAddr × Bytes)}
    (done : host.disconnect peer = .ok (after, notice)) : shelf after = shelf host := by
  unfold Host.disconnect at done
  split at done
  · cases done
    rfl
  · split at done
    · cases done
    all_goals
      rename_i removing
      cases done
      exact removePeerAt_shelf removing

/-- A call that is no poll leaves the watermarks as they are. -/
theorem serve_shelf {call : HostCall} {outcome : Outcome} (other : call.isPoll = false)
    (served : serve host call = .ok outcome) : shelf outcome.host = shelf host := by
  cases call with
  | poll now script => cases other
  | sendUnreliable peer bytes delivered =>
      simp only [serve] at served
      split at served
      · cases served
      · cases served
        rfl
  | disconnect peer =>
      simp only [serve] at served
      split at served
      · cases served
      · rename_i after notice closed
        cases served
        have same : (evictionOutcome peer (host.peerAddr peer) notice.isSome after).host = after := by
          unfold evictionOutcome
          split
          · rfl
          · split <;> rfl
        rw [same]
        exact disconnect_shelf closed

theorem serve_kept {call : HostCall} {outcome : Outcome} (kept : Kept host)
    (served : serve host call = .ok outcome) : Kept outcome.host := by
  cases call with
  | poll now script =>
      simp only [serve] at served
      split at served
      · cases served
      · rename_i polled
        cases served
        exact pollWithWork_kept kept polled
  | sendUnreliable peer bytes delivered => exact kept.thinned (.of_shelf (serve_shelf rfl served))
  | disconnect peer => exact kept.thinned (.of_shelf (serve_shelf rfl served))

theorem kept_of_reachable (reached : Reachable host) : Kept host := by
  induction reached with
  | bound limits connectKey => exact kept_bound limits connectKey
  | serve call _ served ih => exact serve_kept ih served
  | shutdown order _ _ => exact .forgotten rfl fun _ => FiniteMap.get?_empty _

end Hosts

section Clocks
variable {host after : Host} {now clock : Instant}

/-- A host whose polls came at times that never decreased, the last one at `clock`, and never so late that the
timeout could not be added. -/
inductive Clocked : Instant → Host → Prop
  | bound (limits : PeerLimits) (connectKey : String) (clock : Instant) : Clocked clock (bound limits connectKey)
  | poll {clock now : Instant} {host : Host} {outcome : Outcome} {script : List SocketTurn}
      (clocked : Clocked clock host) (onward : clock ≤ now) (fits : (checkedAddInstant now host.timeout).isSome)
      (served : serve host (.poll now script) = .ok outcome) : Clocked now outcome.host
  | call {clock : Instant} {host : Host} {call : HostCall} {outcome : Outcome} (clocked : Clocked clock host)
      (other : call.isPoll = false) (served : serve host call = .ok outcome) : Clocked clock outcome.host
  | shutdown {clock : Instant} {host : Host} (order : List SocketAddr) (clocked : Clocked clock host) :
      Clocked clock (host.shutdown order).host

theorem Clocked.reachable (clocked : Clocked clock host) : Reachable host := by
  induction clocked with
  | bound limits connectKey => exact .bound limits connectKey
  | poll _ _ _ served ih => exact .serve _ ih served
  | call _ _ served ih => exact .serve _ ih served
  | shutdown order _ ih => exact .shutdown order ih

theorem Timely.thinned {limit : Instant} (timely : Timely host limit) (thinned : Thinned host after) :
    Timely after limit :=
  timely.fewer thinned.marks

/-- The state of a poll at `now`: nothing falls due later than what it may record. -/
structure Current (now : Instant) (state : PollState) : Prop where
  kept : Kept state.host
  timely : Timely state.host (now + state.host.timeout)
  fits : now + state.host.timeout < instantLimit

theorem Current.thinned {state after : PollState} (current : Current now state)
    (thinned : Thinned state.host after.host) : Current now after where
  kept := current.kept.thinned thinned
  timely := by
    rw [thinned.timeout]
    exact current.timely.thinned thinned
  fits := by
    rw [thinned.timeout]
    exact current.fits

theorem Current.touched {state after : PollState} (current : Current now state)
    (touched : Touched now state.host after.host) : Current now after := by
  cases touched with
  | thinned thinned => exact current.thinned thinned
  | @recorded middle _ _ thinned recorded =>
      have within : Thinned state.host (state.setHost middle).host := thinned
      have middling : Current now (state.setHost middle) := current.thinned within
      obtain ⟨kept, timeout, timely⟩ := middling.kept.recorded recorded
      refine ⟨kept, ?_, ?_⟩
      · rw [timeout]
        exact timely _ middling.timely (Nat.le_refl _) middling.fits
      · rw [timeout]
        exact middling.fits

theorem pollWithWork_current {script : List SocketTurn} {batch : PollState} (kept : Kept host)
    (timely : Timely host (clock + host.timeout)) (onward : clock ≤ now)
    (fits : (checkedAddInstant now host.timeout).isSome) (done : host.pollWithWork now script = .ok batch) :
    Current now batch := by
  refine pollWithWork_keeps (P := Current now) ?_ ?_ ?_ ?_ done
  · intro state maintenanceCursor work current
    exact ⟨⟨current.kept.queued, current.kept.short⟩, current.timely, current.fits⟩
  · intro state after data addr ticks current handled
    exact current.touched (handleDatagram_touched handled)
  · intro state after addr current maintained
    exact current.thinned (.of_shelf (maintainPeer_shelf maintained))
  · have opened := expireReconnectWatermarks_expired now maxPollWatermarkCleanups (startPoll host)
      ⟨kept.queued, kept.short⟩
    have same : (expireReconnectWatermarks now maxPollWatermarkCleanups (startPoll host)).host.timeout =
        host.timeout := opened.timeout
    have within : Timely (expireReconnectWatermarks now maxPollWatermarkCleanups (startPoll host)).host
        (clock + host.timeout) := timely.fewer (.of_within opened.marks.2)
    refine ⟨opened.kept, ?_, ?_⟩
    · rw [same]
      exact within.later (Nat.add_le_add_right onward _)
    · rw [same]
      by_contra late
      rw [checkedAddInstant, if_neg late] at fits
      cases fits

theorem timely_of_clocked (clocked : Clocked clock host) : Timely host (clock + host.timeout) := by
  induction clocked with
  | bound limits connectKey clock => exact .empty (fun _ => FiniteMap.get?_empty _) _
  | poll clocked onward fits served ih =>
      simp only [serve] at served
      split at served
      · cases served
      · rename_i polled
        cases served
        exact (pollWithWork_current (kept_of_reachable clocked.reachable) ih onward fits polled).timely
  | call clocked other served ih =>
      have thinned := Thinned.of_shelf (serve_shelf other served)
      rw [thinned.timeout]
      exact ih.thinned thinned
  | shutdown order _ _ => exact .empty (fun _ => FiniteMap.get?_empty _) _

end Clocks

section Watermarks
variable {host : Host}

/-- Whether the branch of `recordReconnectWatermark` for an existing watermark would be taken. -/
def updatesWatermark (host : Host) (addr : SocketAddr) : Bool :=
  match evictOldestWatermark
    { rolledGenerations host with
      nextReconnectWatermarkGeneration := (rolledGenerations host).nextReconnectWatermarkGeneration + 1 } with
  | .ok evicted => (evicted.reconnectWatermarks.get? addr).isSome
  | .error _ => false

theorem updatesWatermark_unmarked {addr : SocketAddr} (unmarked : host.reconnectWatermarks.get? addr = none) :
    updatesWatermark host addr = false := by
  unfold updatesWatermark
  split
  · rename_i evicted freed
    cases found : evicted.reconnectWatermarks.get? addr with
    | none => rfl
    | some mark =>
        have held := (marksWithin_rolled host).2 addr mark ((marksWithin_evicted freed).2 addr mark found)
        rw [unmarked] at held
        cases held
  · rfl

/-- Where a replaced peer's address is about to be recorded, it has no watermark. -/
theorem displaced_unmarked {state removed : PollState} {addr : SocketAddr} {live : Peer} {gone : Option Peer}
    (exclusive : Exclusive state.host) (found : state.host.peers.get? addr = some live)
    (removing : state.removePeer addr = .ok (removed, gone)) :
    updatesWatermark removed.host.allocatePeerSlot.1 addr = false := by
  apply updatesWatermark_unmarked
  have shelved := (allocatePeerSlot_shelf removed.host).trans (removePeer_shelf removing)
  simp only [shelf, Prod.mk.injEq] at shelved
  rw [shelved.1]
  exact exclusive.unmarked found

theorem exclusive_of_reachable (reached : Reachable host) : Exclusive host := by
  obtain ⟨limits, connectKey, chronicle, life, rfl⟩ := reachable_life reached
  exact ((sound_start limits connectKey).life life).exclusive

/-- Watermarks stay apart from live peers and in step with the queue, each with one entry of its own; none is
recorded where one exists; and while poll times never decrease they expire in the order of the queue. -/
theorem watermarks_in_step (reached : Reachable host) :
    (∀ addr peer, host.peers.get? addr = some peer → host.reconnectWatermarks.get? addr = none) ∧
    host.reconnectWatermarks.size ≤ host.reconnectWatermarkOrder.length ∧
    host.reconnectWatermarkOrder.length ≤ host.limits.maxPeers ∧
    (∀ addr mark, host.reconnectWatermarks.get? addr = some mark →
      (host.reconnectWatermarkOrder.filter fun entry => entry.2 = mark.generation) = [(addr, mark.generation)]) ∧
    (∀ limits connectKey chronicle, Life (Chronicle.start limits connectKey) chronicle →
      ∀ addr live removed gone, chronicle.state.host.peers.get? addr = some live →
        chronicle.state.removePeer addr = .ok (removed, gone) →
        updatesWatermark removed.host.allocatePeerSlot.1 addr = false) ∧
    (∀ clock, Clocked clock host →
      (host.reconnectWatermarkOrder.Pairwise fun early late => ∀ first second,
        host.reconnectWatermarks.get? early.1 = some first → first.generation = early.2 →
        host.reconnectWatermarks.get? late.1 = some second → second.generation = late.2 →
        first.expiresAt ≤ second.expiresAt) ∧
      ∀ now, (expireReconnectWatermarks now maxPollWatermarkCleanups (startPoll host)).work.watermarkCleanups <
          maxPollWatermarkCleanups →
        ∀ addr mark, (expireReconnectWatermarks now maxPollWatermarkCleanups
          (startPoll host)).host.reconnectWatermarks.get? addr = some mark → now < mark.expiresAt) := by
  have kept := kept_of_reachable reached
  refine ⟨fun addr peer found => (exclusive_of_reachable reached).unmarked found, kept.queued.size_le, kept.short,
    fun addr mark found => kept.queued.unique found, ?_, ?_⟩
  · intro limits connectKey chronicle life addr live removed gone found removing
    exact displaced_unmarked ((sound_start limits connectKey).life life).exclusive found removing
  · intro clock clocked
    have timely := timely_of_clocked clocked
    refine ⟨timely.along kept.queued, ?_⟩
    intro now unspent
    have opened := expireReconnectWatermarks_expired now maxPollWatermarkCleanups (startPoll host)
      ⟨kept.queued, kept.short⟩
    apply opened.due _ timely
    have fresh : (startPoll host).work.watermarkCleanups = 0 := rfl
    omega

/-! Two of three clients are displaced two seconds after they connected, and the third one a second later. -/
section Displaced

def gate (n : Nat) : SocketAddr := .v4 2130706433 (UInt16.ofNat n)

def requestAt (connectTime : Int64) (n : Nat) : SocketTurn :=
  .peeked 39 (.datagram (buildConnectRequest 0 connectTime 0 16 (writeLitenetString "key")) (gate n) 0)

def gateLimits : PeerLimits := ⟨3, 3, by decide, by decide, by decide, by decide⟩

def displacedHost : Host :=
  let full := afterCall (bound gateLimits "key") (.poll 0 ([1, 2, 3].map (requestAt 7)))
  let halved := afterCall full (.poll (2 * second) ([1, 2].map (requestAt 9)))
  -- Two newcomers take the slots that are free again.
  afterCall halved (.poll (3 * second) [requestAt 7 4, requestAt 7 5, requestAt 9 3])

theorem Clocked.afterPoll {clock now : Instant} {host : Host} (clocked : Clocked clock host) (onward : clock ≤ now)
    (fits : (checkedAddInstant now host.timeout).isSome) (script : List SocketTurn) :
    Clocked now (afterCall host (.poll now script)) := by
  obtain ⟨outcome, done, -⟩ := serve_spec clocked.reachable.indexed (.poll now script)
  unfold afterCall
  rw [done]
  exact clocked.poll onward fits done

theorem displacedHost_clocked : Clocked (3 * second) displacedHost := by
  have full := (Clocked.bound gateLimits "key" 0).afterPoll (le_refl 0) (by decide) ([1, 2, 3].map (requestAt 7))
  have halved : Clocked (2 * second) _ := full.afterPoll (by decide) (by decide +kernel) ([1, 2].map (requestAt 9))
  exact halved.afterPoll (by decide) (by decide +kernel) _

/-- Generation and expiry of the watermark of a gate. -/
def markOf (host : Host) (n : Nat) : Option (UInt64 × Instant) :=
  (host.reconnectWatermarks.get? (gate n)).map fun mark => (mark.generation, mark.expiresAt)

/-- Five seconds after the first two were displaced, the cleanup drops their watermarks and keeps the third one's. -/
theorem watermarks_in_step_displaced :
    [1, 2, 3, 4, 5].map (markOf displacedHost) =
        [some (1, 7 * second), some (2, 7 * second), some (3, 8 * second), none, none] ∧
    (∀ n, ∀ mark, displacedHost.reconnectWatermarks.get? (gate n) = some mark →
      (displacedHost.reconnectWatermarkOrder.filter fun entry => entry.2 = mark.generation) = [(gate n, mark.generation)]) ∧
    ∀ n, ∀ mark, (expireReconnectWatermarks (7 * second) maxPollWatermarkCleanups
      (startPoll displacedHost)).host.reconnectWatermarks.get? (gate n) = some mark → 7 * second < mark.expiresAt := by
  obtain ⟨-, -, -, unique, -, timely⟩ := watermarks_in_step displacedHost_clocked.reachable
  obtain ⟨-, expired⟩ := timely (3 * second) displacedHost_clocked
  have unspent : (expireReconnectWatermarks (7 * second) maxPollWatermarkCleanups
      (startPoll displacedHost)).work.watermarkCleanups < maxPollWatermarkCleanups := by decide +kernel
  exact ⟨by decide +kernel, fun n => unique (gate n), fun n => expired (7 * second) unspent (gate n)⟩

end Displaced

end Watermarks

end SailwindOnline.ReconnectWatermarks
