import SailwindOnline.HostPoll

/-!
Runs of the host: polls, sends and local disconnects in any order. A run leaves
a history of marks, the events of its polls together with the peers evicted by
local disconnects, which raise no event.
-/

namespace SailwindOnline.HostRuns
open Host HostIndex HostPoll Incarnations

inductive HostCall where
  | poll (now : Instant) (script : List SocketTurn)
  | sendUnreliable (peer : PeerId) (bytes : WireProtocol.Bytes) (delivered : Bool)
  | disconnect (peer : PeerId)

def HostCall.isPoll : HostCall → Bool
  | .poll _ _ => true
  | .sendUnreliable _ _ _ | .disconnect _ => false

structure Outcome where
  host : Host
  marks : List PeerMark
  emptyRemovals : Nat

/-- A local disconnect of a live peer that removes nothing has returned early. -/
def evictionOutcome (peer : PeerId) (addr : Option SocketAddr) (removed : Bool) (host : Host) : Outcome :=
  match addr with
  | none => { host, marks := [], emptyRemovals := 0 }
  | some addr =>
    if removed then { host, marks := [.evicted peer addr], emptyRemovals := 0 }
    else { host, marks := [], emptyRemovals := 1 }

def serve (host : Host) : HostCall → Except Panic Outcome
  | .poll now script =>
    match host.pollWithWork now script with
    | .error panic => .error panic
    | .ok state =>
      .ok { host := state.host, marks := state.events.map markOf, emptyRemovals := state.emptyRemovals }
  | .sendUnreliable peer bytes delivered =>
    match host.sendUnreliable peer bytes delivered with
    | .error panic => .error panic
    | .ok _ => .ok { host, marks := [], emptyRemovals := 0 }
  | .disconnect peer =>
    match host.disconnect peer with
    | .error panic => .error panic
    | .ok (after, notice) => .ok (evictionOutcome peer (host.peerAddr peer) notice.isSome after)

def run (host : Host) : List HostCall → Except Panic (Host × List PeerMark)
  | [] => .ok (host, [])
  | call :: rest =>
    match serve host call with
    | .error panic => .error panic
    | .ok outcome =>
      match run outcome.host rest with
      | .error panic => .error panic
      | .ok (final, marks) => .ok (final, outcome.marks ++ marks)

inductive Reachable : Host → Prop
  | bound (limits : PeerLimits) (connectKey : String) : Reachable (bound limits connectKey)
  | serve {host : Host} {outcome : Outcome} (call : HostCall) (reached : Reachable host)
      (served : serve host call = .ok outcome) : Reachable outcome.host
  | shutdown {host : Host} (order : List SocketAddr) (reached : Reachable host) :
      Reachable (host.shutdown order).host

/-- The table a call starts from: a poll begins with nothing retired. -/
def entry (host : Host) (call : HostCall) : Table PeerId SocketAddr :=
  if call.isPoll then { table host with retired := ∅ } else table host

structure Served (host : Host) (call : HostCall) (outcome : Outcome) : Prop where
  indexed : Indexed outcome.host
  limits : outcome.host.limits = host.limits
  clean : outcome.emptyRemovals = 0
  steps : Steps (entry host call) outcome.marks (table outcome.host)

section Calls
variable {host : Host}

theorem serve_poll (indexed : Indexed host) (now : Instant) (script : List SocketTurn) :
    ∃ state, host.pollWithWork now script = .ok state ∧
      serve host (.poll now script) =
        .ok { host := state.host, marks := state.events.map markOf, emptyRemovals := state.emptyRemovals } ∧
      Served host (.poll now script)
        { host := state.host, marks := state.events.map markOf, emptyRemovals := state.emptyRemovals } := by
  obtain ⟨state, done, advance⟩ := pollWithWork_advances indexed now script
  obtain ⟨fresh, events, steps⟩ := advance.raised
  refine ⟨state, done, by simp [serve, done], advance.indexed, advance.limits, advance.clean, ?_⟩
  have all_fresh : state.events = fresh := by simpa [startPoll] using events
  rw [table_startPoll] at steps
  simpa [entry, HostCall.isPoll, all_fresh] using steps

theorem sendUnreliable_total (host : Host) (peer : PeerId) (bytes : WireProtocol.Bytes) (delivered : Bool) :
    ∃ answer, host.sendUnreliable peer bytes delivered = .ok answer := by
  unfold sendUnreliable
  split
  · exact ⟨_, rfl⟩
  · split
    · exact ⟨_, rfl⟩
    · rename_i addr live
      obtain ⟨found, present, -⟩ := peer_of_peerAddr live
      simp only [present]
      split <;> exact ⟨_, rfl⟩

theorem serve_disconnect (indexed : Indexed host) (peer : PeerId) :
    ∃ outcome, serve host (.disconnect peer) = .ok outcome ∧ Served host (.disconnect peer) outcome := by
  cases live : host.peerAddr peer with
  | none =>
      refine ⟨{ host, marks := [], emptyRemovals := 0 }, ?_, indexed, rfl, rfl, Steps.refl _⟩
      simp [serve, Host.disconnect, live, evictionOutcome]
  | some addr =>
      obtain ⟨found, present, identity⟩ := peer_of_peerAddr live
      obtain ⟨after, done, removed⟩ := removePeerAt_spec indexed present
      refine ⟨{ host := after, marks := [.evicted peer addr], emptyRemovals := 0 }, ?_, removed.indexed,
        removed.limits, rfl, Steps.single ?_⟩
      · simp [serve, Host.disconnect, live, done, evictionOutcome]
      · show Step (table host) (.evicted peer addr) (table after)
        rw [removed.table_eq, identity]
        exact Step.evict live

/-- Every call on a host whose indices agree returns, and leaves them in agreement. -/
theorem serve_spec (indexed : Indexed host) (call : HostCall) :
    ∃ outcome, serve host call = .ok outcome ∧ Served host call outcome := by
  cases call with
  | poll now script =>
      obtain ⟨state, -, done, served⟩ := serve_poll indexed now script
      exact ⟨_, done, served⟩
  | sendUnreliable peer bytes delivered =>
      obtain ⟨answer, done⟩ := sendUnreliable_total host peer bytes delivered
      exact ⟨{ host, marks := [], emptyRemovals := 0 }, by simp [serve, done], indexed, rfl, rfl,
        Steps.refl _⟩
  | disconnect peer => exact serve_disconnect indexed peer

theorem Reachable.indexed (reached : Reachable host) : Indexed host := by
  induction reached with
  | bound limits connectKey => exact indexed_bound limits connectKey
  | serve call _ served ih =>
      obtain ⟨outcome, done, settled⟩ := serve_spec ih call
      rw [served, Except.ok.injEq] at done
      rw [done]
      exact settled.indexed
  | @shutdown host order _ _ =>
      have same : SameIndex (Host.bound host.limits host.connectKey) (host.shutdown order).host :=
        .of_peers_eq rfl
      exact same.indexed (indexed_bound host.limits host.connectKey)

def afterCall (host : Host) (call : HostCall) : Host :=
  match serve host call with
  | .error _ => host
  | .ok outcome => outcome.host

theorem afterCall_reached (reached : Reachable host) (call : HostCall) : Reachable (afterCall host call) := by
  obtain ⟨outcome, done, -⟩ := serve_spec reached.indexed call
  unfold afterCall
  rw [done]
  exact reached.serve call done

end Calls

/-- In every reachable state the five indices agree within the host's limits, and no call of the
public interface panics or returns early from a removal. -/
theorem host_indices_agree {host : Host} (reached : Reachable host) :
    (∀ slot addr, host.peerSlots[slot]? = some (some addr) ↔
      ∃ peer, host.peers.get? addr = some peer ∧ peer.slot = slot ∧ peer.id = slot + 1) ∧
    (∀ slot, host.freePeerSlots.count slot = if host.peerSlots[slot]? = some none then 1 else 0) ∧
    host.peerSlots.length = host.peers.size + host.freePeerSlots.length ∧
    host.peerSlots.length ≤ host.limits.maxPeers ∧
    host.availableFreePeerSlots ≤ host.freePeerSlots.length ∧
    (∀ ip, host.peersPerIp.get? ip =
      if livePerIp host.peers ip = 0 then none else some (livePerIp host.peers ip)) ∧
    (∀ ip, livePerIp host.peers ip ≤ host.limits.maxPeersPerIp) ∧
    (∀ call, ∃ outcome, serve host call = .ok outcome ∧ outcome.emptyRemovals = 0) := by
  have indexed := reached.indexed
  refine ⟨?_, ?_, indexed.balance, indexed.formed.bounded, indexed.formed.within, indexed.perIp,
    indexed.perIpBound, ?_⟩
  · intro slot addr
    rw [indexed.slot_iff]
    constructor
    · rintro ⟨peer, present, rfl⟩
      exact ⟨peer, present, rfl, (indexed.identity addr peer present).1⟩
    · rintro ⟨peer, present, here, -⟩
      exact ⟨peer, present, here⟩
  · intro slot
    have listed : slot ∈ host.freePeerSlots ↔ host.peerSlots[slot]? = some none :=
      indexed.formed.free_iff slot
    split <;> rename_i empty
    · exact List.count_eq_one_of_mem indexed.formed.unique (listed.mpr empty)
    · exact List.count_eq_zero.mpr fun member => empty (listed.mp member)
  · intro call
    obtain ⟨outcome, done, served⟩ := serve_spec indexed call
    exact ⟨outcome, done, served.clean⟩

def pairLimits : PeerLimits := ⟨2, 1, by decide, by decide, by decide, by decide⟩

def firstAddr : SocketAddr := .v4 2130706433 5000

def requestFrom (addr : SocketAddr) : SocketTurn :=
  .peeked 39 (.datagram (WireProtocol.buildConnectRequest 0 7 0 16 (WireProtocol.writeLitenetString "key")) addr 0)

def firstConnect : HostCall :=
  .poll 0 [.peeked 39 (.datagram
    (WireProtocol.buildConnectRequest 0 7 0 16 (WireProtocol.writeLitenetString "key")) firstAddr 0)]

theorem host_indices_agree_connected :
    ∃ outcome, serve (bound pairLimits "key") firstConnect = .ok outcome ∧
      outcome.host.peerSlots[0]? = some (some firstAddr) ∧
      ∃ peer, outcome.host.peers.get? firstAddr = some peer ∧ peer.slot = 0 ∧ peer.id = 1 := by
  obtain ⟨outcome, done, -⟩ := serve_spec (indexed_bound pairLimits "key") firstConnect
  have slots : (serve (bound pairLimits "key") firstConnect).toOption.map
      (fun outcome => outcome.host.peerSlots[0]?) = some (some (some firstAddr)) := by decide +kernel
  rw [done] at slots
  have held : outcome.host.peerSlots[0]? = some (some firstAddr) := Option.some.inj slots
  have agree := host_indices_agree (Reachable.serve firstConnect (Reachable.bound pairLimits "key") done)
  exact ⟨outcome, done, held, (agree.1 0 firstAddr).mp held⟩

section Runs
variable {host : Host}

theorem run_append (host : Host) (before after : List HostCall) {middle : Host} {past : List PeerMark}
    (done : run host before = .ok (middle, past)) :
    run host (before ++ after) =
      match run middle after with
      | .error panic => .error panic
      | .ok (final, marks) => .ok (final, past ++ marks) := by
  induction before generalizing host past with
  | nil =>
      cases done
      simp only [List.nil_append]
      cases run middle after <;> rfl
  | cons call rest ih =>
      simp only [run] at done
      simp only [List.cons_append, run]
      cases served : serve host call with
      | error panic => simp [served] at done
      | ok outcome =>
          rw [served] at done
          simp only at done ⊢
          cases ran : run outcome.host rest with
          | error panic => simp [ran] at done
          | ok result =>
              rcases result with ⟨final, marks⟩
              simp only [ran, Except.ok.injEq, Prod.mk.injEq] at done
              obtain ⟨rfl, rfl⟩ := done
              rw [ih outcome.host ran]
              cases run final after <;> simp

/-- Every run returns; the marks it leaves spell the incarnations of each id. -/
theorem run_spelled (indexed : Indexed host) (calls : List HostCall) {history : List PeerMark}
    (spelled : ∀ peer, Spelled peer history (host.peerAddr peer)) :
    ∃ final marks, run host calls = .ok (final, marks) ∧ Indexed final ∧
      ∀ peer, Spelled peer (history ++ marks) (final.peerAddr peer) := by
  induction calls generalizing host history with
  | nil => exact ⟨host, [], rfl, indexed, by simpa using spelled⟩
  | cons call rest ih =>
      obtain ⟨outcome, done, served⟩ := serve_spec indexed call
      have entered : (entry host call).live = host.peerAddr := by
        unfold entry
        split <;> rfl
      have stepped : ∀ peer, Spelled peer (history ++ outcome.marks) (outcome.host.peerAddr peer) := by
        intro peer
        apply served.steps.spelled peer
        rw [entered]
        exact spelled peer
      obtain ⟨final, marks, ran, settled, spelling⟩ := ih served.indexed stepped
      refine ⟨final, outcome.marks ++ marks, by simp [run, done, ran], settled, ?_⟩
      rw [← List.append_assoc]
      exact spelling

/-- Between polls no id is reissued, so an id stands for the incarnation it stood for. -/
theorem run_bound (indexed : Indexed host) (calls : List HostCall)
    (quiet : ∀ call ∈ calls, call.isPoll = false) {final : Host} {marks : List PeerMark}
    (done : run host calls = .ok (final, marks)) {peer : PeerId} {addr : SocketAddr}
    (bound : Bound (table host) peer addr) : Bound (table final) peer addr := by
  induction calls generalizing host marks with
  | nil =>
      cases done
      exact bound
  | cons call rest ih =>
      obtain ⟨outcome, served_eq, served⟩ := serve_spec indexed call
      have steps := served.steps
      rw [entry, quiet call List.mem_cons_self] at steps
      simp only [run, served_eq] at done
      cases ran : run outcome.host rest with
      | error panic => simp [ran] at done
      | ok result =>
          rcases result with ⟨last, later⟩
          simp only [ran, Except.ok.injEq, Prod.mk.injEq] at done
          obtain ⟨rfl, -⟩ := done
          exact ih served.indexed (fun next member => quiet next (List.mem_cons_of_mem call member)) ran
            (steps.bound bound)

end Runs

@[simp] theorem markOf_id (event : Event × SocketAddr) : (markOf event).id = event.1.peer := by
  rcases event with ⟨_ | _ | _, _⟩ <;> rfl

@[simp] theorem markOf_origin (event : Event × SocketAddr) : (markOf event).origin = event.2 := by
  rcases event with ⟨_ | _ | _, _⟩ <;> rfl

/-- The events about each peer id spell its incarnations, and from the return of a poll until the
next one an id mentioned in the batch resolves to nothing or to the incarnation the batch means. -/
theorem host_incarnations (limits : PeerLimits) (connectKey : String) (calls : List HostCall) :
    ∃ final history, run (bound limits connectKey) calls = .ok (final, history) ∧
      (∀ peer, Spelled peer history (final.peerAddr peer)) ∧
      ∀ before now script between, calls = before ++ .poll now script :: between →
        (∀ call ∈ between, call.isPoll = false) →
        ∃ start past batch, run (bound limits connectKey) before = .ok (start, past) ∧
          start.pollWithWork now script = .ok batch ∧
          (∀ event ∈ batch.events, final.peerAddr event.1.peer = none ∨
            final.peerAddr event.1.peer = some event.2) ∧
          (∀ earlier event later, batch.events = earlier ++ event :: later →
            event.1 = .connected event.1.peer → ∀ other ∈ earlier, other.1.peer ≠ event.1.peer) := by
  have empty : ∀ peer, Spelled peer ([] : List PeerMark) ((bound limits connectKey).peerAddr peer) := by
    intro peer
    have vacant : (bound limits connectKey).peerAddr peer = none := by simp [peerAddr, bound]
    rw [vacant]
    exact ⟨[], rfl⟩
  have indexed := indexed_bound limits connectKey
  obtain ⟨final, history, ran, -, spelled⟩ := run_spelled indexed calls empty
  refine ⟨final, history, ran, spelled, ?_⟩
  intro before now script between split quiet
  obtain ⟨start, past, prior, started, -⟩ := run_spelled indexed before empty
  obtain ⟨batch, polled, served_eq, served⟩ := serve_poll started now script
  refine ⟨start, past, batch, prior, polled, ?_, ?_⟩
  · intro event member
    have bound_now : Bound (table batch.host) (markOf event).id (markOf event).origin :=
      served.steps.bound_marks _ (List.mem_map.mpr ⟨event, member, rfl⟩)
    -- Only calls that are no polls follow, and those keep every binding of the batch.
    have whole := run_append (bound limits connectKey) before (.poll now script :: between) prior
    rw [← split, ran] at whole
    simp only [run, served_eq] at whole
    cases rest : run batch.host between with
    | error panic => simp [rest] at whole
    | ok result =>
        rcases result with ⟨last, later⟩
        simp only [rest, Except.ok.injEq, Prod.mk.injEq] at whole
        obtain ⟨rfl, -⟩ := whole
        have bound_last := run_bound served.indexed between quiet rest bound_now
        simp only [markOf_id, markOf_origin] at bound_last
        rcases bound_last with live | ⟨gone, -⟩
        · exact Or.inr live
        · exact Or.inl gone
  · intro earlier event later whole opens other member
    -- Within one batch an id is not reissued, so `Connected` is the first event about it.
    have steps := served.steps
    simp only [whole, List.map_append, List.map_cons] at steps
    have opened : markOf event = .opened event.1.peer event.2 := by
      rcases event with ⟨kind, addr⟩
      simp only at opens
      rw [opens]
      rfl
    have first := steps.opened_first opened (markOf other) (List.mem_map.mpr ⟨other, member, rfl⟩)
    simpa using first

end SailwindOnline.HostRuns
