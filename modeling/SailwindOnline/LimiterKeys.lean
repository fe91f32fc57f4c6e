import SailwindOnline.Enrolment

/-!
Whom the throttles remember. The per-player throttles remember players with a
session. The hello throttle remembers peers that are live in the transport or
have their disconnect still waiting in the batch, unless a take-over has put a
peer out while a hello of that peer was waiting: the hello is charged before
anybody looks whether the peer is still there.
-/

namespace SailwindOnline.LimiterKeys
open Server SessionIndex SessionRuns Effects TickEffects Traces PlayerTable Persistence RateLimiting Enrolment
open Throttles HostIndex HostPoll

/-! What a poll says of the peers it hears. -/
section Batches
variable {host : Host} {state : PollState} {now : Instant} {script : List SocketTurn}

theorem poll_steps (indexed : Indexed host) (polled : host.pollWithWork now script = .ok state) :
    Indexed state.host ∧ state.host.limits = host.limits ∧
      Incarnations.Steps (table host.startPoll.host) (state.events.map markOf) (table state.host) := by
  obtain ⟨after, done, advance⟩ := pollWithWork_advances indexed now script
  rw [polled, Except.ok.injEq] at done
  subst done
  obtain ⟨fresh, events, steps⟩ := advance.raised
  have all_fresh : state.events = fresh := by simpa [Host.startPoll] using events
  exact ⟨advance.indexed, advance.limits, all_fresh ▸ steps⟩

/-- A peer that is live, or whose disconnect has not been handled yet. -/
def Present (pending : List Event) (host : Host) (peer : PeerId) : Prop :=
  (host.peerAddr peer).isSome ∨ ∃ reason, Event.disconnected peer reason ∈ pending

theorem poll_live {peer : PeerId} (indexed : Indexed host) (polled : host.pollWithWork now script = .ok state)
    (live : (host.peerAddr peer).isSome) : Present (state.events.map Prod.fst) state.host peer := by
  obtain ⟨-, -, steps⟩ := poll_steps indexed polled
  obtain ⟨addr, resolved⟩ := Option.isSome_iff_exists.mp live
  rw [table_startPoll] at steps
  rcases steps.live_or_ended resolved with kept | ⟨ending, ended⟩
  · exact Or.inl (Option.isSome_iff_exists.mpr ⟨addr, kept⟩)
  · exact Or.inr (ended_event ended)

theorem poll_heard {early later : List Event} {peer : PeerId} {bytes : WireProtocol.Bytes} (indexed : Indexed host)
    (polled : host.pollWithWork now script = .ok state)
    (heard : state.events.map Prod.fst = early ++ .data peer bytes :: later) : Present later state.host peer := by
  obtain ⟨-, -, steps⟩ := poll_steps indexed polled
  obtain ⟨before, rest, split, -, tail⟩ := List.map_eq_append_iff.mp heard
  obtain ⟨⟨event, addr⟩, after, rfl, own, rfl⟩ := List.map_eq_cons_iff.mp tail
  replace own : event = .data peer bytes := own
  subst own
  rw [split, List.map_append, List.map_cons] at steps
  rcases Incarnations.Steps.spoke_live_or_ended steps with kept | ⟨ending, ended⟩
  · exact Or.inl (Option.isSome_iff_exists.mpr ⟨addr, kept⟩)
  · exact Or.inr (ended_event ended)

/-- Every id a poll names is that of a slot. -/
theorem poll_issued (indexed : Indexed host) (polled : host.pollWithWork now script = .ok state) :
    ∀ event ∈ state.events.map Prod.fst, event.peer ≤ host.limits.maxPeers := by
  obtain ⟨settled, limits, steps⟩ := poll_steps indexed polled
  intro event member
  obtain ⟨⟨_, addr⟩, raised, rfl⟩ := List.mem_map.mp member
  have bound := steps.bound_marks _ (List.mem_map_of_mem raised)
  rw [HostRuns.markOf_id, HostRuns.markOf_origin] at bound
  rw [← limits]
  rcases bound with live | ⟨-, slot, resting, own⟩
  · exact (peer_issued settled live).2
  · have free := (settled.formed.free_iff slot).mp (List.mem_of_mem_drop resting)
    have inside := (List.getElem?_eq_some_iff.mp free).1
    exact own.trans_le (Nat.lt_of_lt_of_le inside settled.formed.bounded)

end Batches

/-! Players. -/
section Players
variable {F : Type} [Platform F] {pending : List Event} {server after : Server F} {moment : Moment} {event : Event}

/-- Every player a throttle remembers has a session. -/
def Claimed (server : Server F) : Prop := ∀ player ∈ playerKeys server, (server.playerPeers.get? player).isSome

theorem Claimed.of_subset {player : UInt64} (claimed : Claimed server) (owned : (server.playerPeers.get? player).isSome)
    (owners : after.playerPeers = server.playerPeers)
    (keys : playerKeys after ⊆ insert player (playerKeys server)) : Claimed after := by
  intro other remembered
  rw [owners]
  rcases Finset.mem_insert.mp (keys remembered) with rfl | earlier
  · exact owned
  · exact claimed other earlier

theorem Claimed.of_eq (claimed : Claimed server) (owners : after.playerPeers = server.playerPeers)
    (keys : playerKeys after = playerKeys server) : Claimed after := by
  intro player remembered
  rw [owners]
  exact claimed player (keys ▸ remembered)

theorem enrolled_keys (server : Server F) (moment : Moment) (peer : PeerId) (ip : IpAddr) (identityHash : String)
    (player : UInt64) (db : Db F) :
    playerKeys (enrolled server moment peer ip identityHash player db) = playerKeys server := by
  unfold enrolled identityCharged
  split <;> rfl

theorem Claimed.hello {peer : PeerId} {hello : ClientHello} {result : Except ServerError Unit}
    (claimed : Claimed server) (effect : HelloEffect server moment peer hello (after, result)) : Claimed after := by
  have charged : ∀ {charged : Server F}, Charges server moment peer hello charged → Claimed charged :=
    fun charges => claimed.of_eq (congrArg Server.playerPeers charges.frame :) (congrArg playerKeys charges.frame :)
  cases effect with
  | silent charges storage => exact charged charges
  | answered charges other => exact (charged charges).of_eq rfl rfl
  | full gated unknown crowded => exact (charged (.identity gated.presented gated.fresh)).of_eq rfl rfl
  | faulted gated admitted fault => exact (charged (.identity gated.presented gated.fresh)).of_eq rfl rfl
  | repeated found greets => exact claimed.of_eq rfl rfl
  | @joined identityHash name ip row db middle numbered generation reply gated admitted consistent superseded
      numbering greets =>
      have calm := (enrolled_calm server moment peer ip identityHash row.id.toUInt64 db).1
      have owners : (enrolled server moment peer ip identityHash row.id.toUInt64 db).playerPeers =
          server.playerPeers := (congrArg Server.playerPeers calm :)
      have frame := entered_frame peer
        (withGeneration generation (firstSession server row.id.toUInt64 identityHash name)) reply superseded numbering
      have keys := (congrArg playerKeys frame :).trans
        (enrolled_keys server moment peer ip identityHash row.id.toUInt64 db)
      intro player remembered
      rw [entered_owners peer _ reply rfl superseded numbering, owners]
      split
      · rfl
      · exact claimed player (keys ▸ remembered)

/-- The player's throttles go with the session. -/
theorem Claimed.departed (claimed : Claimed server) (peer : PeerId) (player : UInt64) :
    Claimed (departed server peer player) := by
  intro other remembered
  have kept : other ≠ player ∧ other ∈ playerKeys server := by
    simp only [playerKeys, Effects.departed, RateLimiter.clear, FiniteMap.keys_erase, Finset.mem_union,
      Finset.mem_erase] at remembered ⊢
    tauto
  simp only [Effects.departed, dropped, FiniteMap.get?_erase, if_neg kept.1]
  exact claimed other kept.2

variable [Codec F]

theorem Claimed.effect (claimed : Claimed server) (agree : SessionsAgree noStray server)
    (effect : Effect server moment event after) : Claimed after := by
  have owned : ∀ {peer : PeerId} {session : Session F}, server.sessions.get? peer = some session →
      (server.playerPeers.get? session.playerId).isSome := fun found => by
    rw [owner_of agree found]
    rfl
  cases effect with
  | ignored other => exact claimed
  | @request peer bytes session after found effect =>
      cases effect with
      | served served => exact claimed.of_subset (owned found) (congrArg Server.playerPeers served.frame :) served.keys
      | moved motion state cell placed =>
          exact claimed.of_subset (owned found) rfl (playerKeys_stateCharged server session.playerId moment.admissionMs)
      | spoke here about captured =>
          exact claimed.of_subset (owned found) rfl (playerKeys_chatCharged server session.playerId moment.admissionMs)
  | hello decoded effect => exact claimed.hello effect
  | absent vacant => exact claimed.of_eq rfl rfl
  | @persisted peer reason session found stored => exact (claimed.departed peer session.playerId).of_eq rfl rfl
  | @unpersisted peer reason session found failing => exact (claimed.departed peer session.playerId).of_eq rfl rfl

theorem reachable_claimed {db : Db F} (reached : Reachable db server pending) : Claimed server := by
  induction reached with
  | start opened =>
      obtain ⟨identityPlayers, -, rfl⟩ := new_opened opened
      simp [Claimed, playerKeys, Server.opened]
  | poll now script _ polled ih => exact ih.of_eq rfl rfl
  | handle moment reached ih => exact ih.effect reached.inv.agree (handleEvent_effect reached.inv moment _)
  | @tick server pending tick _ ih =>
      have gates := (tick_gates server tick).1
      simp only [gateView, Prod.mk.injEq] at gates
      exact ih.of_eq (keeps_tick server tick).owners gates.2.2.2.2.2.2.2

end Players

/-! Peers. -/
section Peers
variable {F : Type} [Platform F] [Codec F] {server after : Server F} {moment : Moment} {event : Event} {peer : PeerId}

/-- The peers the hello throttle remembers. -/
def helloKeys (server : Server F) : Finset UInt64 := server.helloLimiter.last.keys

/-- What an event does to the transport and to the hello throttle's memory. -/
inductive Passage (server : Server F) (after : Server F) : Event → Prop
  | quiet {event : Event} (other : ∀ peer reason, event ≠ .disconnected peer reason)
      (host : after.host = server.host) (keys : helloKeys after = helloKeys server) : Passage server after event
  | left {peer : PeerId} (reason : DisconnectReason) (host : after.host = server.host)
      (keys : helloKeys after = (helloKeys server).erase (UInt64.ofNat peer)) :
      Passage server after (.disconnected peer reason)
  | greeted {peer : PeerId} {bytes : WireProtocol.Bytes} {hello : ClientHello}
      (decoded : Codec.decode (F := F) bytes = some (.hello hello)) (host : after.host = server.host)
      (keys : helloKeys after ⊆ insert (UInt64.ofNat peer) (helloKeys server)) :
      Passage server after (.data peer bytes)
  | tookOver {peer : PeerId} {bytes : WireProtocol.Bytes} {hello : ClientHello}
      (decoded : Codec.decode (F := F) bytes = some (.hello hello)) (prior : PeerId)
      (located : (server.host.peerAddr peer).isSome)
      (addrs : ∀ other, after.host.peerAddr other = if other = prior then none else server.host.peerAddr other)
      (keys : helloKeys after ⊆ (insert (UInt64.ofNat peer) (helloKeys server)).erase (UInt64.ofNat prior)) :
      Passage server after (.data peer bytes)

omit [Codec F] in
theorem helloKeys_charged (server : Server F) (moment : Moment) (peer : PeerId) :
    helloKeys (helloCharged server moment peer) ⊆ insert (UInt64.ofNat peer) (helloKeys server) :=
  keys_allow _ _ _

omit [Codec F] in
theorem Charges.passage {hello : ClientHello} {charged : Server F}
    (charges : Charges server moment peer hello charged) :
    charged.host = server.host ∧ charged.helloLimiter = (helloCharged server moment peer).helloLimiter := by
  cases charges with
  | hello => exact ⟨rfl, rfl⟩
  | source presented => exact ⟨rfl, rfl⟩
  | identity presented fresh =>
      unfold identityCharged
      split <;> exact ⟨rfl, rfl⟩

omit [Codec F] in
theorem enrolled_passage (server : Server F) (moment : Moment) (peer : PeerId) (ip : IpAddr) (identityHash : String)
    (player : UInt64) (db : Db F) :
    (enrolled server moment peer ip identityHash player db).host = server.host ∧
      (enrolled server moment peer ip identityHash player db).helloLimiter =
        (helloCharged server moment peer).helloLimiter := by
  unfold enrolled identityCharged
  split <;> exact ⟨rfl, rfl⟩

theorem hello_passage {bytes : WireProtocol.Bytes} {hello : ClientHello} {result : Except ServerError Unit}
    (decoded : Codec.decode (F := F) bytes = some (.hello hello))
    (effect : HelloEffect server moment peer hello (after, result)) :
    Passage server after (.data peer bytes) := by
  have charged : ∀ {charged : Server F}, Charges server moment peer hello charged →
      after.host = charged.host → after.helloLimiter = charged.helloLimiter →
        Passage server after (.data peer bytes) := by
    intro charged charges host limiter
    obtain ⟨same, throttle⟩ := Charges.passage charges
    refine .greeted decoded (host.trans same) ?_
    rw [helloKeys, limiter, throttle]
    exact helloKeys_charged server moment peer
  cases effect with
  | silent charges storage => exact charged charges rfl rfl
  | answered charges other => exact charged charges rfl rfl
  | full gated unknown crowded => exact charged (.identity gated.presented gated.fresh) rfl rfl
  | faulted gated admitted fault => exact charged (.identity gated.presented gated.fresh) rfl rfl
  | repeated found greets => exact charged .hello rfl rfl
  | @joined identityHash name ip row db middle numbered generation reply gated admitted consistent superseded
      numbering greets =>
      obtain ⟨host, throttle⟩ := enrolled_passage server moment peer ip identityHash row.id.toUInt64 db
      have kept : numbered.host = middle.host ∧ numbered.helloLimiter = middle.helloLimiter := by
        cases numbering <;> exact ⟨rfl, rfl⟩
      have keys : helloKeys (entered numbered peer (withGeneration generation
          (firstSession server row.id.toUInt64 identityHash name)) reply) = middle.helloLimiter.last.keys :=
        congrArg (fun limiter : RateLimiter => limiter.last.keys) kept.2
      have charged := helloKeys_charged server moment peer
      rw [helloKeys, ← throttle] at charged
      cases superseded with
      | absent unowned =>
          refine .greeted decoded (kept.1.trans host) ?_
          rw [keys]
          exact charged
      | @evicted prior session evicting owned found own addrs =>
          obtain ⟨addr, lives, -⟩ := gated.presented.located
          refine .tookOver decoded prior (Option.isSome_iff_exists.mpr ⟨addr, lives⟩) ?_ ?_
          · intro other
            rw [← host, ← addrs other]
            exact congrArg (fun host => host.peerAddr other) kept.1
          · rw [keys]
            simp only [RateLimiter.clear, FiniteMap.keys_erase]
            exact Finset.erase_subset_erase _ charged

theorem effect_passage (effect : Effect server moment event after) : Passage server after event := by
  cases effect with
  | ignored other => exact .quiet other rfl rfl
  | request found effect =>
      cases effect with
      | served served =>
          exact .quiet (by rintro _ _ ⟨⟩) (congrArg Server.host served.frame :) (congrArg helloKeys served.frame :)
      | moved motion state cell placed => exact .quiet (by rintro _ _ ⟨⟩) rfl rfl
      | spoke here about captured => exact .quiet (by rintro _ _ ⟨⟩) rfl rfl
  | hello decoded effect => exact hello_passage decoded effect
  | absent vacant => exact .left _ rfl (FiniteMap.keys_erase _ _)
  | persisted found stored => exact .left _ rfl (FiniteMap.keys_erase _ _)
  | unpersisted found failing => exact .left _ rfl (FiniteMap.keys_erase _ _)

end Peers

/-! Runs. -/
section Runs
variable {F : Type} [Platform F] [Codec F] {db : Db F} {trace : List (Stage F)} {server : Server F}
  {pending : List Event} {stage : Stage F} {peer : PeerId}

def SaysHello (stage : Stage F) (peer : PeerId) (moment : Moment) : Prop :=
  ∃ bytes hello, stage.action = .handle moment (.data peer bytes) ∧ Codec.decode (F := F) bytes = some (.hello hello)

def Polls (stage : Stage F) : Prop := ∃ now script, stage.action = .poll now script

/-- The transport had `peer` before an event was handled and has it no more. -/
def Evicts (stage : Stage F) (peer : PeerId) : Prop :=
  (∃ moment event, stage.action = .handle moment event) ∧ (stage.before.host.peerAddr peer).isSome ∧
    stage.after.host.peerAddr peer = none

/-- `peer` was evicted since the last poll. -/
def PutOut (trace : List (Stage F)) (peer : PeerId) : Prop :=
  ∃ early evicting middle, trace = early ++ evicting :: middle ∧ Evicts evicting peer ∧
    ∀ stage ∈ middle, ¬ Polls stage

/-- No hello is handled of a peer evicted earlier in the same batch. -/
def Punctual (trace : List (Stage F)) : Prop :=
  ∀ early stage later, trace = early ++ stage :: later → ∀ peer moment, SaysHello stage peer moment →
    ¬ PutOut early peer

omit [Codec F] in
theorem PutOut.snoc (out : PutOut trace peer) (same : ¬ Polls stage) : PutOut (trace ++ [stage]) peer := by
  obtain ⟨early, evicting, middle, rfl, evicts, quiet⟩ := out
  refine ⟨early, evicting, middle ++ [stage], by simp, evicts, ?_⟩
  intro other member
  rcases List.mem_append.mp member with earlier | last
  · exact quiet other earlier
  · rw [List.mem_singleton.mp last]
    exact same

omit [Codec F] in
theorem Evicts.putOut (evicts : Evicts stage peer) : PutOut (trace ++ [stage]) peer :=
  ⟨trace, stage, [], rfl, evicts, by simp⟩

theorem Punctual.before {later : List (Stage F)} (punctual : Punctual (trace ++ later)) : Punctual trace := by
  rintro early stage rest rfl
  exact punctual early stage (rest ++ later) (by simp)

/-- The hello throttle of a punctual run. -/
structure Attended (trace : List (Stage F)) (server : Server F) (pending : List Event) : Prop where
  keys : ∀ key ∈ helloKeys server, ∃ peer, key = UInt64.ofNat peer ∧ Present pending server.host peer
  heard : ∀ early peer bytes later, pending = early ++ .data peer bytes :: later →
    Present later server.host peer ∨ PutOut trace peer

theorem Present.tail {event : Event} {host : Host} (present : Present (event :: pending) host peer)
    (other : ∀ reason, event ≠ .disconnected peer reason) : Present pending host peer := by
  refine present.imp_right fun ⟨reason, waiting⟩ => ⟨reason, ?_⟩
  rcases List.mem_cons.mp waiting with same | later
  · exact absurd same.symm (other reason)
  · exact later

section Handling
variable {moment : Moment} {event : Event} {after : Server F}

omit [Codec F] in
theorem Attended.heard_handle (attended : Attended trace server (event :: pending)) :
    ∀ early peer bytes later, pending = early ++ .data peer bytes :: later →
      Present later after.host peer ∨ PutOut (trace ++ [⟨server, .handle moment event, after⟩]) peer := by
  intro early peer bytes later split
  rcases attended.heard (event :: early) peer bytes later (by rw [split]; rfl) with present | out
  · rcases present with live | waiting
    · cases still : after.host.peerAddr peer with
      | some addr => exact Or.inl (Or.inl (by rw [still]; rfl))
      | none => exact Or.inr (Evicts.putOut ⟨⟨_, _, rfl⟩, live, still⟩)
    · exact Or.inl (Or.inr waiting)
  · exact Or.inr (out.snoc (by rintro ⟨now, script, ⟨⟩⟩))

/-- The peer whose hello is handled on time is live, or its disconnect is still to come. -/
theorem Attended.speaker {bytes : WireProtocol.Bytes} {hello : ClientHello}
    (attended : Attended trace server (.data peer bytes :: pending))
    (punctual : Punctual (trace ++ [⟨server, .handle moment (.data peer bytes), after⟩]))
    (decoded : Codec.decode (F := F) bytes = some (.hello hello)) : Present pending server.host peer :=
  (attended.heard [] peer bytes pending rfl).resolve_right
    (punctual trace _ [] rfl peer moment ⟨bytes, hello, rfl, decoded⟩)

theorem Attended.keys_handle (attended : Attended trace server (event :: pending))
    (passage : Passage server after event)
    (punctual : Punctual (trace ++ [⟨server, .handle moment event, after⟩])) :
    ∀ key ∈ helloKeys after, ∃ peer, key = UInt64.ofNat peer ∧ Present pending after.host peer := by
  intro key remembered
  cases passage with
  | quiet other host keys =>
      rw [keys] at remembered
      obtain ⟨peer, own, present⟩ := attended.keys key remembered
      rw [host]
      exact ⟨peer, own, present.tail (other peer)⟩
  | @left gone reason host keys =>
      rw [keys] at remembered
      obtain ⟨apart, earlier⟩ := Finset.mem_erase.mp remembered
      obtain ⟨peer, rfl, present⟩ := attended.keys key earlier
      rw [host]
      refine ⟨peer, rfl, present.tail ?_⟩
      rintro reason ⟨⟩
      exact apart rfl
  | @greeted speaker bytes hello decoded host keys =>
      rw [host]
      rcases Finset.mem_insert.mp (keys remembered) with rfl | earlier
      · exact ⟨speaker, rfl, attended.speaker punctual decoded⟩
      · obtain ⟨peer, own, present⟩ := attended.keys key earlier
        exact ⟨peer, own, present.tail (by rintro reason ⟨⟩)⟩
  | @tookOver speaker bytes hello decoded prior located addrs keys =>
      obtain ⟨apart, charged⟩ := Finset.mem_erase.mp (keys remembered)
      -- Whoever is remembered is not the evicted peer, so the transport has it as before.
      have kept : ∀ peer, key = UInt64.ofNat peer → Present pending server.host peer →
          Present pending after.host peer := by
        rintro peer rfl present
        have other : peer ≠ prior := fun same => apart (congrArg UInt64.ofNat same)
        exact present.imp_left fun live => by rwa [addrs peer, if_neg other]
      rcases Finset.mem_insert.mp charged with own | earlier
      · exact ⟨speaker, own, kept speaker own (Or.inl located)⟩
      · obtain ⟨peer, own, present⟩ := attended.keys key earlier
        exact ⟨peer, own, kept peer own (present.tail (by rintro reason ⟨⟩))⟩

end Handling

theorem run_attended (run : Run db trace server pending) (punctual : Punctual trace) :
    Attended trace server pending := by
  induction run with
  | start opened =>
      obtain ⟨identityPlayers, -, rfl⟩ := new_opened opened
      exact ⟨by simp [helloKeys, Server.opened], by simp⟩
  | poll now script run polled ih =>
      have indexed := run.inv.hosted.indexed
      refine ⟨?_, fun early peer bytes later split => Or.inl (poll_heard indexed polled split)⟩
      intro key remembered
      obtain ⟨peer, own, present⟩ := (ih punctual.before).keys key remembered
      rcases present with live | ⟨reason, waiting⟩
      · exact ⟨peer, own, poll_live indexed polled live⟩
      · cases waiting
  | handle moment run ih =>
      have attended := ih punctual.before
      exact ⟨attended.keys_handle (effect_passage (handleEvent_effect run.inv moment _)) punctual,
        attended.heard_handle⟩
  | @tick trace server pending tick run ih =>
      have attended := ih punctual.before
      have gates := (tick_gates server tick).1
      simp only [gateView, Prod.mk.injEq] at gates
      obtain ⟨-, host, -, hellos, -⟩ := gates
      refine ⟨?_, ?_⟩
      · rw [helloKeys, hellos, host]
        exact attended.keys
      · intro early peer bytes later split
        rw [host]
        exact (attended.heard early peer bytes later split).imp_right fun out =>
          out.snoc (by rintro ⟨now, script, ⟨⟩⟩)

theorem toNat_key {peer : PeerId} (small : peer < 2 ^ 32) : (UInt64.ofNat peer).toNat = peer :=
  UInt64.toNat_ofNat_of_lt' (small.trans (by decide))

theorem ofNat_injective {peer other : PeerId} (small : peer < 2 ^ 32) (bounded : other < 2 ^ 32)
    (same : UInt64.ofNat peer = UInt64.ofNat other) : peer = other := by
  rw [← toNat_key small, same, toNat_key bounded]

theorem narrow_lt {limits : PeerLimits} {peer : PeerId} (issued : peer ≤ limits.maxPeers) : peer < 2 ^ 32 :=
  (issued.trans limits.globalNarrow).trans_lt (by decide)

omit [Codec F] in
theorem Attended.live (attended : Attended trace server []) (inv : Inv [] server) :
    ∀ key ∈ helloKeys server, ∃ addr, server.host.peerAddr key.toNat = some addr := by
  intro key remembered
  obtain ⟨peer, rfl, live | ⟨reason, waiting⟩⟩ := attended.keys key remembered
  · obtain ⟨addr, lives⟩ := Option.isSome_iff_exists.mp live
    rw [toNat_key (narrow_lt (peer_issued inv.hosted.indexed lives).2)]
    exact ⟨addr, lives⟩
  · cases waiting

theorem run_issued (run : Run db trace server pending) : ∀ event ∈ pending, event.peer < 2 ^ 32 := by
  induction run with
  | start opened => simp
  | poll now script run polled ih =>
      exact fun event member => narrow_lt (poll_issued run.inv.hosted.indexed polled event member)
  | handle moment run ih => exact fun event member => ih event (List.mem_cons_of_mem _ member)
  | tick tick run ih => exact ih

/-- The hello throttle learns of a peer by a hello of that peer alone. -/
theorem stage_helloKeys {earlier : List Event} (run : Run db trace stage.before earlier) (lawful : stage.Lawful)
    (next : ∀ moment event, stage.action = .handle moment event → earlier = event :: pending)
    (small : peer < 2 ^ 32) (silent : ∀ moment, ¬ SaysHello stage peer moment)
    (unknown : UInt64.ofNat peer ∉ helloKeys stage.before) : UInt64.ofNat peer ∉ helloKeys stage.after := by
  obtain ⟨before, action, after⟩ := stage
  cases action with
  | poll now script =>
      obtain ⟨state, -, same⟩ := lawful
      replace same : after = { before with host := state.host } := same
      subst same
      exact unknown
  | handle moment event =>
      replace lawful : after = (before.handleEvent moment event).1 := lawful
      have waiting := next moment event rfl
      subst waiting
      have passage := effect_passage (handleEvent_effect run.inv moment event)
      have other : ∀ {speaker bytes hello}, event = .data speaker bytes →
          Codec.decode (F := F) bytes = some (.hello hello) → UInt64.ofNat peer ≠ UInt64.ofNat speaker := by
        rintro speaker bytes hello rfl decoded same
        have bounded : speaker < 2 ^ 32 := run_issued run _ List.mem_cons_self
        have equal := ofNat_injective small bounded same
        exact silent moment ⟨bytes, hello, by rw [equal], decoded⟩
      rw [← lawful] at passage
      cases passage with
      | quiet _ host keys => exact keys ▸ unknown
      | left reason host keys => exact keys ▸ fun member => unknown (Finset.mem_of_mem_erase member)
      | greeted decoded host keys =>
          exact fun member => (Finset.mem_insert.mp (keys member)).elim (other rfl decoded) unknown
      | tookOver decoded prior located addrs keys =>
          exact fun member => (Finset.mem_insert.mp (Finset.mem_of_mem_erase (keys member))).elim
            (other rfl decoded) unknown
  | tick tick =>
      replace lawful : after = tick.run before := lawful
      subst lawful
      have gates := (tick_gates before tick).1
      simp only [gateView, Prod.mk.injEq] at gates
      show _ ∉ (tick.run before).helloLimiter.last.keys
      rw [gates.2.2.2.1]
      exact unknown

/-- A peer the transport did not have at some poll is not remembered until its first hello. -/
theorem run_unremembered {early middle : List (Stage F)} {polled : Stage F}
    (run : Run db (early ++ polled :: middle) server pending) (punctual : Punctual early) (polls : Polls polled)
    (offline : polled.before.host.peerAddr peer = none) (small : peer < 2 ^ 32)
    (silent : ∀ stage ∈ middle, ∀ moment, ¬ SaysHello stage peer moment) :
    UInt64.ofNat peer ∉ helloKeys server := by
  induction middle using List.reverseRecOn generalizing server pending with
  | nil =>
      obtain ⟨earlier, before, lawful, rfl, idle, next⟩ := Run.unsnoc_pending run
      obtain ⟨now, script, action⟩ := polls
      have settled := idle now script action
      subst settled
      have unsaid : ∀ moment, ¬ SaysHello polled peer moment := by
        rintro moment ⟨bytes, hello, handled, -⟩
        rw [action] at handled
        cases handled
      refine stage_helloKeys before lawful next small unsaid fun remembered => ?_
      obtain ⟨addr, lives⟩ := (run_attended before punctual).live before.inv _ remembered
      rw [toNat_key small, offline] at lives
      cases lives
  | append_singleton middle last ih =>
      rw [← List.cons_append, ← List.append_assoc] at run
      obtain ⟨earlier, before, lawful, rfl, idle, next⟩ := Run.unsnoc_pending run
      refine stage_helloKeys before lawful next small (silent last (by simp)) (ih before ?_)
      exact fun stage member => silent stage (List.mem_append_left _ member)

/-- In every run that handles no hello of a peer evicted earlier in the batch: at the end of a batch the hello
throttle remembers live peers only; at any time the others remember players with a session only; and the first
hello of a peer since a poll found it offline is never throttled. -/
theorem limiter_keys_follow_connections (run : Run db trace server pending) (punctual : Punctual trace) :
    (pending = [] → ∀ key ∈ helloKeys server, ∃ addr, server.host.peerAddr key.toNat = some addr) ∧
    (∀ player ∈ playerKeys server, ∃ peer session, server.sessions.get? peer = some session ∧
      session.playerId = player) ∧
    ∀ early polled middle last later peer moment, trace = early ++ polled :: (middle ++ last :: later) →
      Polls polled → polled.before.host.peerAddr peer = none →
      (∀ stage ∈ middle, ∀ time, ¬ SaysHello stage peer time) → SaysHello last peer moment →
      (last.before.helloLimiter.allow (UInt64.ofNat peer) moment.admissionMs).2 = true := by
  refine ⟨?_, ?_, ?_⟩
  · rintro rfl
    exact (run_attended run punctual).live run.inv
  · intro player remembered
    obtain ⟨peer, owner⟩ := Option.isSome_iff_exists.mp (reachable_claimed run.reachable player remembered)
    exact ⟨peer, (run.inv.agree.owner_iff player peer).mp owner⟩
  · rintro early polled middle last later peer moment rfl polls offline silent ⟨bytes, hello, handled, decoded⟩
    have whole := run
    rw [← List.cons_append, ← List.append_assoc] at whole
    obtain ⟨rest, shorter⟩ := whole.upto
    obtain ⟨earlier, before, -, -, -, next⟩ := shorter.unsnoc_pending
    have small : peer < 2 ^ 32 := run_issued before (.data peer bytes) (by
      rw [next moment _ handled]
      exact List.mem_cons_self)
    have unknown := run_unremembered before punctual.before polls offline small silent
    exact allow_fresh ((FiniteMap.not_mem_keys _ _).mp unknown) _

theorem punctual_of_unevicted (unevicted : ∀ stage ∈ trace, ∀ peer moment, SaysHello stage peer moment →
    ∀ other ∈ trace, ¬ Evicts other peer) : Punctual trace := by
  rintro early stage later rfl peer moment spoken ⟨past, evicting, middle, rfl, evicts, -⟩
  exact unevicted stage (by simp) peer moment spoken evicting (by simp) evicts

end Runs

theorem joinStages_punctual : Punctual joinStages := by
  have live : ∀ server ∈ [boardedServer, greetedServer, joinedServer], ∀ peer ∈ [1, 2],
      (server.host.peerAddr peer).isSome := by
    decide +kernel
  have named : ∀ stage ∈ joinStages, ∀ moment event, stage.action = .handle moment event →
      event.peer ∈ [1, 2] ∧ stage.after ∈ [boardedServer, greetedServer, joinedServer] := by
    intro stage member moment event handled
    simp only [joinStages, List.mem_cons, List.not_mem_nil, or_false] at member
    rcases member with rfl | rfl | rfl | rfl | rfl <;> cases handled <;> simp [Event.peer]
  refine punctual_of_unevicted ?_
  rintro stage member peer moment ⟨bytes, hello, handled, -⟩ other present ⟨⟨time, event, done⟩, -, gone⟩
  have speaker := (named stage member moment _ handled).1
  have still := live _ (named other present time event done).2 peer speaker
  rw [gone] at still
  cases still

/-- Both clients are remembered, and both are live. -/
theorem limiter_keys_follow_joined :
    helloKeys joinedServer = {1, 2} ∧ ∀ key ∈ helloKeys joinedServer,
      ∃ addr, joinedServer.host.peerAddr key.toNat = some addr := by
  refine ⟨by decide +kernel, ?_⟩
  exact (limiter_keys_follow_connections joinStages_run joinStages_punctual).1 rfl

/-! A take-over with a hello of the evicted peer behind it. -/
section Stale

/-- One poll, and all its events handled at one moment. -/
def batch (server : Server Int) (script : List SocketTurn) (moment : Moment) : Server Int :=
  match server.host.pollWithWork 0 script with
  | .error _ => server
  | .ok state =>
    (state.events.map Prod.fst).foldl (fun server event => (server.handleEvent moment event).1)
      { server with host := state.host }

theorem batch_reached {db : Db Int} {server : Server Int} (reached : Reachable db server [])
    (script : List SocketTurn) (moment : Moment) : Reachable db (batch server script moment) [] := by
  have handled : ∀ (pending : List Event) (server : Server Int), Reachable db server pending →
      Reachable db (pending.foldl (fun server event => (server.handleEvent moment event).1) server) [] := by
    intro pending
    induction pending with
    | nil => exact fun _ reached => reached
    | cons event rest ih => exact fun _ reached => ih _ (.handle moment reached)
  obtain ⟨state, polled, -⟩ := pollWithWork_advances reached.inv.hosted.indexed 0 script
  unfold batch
  rw [polled]
  exact handled _ _ (.poll 0 script reached polled)

def pairConfig : ValidConfig Int :=
  { Config.default 1024 with maxTransportPeers := 2, maxTransportPeersPerIp := 2, valid := rfl }

def connectFrom (ip : UInt32) : SocketTurn :=
  datagramFrom ip (WireProtocol.buildConnectRequest 0 7 0 16 (WireProtocol.writeLitenetString "sailwind-online"))

/-- Peer 2 says the hello of peer 1, which is evicted; its own next hello comes right behind. -/
def tookOverServer : Server Int :=
  batch (batch (Server.opened pairConfig emptyDb FiniteMap.empty 0 0)
    [connectFrom 1, connectFrom 2, datagramFrom 1 [0, 1]] (calmAt 1000))
    [datagramFrom 2 [0, 1], datagramFrom 1 [0, 1]] (calmAt 2000)

theorem tookOverServer_reached : Reachable emptyDb tookOverServer [] := by
  have opened : Server.new pairConfig emptyDb 0 0 = .ok (Server.opened pairConfig emptyDb FiniteMap.empty 0 0) := rfl
  exact batch_reached (batch_reached (.start opened) _ _) _ _

/-- The next client gets the id of the evicted peer, and its first hello is dropped. -/
theorem evicted_peer_remembered :
    (Reachable emptyDb tookOverServer [] ∧ 1 ∈ helloKeys tookOverServer ∧ tookOverServer.host.peerAddr 1 = none) ∧
      ∃ host, Reachable emptyDb { tookOverServer with host } [.connected 1, .data 1 [2]] ∧
        (host.peerAddr 1).isSome ∧ (tookOverServer.helloLimiter.allow 1 2100).2 = false := by
  refine ⟨⟨tookOverServer_reached, by decide +kernel, by decide +kernel⟩, ?_⟩
  obtain ⟨state, polled, -⟩ := pollWithWork_advances tookOverServer_reached.inv.hosted.indexed 0
    [connectFrom 3, datagramFrom 3 [0, 2]]
  have seen : (tookOverServer.host.pollWithWork 0 [connectFrom 3, datagramFrom 3 [0, 2]]).toOption.map
      (fun state => (state.events.map Prod.fst, (state.host.peerAddr 1).isSome)) =
        some ([.connected 1, .data 1 [2]], true) := by
    decide +kernel
  rw [polled] at seen
  obtain ⟨raised, live⟩ := Prod.ext_iff.mp (Option.some.inj seen)
  have waiting := Reachable.poll 0 _ tookOverServer_reached polled
  rw [show state.events.map Prod.fst = _ from raised] at waiting
  exact ⟨state.host, waiting, live, by decide +kernel⟩

end Stale
end SailwindOnline.LimiterKeys
