import Mathlib.Order.Interval.Finset.Nat
import SailwindOnline.SessionIndex

/-!
Runs of the server over its transport: polls, the events of each batch handled
one by one under arbitrary clocks and disk failures, and tick work at any
moment. In every reachable state the session indices agree, and a session
outlives its transport peer only while that peer's `Disconnected` event waits
in the batch.
-/

namespace SailwindOnline.SessionRuns
open World (Cell)
open Server SessionIndex HostIndex HostPoll

section Lifecycle
variable {F : Type} [Platform F] {stray : UInt64 → Prop} {server : Server F} {peer : PeerId}

theorem agree_mono {wider : UInt64 → Prop} (agree : SessionsAgree stray server)
    (within : ∀ player, stray player → wider player) : SessionsAgree wider server :=
  ⟨agree.owner_iff, agree.order, agree.recipients, agree.scheduled, agree.coherent,
    fun player known => (agree.placed player known).imp_right (within player), agree.cells⟩

theorem owner_of (agree : SessionsAgree stray server) {session : Session F}
    (found : server.sessions.get? peer = some session) :
    server.playerPeers.get? session.playerId = some peer :=
  (agree.owner_iff _ _).mpr ⟨session, found, rfl⟩

/-- What dropping the session of `peer` leaves behind. -/
structure Unregistered (server : Server F) (peer : PeerId) (session : Session F) (after : Server F) :
    Prop where
  agree : SessionsAgree (· = session.playerId) after
  cfg : after.cfg = server.cfg
  host : after.host = server.host
  world : after.world = server.world
  sessions : after.sessions = server.sessions.erase peer
  unowned : after.playerPeers.get? session.playerId = none

theorem unregisterSession_spec (agree : SessionsAgree noStray server) {session : Session F}
    (found : server.sessions.get? peer = some session) :
    ∃ after, server.unregisterSession peer = (after, some session) ∧
      Unregistered server peer session after := by
  have owned := owner_of agree found
  unfold unregisterSession
  simp only [found, owned, if_true]
  -- The player stays placed in the world, which is why it is the one stray entity afterwards.
  refine ⟨_, rfl, ⟨?_, ?_, ?_, ?_, ?_, ?_, ?_⟩, rfl, rfl, rfl, rfl, ?_⟩
  · intro player other
    simp only [FiniteMap.get?_erase]
    by_cases own : player = session.playerId
    · subst own
      simp only [if_true]
      constructor
      · intro impossible
        cases impossible
      · rintro ⟨held, present, same⟩
        split at present <;> rename_i apart
        · cases present
        · have again := (agree.owner_iff _ _).mpr ⟨held, present, same⟩
          rw [owned, Option.some.injEq] at again
          exact absurd again.symm apart
    · simp only [own, if_false, agree.owner_iff]
      by_cases here : other = peer
      · subst here
        simp [found, Ne.symm own]
      · simp [here]
  · simp [agree.order]
  · simp [agree.recipients]
  · simp only [FiniteMap.keys_erase]
    exact Finset.erase_subset_erase _ agree.scheduled
  · exact agree.coherent
  · intro player known
    rcases agree.placed player known with present | impossible
    · by_cases own : player = session.playerId
      · exact Or.inr own
      · exact Or.inl (by simpa [FiniteMap.get?_erase, own] using present)
    · exact impossible.elim
  · intro other held present
    simp only [FiniteMap.get?_erase] at present
    split at present
    · cases present
    · exact agree.cells other held present
  · simp

theorem insertSession_agree (agree : SessionsAgree stray server) {session : Session F}
    (vacant : server.sessions.get? peer = none)
    (unowned : server.playerPeers.get? session.playerId = none)
    (alone : ∀ player, stray player → player = session.playerId)
    (placed : ∃ cell, session.cell = some cell ∧
      server.world.cellOf.get? session.playerId = some cell ∧ session.sub.center = some cell) :
    SessionsAgree noStray (server.insertSession peer session) where
  owner_iff := by
    intro player other
    simp only [insertSession, FiniteMap.get?_insert]
    by_cases own : player = session.playerId
    · subst own
      by_cases here : other = peer
      · simp [here]
      · simp only [here, if_true, if_false, Option.some.injEq, Ne.symm here, false_iff]
        rintro ⟨held, present, same⟩
        have known := (agree.owner_iff _ _).mpr ⟨held, present, same⟩
        rw [unowned] at known
        cases known
    · simp only [own, if_false, agree.owner_iff]
      by_cases here : other = peer
      · subst here
        simp [vacant, Ne.symm own]
      · simp [here]
  order := by
    simp [insertSession, agree.order]
  recipients := by
    simp [insertSession, agree.recipients]
  scheduled := by
    simp only [insertSession, FiniteMap.keys_insert]
    exact agree.scheduled.trans (Finset.subset_insert _ _)
  coherent := agree.coherent
  placed := by
    intro player known
    left
    simp only [insertSession, FiniteMap.get?_insert]
    by_cases own : player = session.playerId
    · simp [own]
    · rcases agree.placed player known with present | lost
      · simpa [own] using present
      · exact absurd (alone player lost) own
  cells := by
    intro other held present
    simp only [insertSession, FiniteMap.get?_insert] at present
    split at present
    · cases present
      exact placed
    · exact agree.cells other held present

omit [Platform F] in
/-- Renumbering changes generations alone. -/
theorem rekeyedSessions_view {View : Type} (view : Session F → View)
    (blind : ∀ session generation, view { session with generation } = view session)
    (sessions : FiniteMap PeerId (Session F)) (peer : PeerId) :
    ((rekeyedSessions sessions).get? peer).map view = (sessions.get? peer).map view := by
  unfold rekeyedSessions
  generalize (OrderedSet.ascending sessions.keys).zipIdx = entries
  induction entries generalizing sessions with
  | nil => rfl
  | cons entry rest ih =>
      rw [List.foldl_cons, ih, FiniteMap.get?_modify]
      split <;> rename_i own
      · rw [own, Option.map_map]
        congr 1
        funext session
        exact blind session _
      · rfl

theorem keeps_rekeyLiveSessionGenerations (server : Server F) :
    KeepsIndex server server.rekeyLiveSessionGenerations.1 := by
  unfold rekeyLiveSessionGenerations
  split
  · exact .refl server
  · exact ⟨rfl, rfl, rfl, rfl, rfl, rfl, Finset.subset_union_left,
      rekeyedSessions_view placeOf (fun _ _ => rfl) server.sessions, .refl _⟩

theorem rekeyLiveSessionGenerations_spec (fits : server.sessions.size ≤ server.cfg.maxTransportPeersUsize) :
    ∃ after, server.rekeyLiveSessionGenerations = (after, .ok ()) ∧
      after.nextSessionGeneration ≠ maxU64 := by
  unfold rekeyLiveSessionGenerations
  rw [if_neg (by omega)]
  refine ⟨_, rfl, ?_⟩
  have few : server.sessions.size ≤ 1024 := fits.trans (by
    simp only [Config.maxTransportPeersUsize, clampNat, maxTransportPeersCeiling]
    omega)
  intro same
  have wide := congrArg UInt64.toNat same
  simp only [maxU64, UInt64.toNat_ofNat', invalidateFanoutJobs] at wide
  omega

theorem keeps_allocateSessionGeneration (server : Server F) :
    KeepsIndex server server.allocateSessionGeneration.1 := by
  have rekeyed := keeps_rekeyLiveSessionGenerations server
  unfold allocateSessionGeneration
  by_cases spent : server.nextSessionGeneration = maxU64
  · simp only [spent, if_true]
    split <;> rename_i numbering
    · rw [numbering] at rekeyed
      exact rekeyed
    · rw [numbering] at rekeyed
      split
      · exact rekeyed
      · exact rekeyed.trans (.of_sessions_eq rfl rfl)
  · simp only [spent, if_false]
    exact .of_sessions_eq rfl rfl

theorem allocateSessionGeneration_spec (fits : server.sessions.size ≤ server.cfg.maxTransportPeersUsize) :
    ∃ after generation, server.allocateSessionGeneration = (after, .ok generation) := by
  unfold allocateSessionGeneration
  by_cases spent : server.nextSessionGeneration = maxU64
  · obtain ⟨rekeyed, done, ready⟩ := rekeyLiveSessionGenerations_spec fits
    simp only [spent, if_true, done, ready, if_false]
    exact ⟨_, _, rfl⟩
  · simp only [spent, if_false]
    exact ⟨_, _, rfl⟩

/-- Everything a registration needs holds where a hello registers, so it succeeds. -/
theorem registerSession_spec (session : Session F) (agree : SessionsAgree stray server)
    (fits : server.sessions.size ≤ server.cfg.maxTransportPeersUsize)
    (vacant : server.sessions.get? peer = none)
    (unowned : server.playerPeers.get? session.playerId = none)
    (alone : ∀ player, stray player → player = session.playerId)
    (placed : ∃ cell, session.cell = some cell ∧
      server.world.cellOf.get? session.playerId = some cell ∧ session.sub.center = some cell) :
    ∃ after, server.registerSession peer session = (after, .ok ()) ∧ SessionsAgree noStray after ∧
      after.cfg = server.cfg ∧ after.host = server.host ∧
      after.sessions.keys = insert peer server.sessions.keys := by
  obtain ⟨numbered, generation, done⟩ := allocateSessionGeneration_spec fits
  have keeps := keeps_allocateSessionGeneration server
  rw [done] at keeps
  unfold registerSession
  simp only [vacant, unowned, done, Option.isSome_none, Bool.false_eq_true, if_false]
  have empty : numbered.sessions.get? peer = none := by
    have same := keeps.places peer
    rwa [vacant, Option.map_none, Option.map_eq_none_iff] at same
  have inserted : SessionsAgree noStray (numbered.insertSession peer { session with generation }) := by
    refine insertSession_agree (keeps.agree agree) empty ?_ alone ?_
    · rw [keeps.owners]
      exact unowned
    · rw [keeps.world]
      exact placed
  have scheduled := KeepsIndex.scheduleAoi (numbered.insertSession peer { session with generation }) peer
  refine ⟨_, rfl, scheduled.agree inserted, scheduled.cfg.trans keeps.cfg,
    scheduled.host.trans keeps.host, ?_⟩
  rw [scheduled.keys_eq, ← keeps.keys_eq]
  simp [insertSession]

end Lifecycle

/-! Sessions and the transport. -/
section Transport
variable {F : Type} [Platform F] {pending : List Event} {server : Server F} {peer : PeerId}

structure Hosted (pending : List Event) (server : Server F) : Prop where
  indexed : Indexed server.host
  limits : server.host.limits = ValidConfig.hostLimits server.cfg.toConfig
  issued : ∀ peer ∈ server.sessions.keys, 0 < peer ∧ peer ≤ server.cfg.maxTransportPeersUsize
  live : ∀ peer ∈ server.sessions.keys, (server.host.peerAddr peer).isSome ∨
    ∃ reason, Event.disconnected peer reason ∈ pending

structure Inv (pending : List Event) (server : Server F) : Prop where
  agree : SessionsAgree noStray server
  hosted : Hosted pending server

theorem hosted_of_keeps {after : Server F} (keeps : KeepsIndex server after)
    (hosted : Hosted pending server) : Hosted pending after where
  indexed := keeps.host ▸ hosted.indexed
  limits := by
    rw [keeps.host, keeps.cfg]
    exact hosted.limits
  issued := by
    rw [keeps.keys_eq, keeps.cfg]
    exact hosted.issued
  live := by
    rw [keeps.keys_eq, keeps.host]
    exact hosted.live

theorem Inv.keeps {after : Server F} (inv : Inv pending server) (keeps : KeepsIndex server after) :
    Inv pending after :=
  ⟨keeps.agree inv.agree, hosted_of_keeps keeps inv.hosted⟩

/-- No index reads the tables. -/
theorem Inv.withDb (inv : Inv pending server) (db : Persistence.Db F) : Inv pending { server with db } :=
  ⟨⟨inv.agree.owner_iff, inv.agree.order, inv.agree.recipients, inv.agree.scheduled, inv.agree.coherent,
    inv.agree.placed, inv.agree.cells⟩,
    ⟨inv.hosted.indexed, inv.hosted.limits, inv.hosted.issued, inv.hosted.live⟩⟩

theorem Hosted.size_le (hosted : Hosted pending server) :
    server.sessions.size ≤ server.cfg.maxTransportPeersUsize := by
  have within : server.sessions.keys ⊆ Finset.Icc 1 server.cfg.maxTransportPeersUsize := by
    intro peer member
    obtain ⟨positive, bounded⟩ := hosted.issued peer member
    exact Finset.mem_Icc.mpr ⟨positive, bounded⟩
  have counted := Finset.card_le_card within
  simpa [FiniteMap.size] using counted

/-- A live peer id is one more than a slot below the transport's ceiling. -/
theorem peer_issued {host : Host} (indexed : Indexed host) {addr : SocketAddr}
    (live : host.peerAddr peer = some addr) : 0 < peer ∧ peer ≤ host.limits.maxPeers := by
  cases peer with
  | zero =>
      rw [peerAddr_zero] at live
      cases live
  | succ slot =>
      rw [indexed.peerAddr_succ] at live
      have inside := SlotPool.lt_of_holder live
      exact ⟨Nat.succ_pos slot, Nat.lt_of_lt_of_le inside indexed.formed.bounded⟩

theorem disconnect_spec {host : Host} (indexed : Indexed host) {addr : SocketAddr}
    (live : host.peerAddr peer = some addr) :
    ∃ after notice, host.disconnect peer = .ok (after, some notice) ∧ Indexed after ∧
      after.limits = host.limits ∧
      ∀ other, after.peerAddr other = if other = peer then none else host.peerAddr other := by
  obtain ⟨found, present, identity⟩ := peer_of_peerAddr live
  obtain ⟨after, done, removed⟩ := removePeerAt_spec indexed present
  refine ⟨after, _, by simp [Host.disconnect, live, done]; rfl, removed.indexed, removed.limits, ?_⟩
  intro other
  have moved : after.peerAddr = Function.update host.peerAddr peer none := by
    have tables := congrArg Incarnations.Table.live removed.table_eq
    rwa [identity] at tables
  rw [moved, Function.update_apply]

end Transport

/-! Handlers. -/
section Handlers
variable {F : Type} [Platform F] {pending : List Event} {server : Server F} {peer : PeerId}

/-- The errors only a registration returns. -/
def fromRegistration : ServerError → Bool
  | .peerOwnsSession | .playerOwnsSession _ | .sessionCountExceedsLimit | .generationExhausted => true
  | _ => false

structure Sound (pending : List Event) (handled : Handled F) : Prop where
  inv : Inv pending handled.1
  registered : ∀ failure, handled.2 = .error failure → fromRegistration failure = false

theorem sound_ok {after : Server F} (inv : Inv pending after) : Sound pending (after, .ok ()) :=
  ⟨inv, by simp⟩

theorem sound_error {after : Server F} {failure : ServerError} (inv : Inv pending after)
    (other : fromRegistration failure = false) : Sound pending (after, .error failure) :=
  ⟨inv, by simpa using other⟩

theorem sound_keeps {after : Server F} (inv : Inv pending server) (keeps : KeepsIndex server after) :
    Sound pending (after, .ok ()) :=
  sound_ok (inv.keeps keeps)

theorem sound_rejectHello (inv : Inv pending server) (moment : Moment) (reason : String) :
    Sound pending (server.rejectHello moment peer reason) :=
  sound_keeps inv (.post _ _ _)

/-- The state in which a hello may register `player` on `peer`. -/
structure Joinable (pending : List Event) (player : UInt64) (peer : PeerId) (server : Server F) : Prop where
  agree : SessionsAgree (· = player) server
  hosted : Hosted pending server
  vacant : server.sessions.get? peer = none
  unowned : server.playerPeers.get? player = none
  live : (server.host.peerAddr peer).isSome

theorem evictTransport_spec (hosted : Hosted pending server) (prior : PeerId) :
    ∃ host, server.evictTransport prior = ({ server with host }, .ok ()) ∧ Indexed host ∧
      host.limits = server.host.limits ∧
      ∀ other, other ≠ prior → host.peerAddr other = server.host.peerAddr other := by
  unfold evictTransport
  cases live : server.host.peerAddr prior with
  | none => exact ⟨server.host, rfl, hosted.indexed, rfl, fun _ _ => rfl⟩
  | some addr =>
      obtain ⟨after, notice, done, indexed, limits, moved⟩ := disconnect_spec hosted.indexed live
      refine ⟨after, by simp [done], indexed, limits, ?_⟩
      intro other apart
      rw [moved, if_neg apart]

theorem supersede_spec (inv : Inv pending server) (player : UInt64)
    (vacant : server.sessions.get? peer = none) (live : (server.host.peerAddr peer).isSome) :
    ∃ after, server.supersede peer player = (after, .ok ()) ∧ Joinable pending player peer after := by
  unfold supersede
  cases owner : server.playerPeers.get? player with
  | none =>
      exact ⟨server, rfl, agree_mono inv.agree (fun _ impossible => impossible.elim), inv.hosted, vacant,
        owner, live⟩
  | some prior =>
      obtain ⟨session, found, rfl⟩ := (inv.agree.owner_iff player prior).mp owner
      have apart : peer ≠ prior := by
        rintro rfl
        rw [vacant] at found
        cases found
      obtain ⟨host, evicted, indexed, limits, others⟩ := evictTransport_spec inv.hosted prior
      simp only [Ne.symm apart, if_false, evicted]
      -- The indices do not mention the transport, so they still agree after the eviction.
      have agree : SessionsAgree noStray { server with host } :=
        ⟨inv.agree.owner_iff, inv.agree.order, inv.agree.recipients, inv.agree.scheduled,
          inv.agree.coherent, inv.agree.placed, inv.agree.cells⟩
      obtain ⟨dropped, done, outcome⟩ := unregisterSession_spec agree found
      rw [done]
      have cleared : KeepsIndex dropped
          { dropped with helloLimiter := dropped.helloLimiter.clear (UInt64.ofNat prior) } :=
        .of_sessions_eq rfl rfl
      have host_eq : dropped.host = host := outcome.host
      have remaining : ∀ other ∈ dropped.sessions.keys, other ≠ prior ∧ other ∈ server.sessions.keys := by
        intro other member
        rw [outcome.sessions, FiniteMap.keys_erase, Finset.mem_erase] at member
        exact member
      have hosted : Hosted pending dropped := by
        refine ⟨host_eq ▸ indexed, ?_, ?_, ?_⟩
        · rw [host_eq, outcome.cfg, limits]
          exact inv.hosted.limits
        · intro other member
          rw [outcome.cfg]
          exact inv.hosted.issued other (remaining other member).2
        · intro other member
          rw [host_eq, others other (remaining other member).1]
          exact inv.hosted.live other (remaining other member).2
      refine ⟨_, rfl, cleared.agree outcome.agree, hosted_of_keeps cleared hosted, ?_, outcome.unowned, ?_⟩
      · show dropped.sessions.get? peer = none
        rw [outcome.sessions, FiniteMap.get?_erase, if_neg apart]
        exact vacant
      · show (dropped.host.peerAddr peer).isSome
        rw [host_eq, others peer apart]
        exact live

theorem openSession_spec {player : UInt64} (agree : SessionsAgree (· = player) server)
    (fits : server.sessions.size ≤ server.cfg.maxTransportPeersUsize)
    (vacant : server.sessions.get? peer = none) (unowned : server.playerPeers.get? player = none)
    (moment : Moment) (identityHash name : String) (gold : Int64) :
    ∃ after, server.openSession moment peer player identityHash name gold = (after, .ok ()) ∧
      SessionsAgree noStray after ∧ after.cfg = server.cfg ∧ after.host = server.host ∧
      after.sessions.keys = insert peer server.sessions.keys := by
  have origin_eq : ∀ cell, (server.world.placeInCell player cell).cellOf.get? player = some cell := by
    intro cell
    rw [World.cellOf_placeInCell, if_pos rfl]
  have placed : ∀ cell, SessionsAgree (· = player)
      { server with world := server.world.placeInCell player cell } := by
    intro cell
    refine ⟨agree.owner_iff, agree.order, agree.recipients, agree.scheduled,
      agree.coherent.placeInCell player cell, ?_, ?_⟩
    · intro other known
      simp only [World.cellOf_placeInCell] at known
      by_cases own : other = player
      · exact Or.inr own
      · rw [if_neg own] at known
        exact agree.placed other known
    · intro other session found
      have apart : session.playerId ≠ player := by
        rintro rfl
        have owned := owner_of agree found
        rw [unowned] at owned
        cases owned
      simp only [World.cellOf_placeInCell, if_neg apart]
      exact agree.cells other session found
  unfold openSession
  simp only
  obtain ⟨after, done, agreed, cfg, host, keys⟩ := registerSession_spec
    (newSession player identityHash name
      (World.Subscription.recenter { radius := server.cfg.aoiRadiusI32 }
        (server.world.grid.cellOf Platform.zero Platform.zero)).1
      (server.world.grid.cellOf Platform.zero Platform.zero))
    (placed (server.world.grid.cellOf Platform.zero Platform.zero)) fits vacant unowned (fun _ own => own)
    ⟨server.world.grid.cellOf Platform.zero Platform.zero, rfl, origin_eq _,
      World.Subscription.center_recenter _ _⟩
  rw [done]
  have greeted : ∀ aoi, KeepsIndex after ((after.sendAcceptedHello moment peer player gold).emitAoi peer aoi) :=
    fun _ => .trans (.post _ _ _) (.emitAoi _ _ _)
  exact ⟨_, rfl, (greeted _).agree agreed, (greeted _).cfg.trans cfg, (greeted _).host.trans host,
    (greeted _).keys_eq.trans keys⟩

theorem openSession_sound {player : UInt64} (ready : Joinable pending player peer server) (moment : Moment)
    (identityHash name : String) (gold : Int64) :
    Sound pending (server.openSession moment peer player identityHash name gold) := by
  obtain ⟨after, done, agreed, cfg, host, keys⟩ := openSession_spec ready.agree ready.hosted.size_le
    ready.vacant ready.unowned moment identityHash name gold
  rw [done]
  have hosted : Hosted pending after := by
    refine ⟨host ▸ ready.hosted.indexed, ?_, ?_, ?_⟩
    · rw [host, cfg]
      exact ready.hosted.limits
    · intro other member
      rw [keys, Finset.mem_insert] at member
      rw [cfg]
      rcases member with rfl | earlier
      · obtain ⟨addr, live⟩ := Option.isSome_iff_exists.mp ready.live
        have issued := peer_issued ready.hosted.indexed live
        rw [ready.hosted.limits] at issued
        exact issued
      · exact ready.hosted.issued other earlier
    · intro other member
      rw [keys, Finset.mem_insert] at member
      rw [host]
      rcases member with rfl | earlier
      · exact Or.inl ready.live
      · exact ready.hosted.live other earlier
  exact sound_ok ⟨agreed, hosted⟩

theorem joinPlayer_sound (inv : Inv pending server) (vacant : server.sessions.get? peer = none)
    (live : (server.host.peerAddr peer).isSome) (moment : Moment) (player : UInt64)
    (identityHash name : String) (gold : Int64) :
    Sound pending (server.joinPlayer moment peer player identityHash name gold) := by
  obtain ⟨ready, done, joinable⟩ := supersede_spec inv player vacant live
  unfold joinPlayer
  rw [done]
  exact openSession_sound joinable moment identityHash name gold

theorem admitPlayer_sound (inv : Inv pending server) (vacant : server.sessions.get? peer = none)
    (live : (server.host.peerAddr peer).isSome) (moment : Moment) (identityHash name : String)
    (known : Option UInt64) :
    Sound pending (server.admitPlayer moment peer identityHash name known) := by
  have stored := inv.withDb
  unfold admitPlayer
  split
  · exact sound_error inv rfl
  · exact sound_rejectHello (stored _) moment _
  · rename_i player db _
    simp only
    split
    · exact sound_error (stored db) rfl
    · split
      · split
        · exact sound_error (stored db) rfl
        · exact joinPlayer_sound (stored db) vacant live moment _ _ _ _
      · split
        · exact sound_error (stored db) rfl
        · have entered : Inv pending
              { server with
                db
                identityPlayers := server.identityPlayers.insert identityHash player.id.toUInt64
                reconnectLimiter :=
                  (server.reconnectLimiter.allow player.id.toUInt64 moment.admissionMs).1 } :=
            (stored db).keeps (.of_sessions_eq rfl rfl)
          exact joinPlayer_sound entered vacant live moment _ _ _ _

theorem admitHello_sound (inv : Inv pending server) (vacant : server.sessions.get? peer = none)
    (live : (server.host.peerAddr peer).isSome) (moment : Moment) (identityHash name : String)
    (sourceIp : IpAddr) : Sound pending (server.admitHello moment peer identityHash name sourceIp) := by
  have charged : ∀ limiter, Inv pending { server with sourceSessionLimiter := limiter } := fun _ =>
    inv.keeps (.of_sessions_eq rfl rfl)
  unfold admitHello
  simp only
  split
  · exact sound_rejectHello (charged _) moment _
  · split
    · have paced : ∀ limiter, Inv pending
          { server with
            sourceSessionLimiter := (server.sourceSessionLimiter.allow sourceIp moment.admissionMs).1
            reconnectLimiter := limiter } := fun _ =>
        inv.keeps (.of_sessions_eq rfl rfl)
      split
      · exact sound_rejectHello (paced _) moment _
      · exact admitPlayer_sound (paced _) vacant live moment _ _ _
    · have paced : ∀ limiter, Inv pending
          { server with
            sourceSessionLimiter := (server.sourceSessionLimiter.allow sourceIp moment.admissionMs).1
            newSessionLimiter := limiter } := fun _ =>
        inv.keeps (.of_sessions_eq rfl rfl)
      split
      · exact sound_rejectHello (paced _) moment _
      · exact admitPlayer_sound (paced _) vacant live moment _ _ _

/-- A hello keeps the indices in agreement, and where it registers a session it succeeds. -/
theorem onHelloAt_sound (inv : Inv pending server) (moment : Moment) (hello : ClientHello) :
    Sound pending (server.onHelloAt moment peer hello) := by
  have charged : ∀ limiter, Inv pending { server with helloLimiter := limiter } := fun _ =>
    inv.keeps (.of_sessions_eq rfl rfl)
  unfold onHelloAt
  simp only
  split
  · exact sound_ok (charged _)
  split
  · exact sound_rejectHello (charged _) moment _
  split
  · exact sound_rejectHello (charged _) moment _
  split
  · unfold repeatHello
    split
    · exact sound_rejectHello (charged _) moment _
    · split
      · exact sound_error (charged _) rfl
      · exact sound_keeps (charged _) (.post _ _ _)
  · rename_i vacant
    split
    · exact sound_ok (charged _)
    · rename_i addr live
      exact admitHello_sound (charged (server.helloLimiter.allow (UInt64.ofNat peer) moment.admissionMs).1)
        vacant (by simp [live]) moment _ _ _

theorem onClientState_inv (inv : Inv pending server) (moment : Moment) (state : ClientState F) :
    Inv pending (server.onClientState moment peer state) := by
  unfold onClientState
  split
  · exact inv
  · rename_i session found
    have charged : ∀ limiter, Inv pending { server with clientStateLimiter := limiter } := fun _ =>
      inv.keeps (.of_sessions_eq rfl rfl)
    simp only
    split
    · exact charged _
    split
    · exact charged _
    · rename_i motion _
      refine Inv.keeps ?_ (.emitAoi _ _ _)
      have owned := owner_of inv.agree found
      have moved : ∀ other, (server.world.place session.playerId motion.pos.1 motion.pos.2.2).cellOf.get? other =
          if other = session.playerId then some (server.world.grid.cellOf motion.pos.1 motion.pos.2.2)
          else server.world.cellOf.get? other := fun other =>
        World.cellOf_placeInCell server.world session.playerId other _
      have keys : ∀ after, (server.sessions.insert peer after).keys = server.sessions.keys := by
        intro after
        rw [FiniteMap.keys_insert, Finset.insert_eq_of_mem]
        exact (FiniteMap.mem_keys_iff_exists _ _).mpr ⟨session, found⟩
      -- Only the mover's session and cell change, and they change together.
      refine ⟨⟨?_, inv.agree.order, ?_, ?_, inv.agree.coherent.placeInCell _ _, ?_, ?_⟩,
        ⟨inv.hosted.indexed, inv.hosted.limits, ?_, ?_⟩⟩
      · intro player other
        refine (inv.agree.owner_iff player other).trans ?_
        simp only [FiniteMap.get?_insert]
        by_cases here : other = peer
        · subst here
          simp [found, movedSession]
        · simp [here]
      · exact inv.agree.recipients.trans (keys _).symm
      · exact (keys _).symm ▸ inv.agree.scheduled
      · intro player known
        rw [moved] at known
        by_cases own : player = session.playerId
        · subst own
          exact Or.inl (by rw [owned]; rfl)
        · rw [if_neg own] at known
          exact inv.agree.placed player known
      · intro other held present
        simp only [FiniteMap.get?_insert] at present
        split at present
        · cases present
          refine ⟨server.world.grid.cellOf motion.pos.1 motion.pos.2.2, ?_, ?_, ?_⟩
          · simp [movedSession, World.cellOfEntity, moved]
          · simp [movedSession, moved]
          · simp [movedSession, World.cellOfEntity, moved]
        · rename_i apart
          have others : held.playerId ≠ session.playerId := by
            intro same
            have again := owner_of inv.agree present
            rw [same, owned, Option.some.injEq] at again
            exact apart again.symm
          rw [moved, if_neg others]
          exact inv.agree.cells other held present
      · intro other member
        exact inv.hosted.issued other (keys _ ▸ member)
      · intro other member
        exact inv.hosted.live other (keys _ ▸ member)

theorem onEcon_sound (inv : Inv pending server) (moment : Moment) (txn : EconTxn) :
    Sound pending (server.onEcon moment peer txn) := by
  have applied : ∀ (before : Server F) player request, Inv pending before →
      Sound pending (before.applyEcon moment peer player request) := by
    intro before player request holds
    unfold applyEcon
    split
    · exact sound_error (holds.withDb _) rfl
    · exact sound_keeps (holds.withDb _) (.post _ _ _)
  unfold onEcon
  split
  · exact sound_ok inv
  · simp only
    split
    · exact sound_ok inv
    split
    · exact sound_error inv rfl
    · exact applied _ _ _ inv
    · have charged : ∀ limiter, Inv pending { server with econLimiter := limiter } := fun _ =>
        inv.keeps (.of_sessions_eq rfl rfl)
      split
      · exact applied _ _ _ (charged _)
      · exact sound_ok (charged _)

theorem onTrade_sound (inv : Inv pending server) (moment : Moment) (request : MarketTradeRequest) :
    Sound pending (server.onTrade moment peer request) := by
  have applied : ∀ (before : Server F) trade, Inv pending before →
      Sound pending (before.applyTrade moment peer trade) := by
    intro before trade holds
    unfold applyTrade
    split
    · exact sound_error (holds.withDb _) rfl
    · exact sound_keeps (holds.withDb _) (.post _ _ _)
  unfold onTrade
  split
  · exact sound_ok inv
  · simp only
    split
    · exact sound_error inv rfl
    · exact applied _ _ inv
    · have charged : ∀ limiter, Inv pending { server with tradeLimiter := limiter } := fun _ =>
        inv.keeps (.of_sessions_eq rfl rfl)
      split
      · exact applied _ _ (charged _)
      · unfold throttleTrade
        split
        · exact sound_error (charged _) rfl
        · exact sound_keeps (charged _) (.post _ _ _)

theorem onMoor_keeps [Codec F] (server : Server F) (moment : Moment) (request : MoorRequest F) :
    KeepsIndex server (server.onMoor moment peer request).1 ∧
      ∀ failure, (server.onMoor moment peer request).2 = .error failure →
        fromRegistration failure = false := by
  have charged : ∀ limiter, KeepsIndex server { server with moorLimiter := limiter } := fun _ =>
    .of_sessions_eq rfl rfl
  unfold onMoor
  split
  · exact ⟨.refl server, by simp⟩
  · simp only
    split
    · exact ⟨.refl server, by simp⟩
    split
    · exact ⟨.postBounded _ _ _, by simp⟩
    split
    · exact ⟨charged _, by simp⟩
    split <;> rename_i stored
    · exact ⟨charged _, by rintro _ ⟨⟩; rfl⟩
    · cases Persistence.attempt_eq_ok stored
      refine ⟨KeepsIndex.trans ?_ (.post _ _ _), by simp⟩
      exact .of_accounts rfl (.upsertMooring _ _)

theorem keeps_queueChat [Codec F] (server : Server F) (envelope : Envelope F) (cell : Cell) :
    KeepsIndex server (server.queueChat envelope cell) := by
  have captured := keeps_captureFanoutRecipients server
  unfold queueChat
  split
  · exact .refl server
  · split <;> rename_i capturing
    · rw [capturing] at captured
      exact captured
    · rw [capturing] at captured
      exact captured.trans (.of_sessions_eq rfl rfl)

theorem keeps_onChat [Codec F] (server : Server F) (moment : Moment) (chat : ChatSend) :
    KeepsIndex server (server.onChat moment peer chat) := by
  unfold onChat
  split
  · exact .refl server
  split
  · exact .refl server
  simp only
  split
  · exact .refl server
  split
  · exact .refl server
  split
  · exact .of_sessions_eq rfl rfl
  · refine KeepsIndex.trans ?_ (keeps_queueChat _ _ _)
    exact .of_sessions_eq rfl rfl

theorem persistDeparture_keeps (server : Server F) (moment : Moment) (player : UInt64) :
    KeepsIndex server (server.persistDeparture moment player).1 ∧
      ∀ failure, (server.persistDeparture moment player).2 = .error failure →
        fromRegistration failure = false := by
  unfold persistDeparture
  simp only
  split <;> rename_i touched
  · exact ⟨.of_sessions_eq rfl rfl, by rintro _ ⟨⟩; rfl⟩
  · cases Persistence.attempt_eq_ok touched
    exact ⟨.of_accounts rfl (.touchLastSeen _ _ _), by simp⟩

/-- Once the departed player has left the world too, nothing stray is placed in it. -/
theorem removed_agree {session : Session F} {dropped : Server F}
    (outcome : Unregistered server peer session dropped) :
    SessionsAgree noStray { dropped with world := dropped.world.remove session.playerId } where
  owner_iff := outcome.agree.owner_iff
  order := outcome.agree.order
  recipients := outcome.agree.recipients
  scheduled := outcome.agree.scheduled
  coherent := outcome.agree.coherent.remove _
  placed := by
    intro player known
    simp only [World.cellOf_remove] at known
    split at known <;> rename_i own
    · cases known
    · rcases outcome.agree.placed player known with present | same
      · exact Or.inl present
      · exact absurd same own
  cells := by
    intro other held present
    have apart : held.playerId ≠ session.playerId := by
      intro same
      have owned := owner_of outcome.agree present
      rw [same, outcome.unowned] at owned
      cases owned
    simp only [World.cellOf_remove, if_neg apart]
    exact outcome.agree.cells other held present

/-- Handling a `Disconnected` event settles it: the peer's session goes, its player leaves the world. -/
theorem onDisconnect_sound {reason : DisconnectReason}
    (inv : Inv (.disconnected peer reason :: pending) server) (moment : Moment) :
    Sound pending (server.onDisconnect moment peer) := by
  have cleared : Inv (.disconnected peer reason :: pending)
      { server with helloLimiter := server.helloLimiter.clear (UInt64.ofNat peer) } :=
    inv.keeps (.of_sessions_eq rfl rfl)
  -- The handled event only ever stood for `peer`; every other stale session keeps its own event.
  have settle : ∀ other, other ≠ peer →
      (∃ why, Event.disconnected other why ∈ Event.disconnected peer reason :: pending) →
        ∃ why, Event.disconnected other why ∈ pending := by
    rintro other apart ⟨why, member⟩
    rcases List.mem_cons.mp member with head | later
    · cases head
      exact absurd rfl apart
    · exact ⟨why, later⟩
  unfold onDisconnect
  simp only
  cases found : server.sessions.get? peer with
  | none =>
      have absent : ({ server with helloLimiter := server.helloLimiter.clear (UInt64.ofNat peer) } :
          Server F).unregisterSession peer =
          ({ server with helloLimiter := server.helloLimiter.clear (UInt64.ofNat peer) }, none) := by
        simp [unregisterSession, found]
      rw [absent]
      refine sound_ok ⟨cleared.agree, cleared.hosted.indexed, cleared.hosted.limits,
        cleared.hosted.issued, ?_⟩
      intro other member
      refine (cleared.hosted.live other member).imp_right (settle other ?_)
      rintro rfl
      exact (FiniteMap.not_mem_keys _ _).mpr found member
  | some session =>
      obtain ⟨dropped, done, outcome⟩ := unregisterSession_spec cleared.agree found
      rw [done]
      have agree := removed_agree outcome
      have remaining : ∀ other ∈ dropped.sessions.keys, other ≠ peer ∧ other ∈ server.sessions.keys := by
        intro other member
        rw [outcome.sessions, FiniteMap.keys_erase, Finset.mem_erase] at member
        exact member
      have hosted : Hosted pending { dropped with world := dropped.world.remove session.playerId } := by
        refine ⟨?_, ?_, ?_, ?_⟩
        · show Indexed dropped.host
          rw [outcome.host]
          exact cleared.hosted.indexed
        · show dropped.host.limits = ValidConfig.hostLimits dropped.cfg.toConfig
          rw [outcome.host, outcome.cfg]
          exact cleared.hosted.limits
        · intro other member
          show 0 < other ∧ other ≤ dropped.cfg.maxTransportPeersUsize
          rw [outcome.cfg]
          exact cleared.hosted.issued other (remaining other member).2
        · intro other member
          show (dropped.host.peerAddr other).isSome ∨ _
          rw [outcome.host]
          exact (cleared.hosted.live other (remaining other member).2).imp_right
            (settle other (remaining other member).1)
      have departed := persistDeparture_keeps
        (clearPlayerLimiters { dropped with world := dropped.world.remove session.playerId } session.playerId)
        moment session.playerId
      refine ⟨Inv.keeps ⟨agree, hosted⟩ (KeepsIndex.trans ?_ departed.1), departed.2⟩
      exact .of_sessions_eq rfl rfl

theorem hosted_next {event : Event} (other : ∀ peer reason, event ≠ .disconnected peer reason)
    (inv : Inv (event :: pending) server) : Inv pending server := by
  refine ⟨inv.agree, inv.hosted.indexed, inv.hosted.limits, inv.hosted.issued, ?_⟩
  intro peer member
  refine (inv.hosted.live peer member).imp_right ?_
  rintro ⟨reason, waiting⟩
  rcases List.mem_cons.mp waiting with head | later
  · exact absurd head.symm (other peer reason)
  · exact ⟨reason, later⟩

theorem handleDataAt_sound [Codec F] (inv : Inv pending server) (moment : Moment)
    (bytes : WireProtocol.Bytes) : Sound pending (server.handleDataAt moment peer bytes) := by
  unfold handleDataAt
  split
  · exact sound_ok inv
  · exact onHelloAt_sound inv moment _
  · exact sound_ok (onClientState_inv inv moment _)
  · exact onEcon_sound inv moment _
  · exact onTrade_sound inv moment _
  · exact ⟨inv.keeps (onMoor_keeps server moment _).1, (onMoor_keeps server moment _).2⟩
  · exact sound_keeps inv (keeps_onChat server moment _)

theorem handleEvent_sound [Codec F] {event : Event} (inv : Inv (event :: pending) server) (moment : Moment) :
    Sound pending (server.handleEvent moment event) := by
  cases event with
  | connected peer => exact sound_ok (hosted_next (by simp) inv)
  | data peer bytes => exact handleDataAt_sound (hosted_next (by simp) inv) moment bytes
  | disconnected peer reason => exact onDisconnect_sound inv moment

end Handlers

/-! Runs. -/
section Runs
variable {F : Type} [Platform F] [Codec F]

inductive Tick where
  | aoi (fails : PeerId → Bool)
  | snapshots
  | fanout
  | dirtyFlush (fails : UInt64 → Bool) (now : Int64)
  | beginFlush
  | clock (clockMs : Int64)

def Tick.run (server : Server F) : Tick → Server F
  | .aoi fails => server.processAoiWork fails
  | .snapshots => server.broadcastSnapshots
  | .fanout => server.processFanoutWork
  | .dirtyFlush fails now => (server.processDirtyFlushAt fails now).1
  | .beginFlush => server.beginDirtyFlush
  | .clock clockMs => server.broadcastClock clockMs

/-- A server opened on the tables `db`, together with the events of its current batch that are
not handled yet. -/
inductive Reachable (db : Persistence.Db F) : Server F → List Event → Prop
  | start {cfg : ValidConfig F} {epochMs : Int64} {weatherSeed : UInt64} {server : Server F}
      (opened : Server.new cfg db epochMs weatherSeed = .ok server) : Reachable db server []
  | poll {server : Server F} {state : PollState} (now : Instant) (script : List SocketTurn)
      (reached : Reachable db server []) (polled : server.host.pollWithWork now script = .ok state) :
      Reachable db { server with host := state.host } (state.events.map Prod.fst)
  | handle {server : Server F} {event : Event} {pending : List Event} (moment : Moment)
      (reached : Reachable db server (event :: pending)) :
      Reachable db (server.handleEvent moment event).1 pending
  | tick {server : Server F} {pending : List Event} (tick : Tick) (reached : Reachable db server pending) :
      Reachable db (tick.run server) pending

omit [Codec F] in
theorem inv_new {cfg : ValidConfig F} {db : Persistence.Db F} {epochMs : Int64} {weatherSeed : UInt64}
    {server : Server F} (opened : Server.new cfg db epochMs weatherSeed = .ok server) : Inv [] server := by
  unfold Server.new at opened
  cases loaded : loadIdentityPlayers db with
  | error failure =>
      rw [loaded] at opened
      cases opened
  | ok identityPlayers =>
      rw [loaded] at opened
      cases opened
      refine ⟨⟨?_, ?_, ?_, ?_, World.coherent_empty _, ?_, ?_⟩, indexed_bound _ _, rfl, ?_, ?_⟩ <;>
        simp [Server.opened]

/-- A poll raises an event for every peer it removes. -/
theorem ended_event {events : List (Event × SocketAddr)} {peer : PeerId} {addr : SocketAddr}
    {ending : Incarnations.Ending DisconnectReason} (ended : ending.mark peer addr ∈ events.map markOf) :
    ∃ reason, Event.disconnected peer reason ∈ events.map Prod.fst := by
  obtain ⟨event, raised, mark⟩ := List.mem_map.mp ended
  rcases event with ⟨_ | _ | ⟨gone, reason⟩, origin⟩ <;> cases ending <;>
    simp only [markOf, Incarnations.Ending.mark] at mark <;> cases mark
  exact ⟨reason, List.mem_map.mpr ⟨_, raised, rfl⟩⟩

omit [Codec F] in
theorem inv_poll {server : Server F} {state : PollState} {now : Instant} {script : List SocketTurn}
    (inv : Inv [] server) (polled : server.host.pollWithWork now script = .ok state) :
    Inv (state.events.map Prod.fst) { server with host := state.host } := by
  obtain ⟨after, done, advance⟩ := pollWithWork_advances inv.hosted.indexed now script
  rw [polled, Except.ok.injEq] at done
  subst done
  obtain ⟨fresh, events, steps⟩ := advance.raised
  have all_fresh : state.events = fresh := by simpa [Host.startPoll] using events
  have agree : SessionsAgree noStray { server with host := state.host } :=
    ⟨inv.agree.owner_iff, inv.agree.order, inv.agree.recipients, inv.agree.scheduled,
      inv.agree.coherent, inv.agree.placed, inv.agree.cells⟩
  refine ⟨agree, advance.indexed, advance.limits.trans inv.hosted.limits, inv.hosted.issued, ?_⟩
  intro peer member
  rcases inv.hosted.live peer member with live | ⟨_, waiting⟩
  · obtain ⟨addr, resolved⟩ := Option.isSome_iff_exists.mp live
    rw [table_startPoll] at steps
    rcases steps.live_or_ended resolved with kept | ⟨ending, ended⟩
    · have still : state.host.peerAddr peer = some addr := kept
      exact Or.inl (by rw [still]; rfl)
    · exact Or.inr (ended_event (all_fresh.symm ▸ ended))
  · cases waiting

theorem keeps_tick (server : Server F) (tick : Tick) : KeepsIndex server (tick.run server) := by
  cases tick with
  | aoi fails => exact keeps_processAoiWork server fails
  | snapshots => exact keeps_broadcastSnapshots server
  | fanout => exact keeps_fanoutTurns _ server _
  | dirtyFlush fails now => exact keeps_processDirtyFlushAt server fails now
  | beginFlush => exact keeps_beginDirtyFlush server
  | clock clockMs => exact keeps_broadcastClock server clockMs

theorem Reachable.inv {db : Persistence.Db F} {server : Server F} {pending : List Event}
    (reached : Reachable db server pending) : Inv pending server := by
  induction reached with
  | start opened => exact inv_new opened
  | poll now script _ polled ih => exact inv_poll ih polled
  | handle moment _ ih => exact (handleEvent_sound ih moment).inv
  | tick tick _ ih => exact ih.keeps (keeps_tick _ tick)

/-- In every reachable state the seven session structures agree; no registration a hello makes
fails; and once a batch is handled every session's peer is live in the transport. -/
theorem session_indices_agree {db : Persistence.Db F} {server : Server F} {pending : List Event}
    (reached : Reachable db server pending) :
    (∀ player peer, server.playerPeers.get? player = some peer ↔
      ∃ session, server.sessions.get? peer = some session ∧ session.playerId = player) ∧
    server.playerOrder = server.playerPeers.keys ∧
    server.snapshotRecipients = server.sessions.keys ∧
    server.aoiRecipients ⊆ server.sessions.keys ∧
    (∀ player, (∃ cell, World.Listed server.world.index cell player) ↔
      ∃ peer session, server.sessions.get? peer = some session ∧ session.playerId = player) ∧
    (∀ peer session, server.sessions.get? peer = some session →
      ∃ cell, session.cell = some cell ∧ server.world.cellOfEntity session.playerId = some cell ∧
        session.sub.center = some cell) ∧
    (∀ moment peer hello failure, (server.onHelloAt moment peer hello).2 = .error failure →
      fromRegistration failure = false) ∧
    (pending = [] → ∀ peer session, server.sessions.get? peer = some session →
      ∃ addr, server.host.peerAddr peer = some addr) ∧
    (∀ now script, ∃ state, server.host.pollWithWork now script = .ok state) := by
  have inv := reached.inv
  refine ⟨inv.agree.owner_iff, inv.agree.order, inv.agree.recipients, inv.agree.scheduled, ?_,
    inv.agree.cells, ?_, ?_, ?_⟩
  · intro player
    constructor
    · rintro ⟨cell, listed⟩
      have known := (inv.agree.coherent.listed_iff cell player).mp listed
      rcases inv.agree.placed player (by rw [known]; rfl) with present | impossible
      · obtain ⟨peer, owner⟩ := Option.isSome_iff_exists.mp present
        exact ⟨peer, (inv.agree.owner_iff player peer).mp owner⟩
      · exact impossible.elim
    · rintro ⟨peer, session, found, rfl⟩
      obtain ⟨cell, -, indexed, -⟩ := inv.agree.cells peer session found
      exact ⟨cell, (inv.agree.coherent.listed_iff cell session.playerId).mpr indexed⟩
  · intro moment peer hello
    exact (onHelloAt_sound inv moment hello).registered
  · rintro rfl peer session found
    have member := (FiniteMap.mem_keys_iff_exists server.sessions peer).mpr ⟨session, found⟩
    rcases inv.hosted.live peer member with live | ⟨_, waiting⟩
    · exact Option.isSome_iff_exists.mp live
    · cases waiting
  · intro now script
    obtain ⟨state, done, -⟩ := pollWithWork_advances inv.hosted.indexed now script
    exact ⟨state, done⟩

/-- Two clients connect and say hello to a server with default settings and empty tables. -/
def emptyDb : Persistence.Db Int := ⟨[], 0, [], FiniteMap.empty, [], []⟩

def freshServer : Server Int :=
  Server.opened (ValidConfig.default 1024 rfl rfl) emptyDb FiniteMap.empty 0 0

def calmAt (now : Int64) : Moment :=
  { admissionMs := now, persistenceMs := now, clockMs := now, uptimeMs := 0, fails := fun _ => false }

def helloOf (token : String) : ClientHello :=
  { protocolVersion := 1
    token := some token
    displayName := none
    apiSurfaceHash := some "hash"
    gameBuild := none
    modVersion := none }

/-- Room for the envelope and for each entity of a snapshot; only lengths matter to the server. -/
def encodedBytes : ServerMessage Int → Nat
  | .snapshotDelta _ players boats => 64 + 64 * players.length + 80 * boats.length
  | _ => 64

instance helloCodec : Codec Int where
  encode envelope := List.replicate (encodedBytes envelope.payload) 0
  decode bytes :=
    if bytes = [1] then some (.hello (helloOf "first"))
    else if bytes = [2] then some (.hello (helloOf "second"))
    else none

def datagramFrom (ip : UInt32) (bytes : WireProtocol.Bytes) : SocketTurn :=
  .peeked bytes.length (.datagram bytes (.v4 ip 5000) 0)

def joinScript : List SocketTurn :=
  let request := WireProtocol.buildConnectRequest 0 7 0 16 (WireProtocol.writeLitenetString "sailwind-online")
  [datagramFrom 1 request, datagramFrom 2 request, datagramFrom 1 [0, 1], datagramFrom 2 [0, 2]]

def joinEvents : List Event := [.connected 1, .connected 2, .data 1 [1], .data 2 [2]]

def joinedServer : Server Int :=
  match freshServer.host.pollWithWork 0 joinScript with
  | .error _ => freshServer
  | .ok state =>
    let connected : Server Int := { freshServer with host := state.host }
    ((connected.handleEvent (calmAt 1000) (.data 1 [1])).1.handleEvent (calmAt 2000) (.data 2 [2])).1

theorem joinedServer_reached : Reachable emptyDb joinedServer [] := by
  have opened : Server.new (ValidConfig.default 1024 rfl rfl) emptyDb 0 0 = .ok freshServer := rfl
  obtain ⟨state, polled, -⟩ :=
    pollWithWork_advances (Reachable.start opened).inv.hosted.indexed 0 joinScript
  have raised : state.events.map Prod.fst = joinEvents := by
    have seen : (freshServer.host.pollWithWork 0 joinScript).toOption.map
        (fun after => after.events.map Prod.fst) = some joinEvents := by decide +kernel
    rw [polled] at seen
    exact Option.some.inj seen
  have waiting := Reachable.poll 0 joinScript (.start opened) polled
  rw [raised] at waiting
  have greeted := Reachable.handle (calmAt 0) (.handle (calmAt 0) waiting)
  have joined := Reachable.handle (calmAt 2000) (.handle (calmAt 1000) greeted)
  unfold joinedServer
  rw [polled]
  exact joined

theorem session_indices_agree_joined :
    ∃ session, joinedServer.sessions.get? 1 = some session ∧ session.playerId = 1 ∧
      ∃ addr, joinedServer.host.peerAddr 1 = some addr := by
  have joined : (joinedServer.sessions.get? 1).map Session.playerId = some 1 := by decide +kernel
  obtain ⟨session, found, own⟩ := Option.map_eq_some_iff.mp joined
  have live := (session_indices_agree joinedServer_reached).2.2.2.2.2.2.2.1 rfl 1 session found
  exact ⟨session, found, own, live⟩

end Runs

end SailwindOnline.SessionRuns
