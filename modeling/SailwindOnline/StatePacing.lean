import SailwindOnline.HelloThrottle
import SailwindOnline.Newcomers
import SailwindOnline.StateReporter

/-!
The client-state throttle against the pace the server advertises. The throttle
remembers of a player the time of one of its reports; reports that come a
period of the advertised rate apart all pass it just when the throttle's own
interval is no longer than that period.
-/

namespace SailwindOnline.StatePacing
open Server SessionRuns Effects TickEffects Traces RateLimiting MachineInt Enrolment
open HelloThrottle (allow_last allow_after allow_interval)
open WireProtocol (Bytes)

/-! What a stage does to the throttle. -/
section Stages
variable {F : Type} [Platform F] {server after : Server F} {moment : Moment} {event : Event} {peer : PeerId}
  {pending : List Event}

theorem captureFanoutRecipients_limiter (server : Server F) :
    server.captureFanoutRecipients.1.clientStateLimiter = server.clientStateLimiter := by
  rcases captureFanoutRecipients_spec server with missed | ⟨audience, nextAudience, -, captured⟩
  · rw [missed]
  · rw [captured]

theorem applyEcon_limiter (server : Server F) (moment : Moment) (peer : PeerId) (player : UInt64)
    (txn : Ledger.Txn) :
    (server.applyEcon moment peer player txn).1.clientStateLimiter = server.clientStateLimiter := by
  unfold applyEcon
  split <;> rfl

theorem applyTrade_limiter (server : Server F) (moment : Moment) (peer : PeerId) (trade : Market.Trade) :
    (server.applyTrade moment peer trade).1.clientStateLimiter = server.clientStateLimiter := by
  unfold applyTrade
  split <;> rfl

theorem onEcon_limiter (server : Server F) (moment : Moment) (peer : PeerId) (txn : EconTxn) :
    (server.onEcon moment peer txn).1.clientStateLimiter = server.clientStateLimiter := by
  unfold onEcon
  split
  · rfl
  simp only
  split
  · rfl
  split
  · rfl
  · exact applyEcon_limiter _ _ _ _ _
  · split
    · exact applyEcon_limiter _ _ _ _ _
    · rfl

theorem onTrade_limiter (server : Server F) (moment : Moment) (peer : PeerId) (request : MarketTradeRequest) :
    (server.onTrade moment peer request).1.clientStateLimiter = server.clientStateLimiter := by
  unfold onTrade
  split
  · rfl
  simp only
  split
  · rfl
  · exact applyTrade_limiter _ _ _ _
  · split
    · exact applyTrade_limiter _ _ _ _
    · unfold throttleTrade
      split <;> rfl

variable [Codec F]

theorem onMoor_limiter (server : Server F) (moment : Moment) (peer : PeerId) (request : MoorRequest F) :
    (server.onMoor moment peer request).1.clientStateLimiter = server.clientStateLimiter := by
  unfold onMoor
  split
  · rfl
  simp only
  split
  · rfl
  split
  · unfold postBounded
    split <;> rfl
  split
  · rfl
  split <;> rfl

theorem onChat_limiter (server : Server F) (moment : Moment) (peer : PeerId) (chat : ChatSend) :
    (server.onChat moment peer chat).clientStateLimiter = server.clientStateLimiter := by
  unfold onChat
  split
  · rfl
  rename_i session _
  split
  · rfl
  simp only
  split
  · rfl
  split
  · rfl
  split
  · rfl
  unfold queueChat
  split
  · rfl
  split <;> rename_i captured
  · have kept := captureFanoutRecipients_limiter { server with
      chatLimiter := (server.chatLimiter.allow session.playerId moment.admissionMs).1, seq := server.seq + 1 }
    rw [captured] at kept
    exact kept
  · have kept := captureFanoutRecipients_limiter { server with
      chatLimiter := (server.chatLimiter.allow session.playerId moment.admissionMs).1, seq := server.seq + 1 }
    rw [captured] at kept
    exact kept

omit [Codec F] in
theorem onClientState_limiter {session : Session F} (moment : Moment) (state : ClientState F)
    (found : server.sessions.get? peer = some session) :
    (server.onClientState moment peer state).clientStateLimiter =
      (server.clientStateLimiter.allow session.playerId moment.admissionMs).1 := by
  unfold onClientState
  simp only [found]
  split
  · rfl
  split
  · rfl
  · unfold emitAoi scheduleAoi
    split
    · rfl
    · split <;> rfl

/-- What an event does to the client-state throttle. -/
inductive Tallied (server : Server F) (moment : Moment) (after : Server F) : Event → Prop
  | kept {event : Event} (same : after.clientStateLimiter = server.clientStateLimiter) :
      Tallied server moment after event
  | reported {peer : PeerId} {bytes : Bytes} {state : ClientState F} {session : Session F}
      (decoded : Codec.decode (F := F) bytes = some (.state state))
      (found : server.sessions.get? peer = some session)
      (charged : after.clientStateLimiter =
        (server.clientStateLimiter.allow session.playerId moment.admissionMs).1) :
      Tallied server moment after (.data peer bytes)
  | cleared {event : Event} {player : UInt64}
      (cleared : after.clientStateLimiter = server.clientStateLimiter.clear player) :
      Tallied server moment after event

omit [Codec F] in
theorem hello_limiter {hello : ClientHello} {result : Except ServerError Unit}
    (effect : HelloEffect server moment peer hello (after, result)) :
    after.clientStateLimiter = server.clientStateLimiter := by
  cases effect with
  | silent charges storage => exact (congrArg Server.clientStateLimiter charges.frame :)
  | answered charges other => exact (congrArg Server.clientStateLimiter charges.frame :)
  | full gated unknown crowded =>
      exact (congrArg Server.clientStateLimiter (identityCharged_frame server _ _ _ _) :)
  | faulted gated admitted fault =>
      exact (congrArg Server.clientStateLimiter (identityCharged_frame server _ _ _ _) :)
  | repeated found greets => rfl
  | @joined identityHash name ip row db middle numbered generation reply gated admitted consistent superseded
      numbering greets =>
      have kept : (enrolled server moment peer ip identityHash row.id.toUInt64 db).clientStateLimiter =
          server.clientStateLimiter := by
        unfold enrolled identityCharged
        split <;> rfl
      have frame := entered_frame peer (withGeneration generation
        (firstSession server row.id.toUInt64 identityHash name)) reply superseded numbering
      exact (congrArg Server.clientStateLimiter frame :).trans kept

theorem handleEvent_tallied (inv : Inv pending server) (moment : Moment) (event : Event) :
    Tallied server moment (server.handleEvent moment event).1 event := by
  cases event with
  | connected peer => exact .kept rfl
  | data peer bytes =>
      show Tallied server moment (server.handleDataAt moment peer bytes).1 _
      unfold handleDataAt
      split <;> rename_i decoded
      · exact .kept rfl
      · exact .kept (hello_limiter (onHelloAt_effect inv moment _))
      · cases found : server.sessions.get? peer with
        | none => exact .kept (by simp [onClientState, found])
        | some session => exact .reported decoded found (onClientState_limiter moment _ found)
      · exact .kept (onEcon_limiter server moment peer _)
      · exact .kept (onTrade_limiter server moment peer _)
      · exact .kept (onMoor_limiter server moment peer _)
      · exact .kept (onChat_limiter server moment peer _)
  | disconnected peer reason =>
      show Tallied server moment (server.onDisconnect moment peer).1 _
      cases found : server.sessions.get? peer with
      | none =>
          rw [onDisconnect_absent moment found]
          exact .kept rfl
      | some session =>
          rw [onDisconnect_present inv moment found]
          unfold persistDeparture
          cases moment.fails 0 with
          | true => exact .cleared rfl
          | false => exact .cleared rfl

theorem tick_limiter (server : Server F) (tick : Tick) :
    (tick.run server).clientStateLimiter = server.clientStateLimiter := by
  cases tick with
  | aoi fails => exact (congrArg Server.clientStateLimiter (processAoiWork_effect server fails).frame :)
  | snapshots => exact (congrArg Server.clientStateLimiter (broadcastSnapshots_effect server).frame :)
  | fanout => exact (congrArg Server.clientStateLimiter (processFanoutWork_run server).frame :)
  | dirtyFlush fails now =>
      exact (congrArg Server.clientStateLimiter (processDirtyFlushAt_effect server fails now).frame :)
  | beginFlush => rfl
  | clock clockMs => exact (congrArg Server.clientStateLimiter (broadcastClock_frame server clockMs) :)

end Stages

/-! Runs. -/
section Runs
variable {F : Type} [Platform F] [Codec F] {db : Persistence.Db F} {trace : List (Stage F)} {server : Server F}
  {pending : List Event} {player : UInt64}

/-- The time of a report of `player` that a stage handles, with the peer that made it. -/
def report (player : UInt64) (stage : Stage F) : Option (PeerId × Moment) :=
  match stage.action with
  | .handle moment (.data peer bytes) =>
    match Codec.decode (F := F) bytes with
    | some (.state _) =>
      match stage.before.sessions.get? peer with
      | some session => if session.playerId = player then some (peer, moment) else none
      | none => none
    | _ => none
  | _ => none

theorem report_eq {stage : Stage F} {moment : Moment} {peer : PeerId} {bytes : Bytes} {state : ClientState F}
    {session : Session F} (spoken : stage.action = .handle moment (.data peer bytes))
    (decoded : Codec.decode (F := F) bytes = some (.state state))
    (found : stage.before.sessions.get? peer = some session) (own : session.playerId = player) :
    report player stage = some (peer, moment) := by
  simp [report, spoken, decoded, found, own]

def reportTimes (player : UInt64) (trace : List (Stage F)) : List Int :=
  trace.filterMap fun stage => (report player stage).map fun made => made.2.admissionMs.toInt

theorem reportTimes_snoc (player : UInt64) (trace : List (Stage F)) (stage : Stage F) :
    reportTimes player (trace ++ [stage]) = reportTimes player trace ++
      ((report player stage).map fun made => made.2.admissionMs.toInt).toList := by
  cases made : report player stage <;> simp [reportTimes, made]

/-- What the throttle remembers of a player is the time of one of its reports. -/
theorem run_remembers (run : Run db trace server pending) {time : Int64}
    (held : server.clientStateLimiter.last.get? player = some time) : time.toInt ∈ reportTimes player trace := by
  induction run with
  | start opened =>
      obtain ⟨identityPlayers, -, rfl⟩ := new_opened opened
      simp [Server.opened] at held
  | poll now script run polled ih =>
      rw [reportTimes_snoc]
      exact List.mem_append_left _ (ih held)
  | tick tick run ih =>
      rw [reportTimes_snoc]
      rw [tick_limiter] at held
      exact List.mem_append_left _ (ih held)
  | @handle trace server event pending moment run ih =>
      rw [reportTimes_snoc]
      have tallied := handleEvent_tallied run.inv moment event
      generalize same : (server.handleEvent moment event).1 = after at tallied held ⊢
      cases tallied with
      | kept kept => exact List.mem_append_left _ (ih (kept ▸ held))
      | cleared cleared =>
          rw [cleared] at held
          simp only [RateLimiter.clear, FiniteMap.get?_erase] at held
          split at held
          · cases held
          · exact List.mem_append_left _ (ih held)
      | @reported peer bytes state session decoded found charged =>
          rw [charged] at held
          rcases allow_last server.clientStateLimiter session.playerId player moment.admissionMs with
            kept | ⟨own, learned⟩
          · exact List.mem_append_left _ (ih (kept.symm.trans held))
          · rw [learned, Option.some.injEq] at held
            rw [report_eq rfl decoded found own.symm, ← held]
            exact List.mem_append_right _ List.mem_cons_self

theorem run_interval (run : Run db trace server pending) :
    server.clientStateLimiter.minIntervalMs = server.cfg.clientStateMinIntervalMsI64 := by
  induction run with
  | start opened =>
      obtain ⟨identityPlayers, -, rfl⟩ := new_opened opened
      rfl
  | poll now script run polled ih => exact ih
  | @handle trace server event pending moment run ih =>
      rw [outcome_cfg (handleEvent_outcome run.inv moment event), ← ih]
      cases handleEvent_tallied run.inv moment event with
      | kept same => rw [same]
      | reported decoded found charged => rw [charged, allow_interval]
      | cleared cleared =>
          rw [cleared]
          rfl
  | @tick trace server pending tick run ih =>
      have gates := (tick_gates server tick).1
      simp only [Enrolment.gateView, Prod.mk.injEq] at gates
      rw [tick_limiter, gates.1]
      exact ih

/-- Reports that come an interval apart all pass the throttle. -/
theorem spaced_admitted (run : Run db trace server pending)
    (spaced : (reportTimes player trace).Pairwise fun earlier later =>
      earlier + server.cfg.clientStateMinIntervalMsI64.toInt ≤ later)
    {stage : Stage F} (member : stage ∈ trace) {peer : PeerId} {moment : Moment}
    (made : report player stage = some (peer, moment)) :
    (stage.before.clientStateLimiter.allow player moment.admissionMs).2 = true := by
  obtain ⟨early, later, rfl⟩ := List.append_of_mem member
  obtain ⟨⟨waiting, before⟩, -, cfg⟩ := run_upto run
  cases held : stage.before.clientStateLimiter.last.get? player with
  | none => exact Throttles.allow_fresh held _
  | some time =>
      refine allow_after held ?_
      rw [run_interval before, ← cfg]
      have earlier := run_remembers before held
      rw [reportTimes, List.filterMap_append, List.pairwise_append] at spaced
      exact spaced.2.2 _ earlier _ (List.mem_filterMap.mpr ⟨stage, List.mem_cons_self, by rw [made]; rfl⟩)

end Runs

/-! The advertised pace. -/
section Pace
open Sync
variable {F : Type} [Platform F] [Codec F]

/-- Under the configuration, all the reports of a player pass the throttle whenever they are what one
reporter at the advertised rate has sent, in order and each after the same delay. -/
def StatesAdmitted (cfg : ValidConfig F) : Prop :=
  ∀ (db : Persistence.Db F) (trace : List (Stage F)) (server : Server F) (pending : List Event),
    Run db trace server pending → server.cfg = cfg →
    ∀ (player : UInt64) (frames : List (ReporterFrame F)) (delay : Int),
      (∀ frame ∈ frames, frame.handshakeComplete = true → frame.snapshotHz = server.caps.snapshotHz) →
      (reportTimes player trace).Sublist ((({ nextSendMs := 0 } : StateReporter).sends frames).map (·.1 + delay)) →
      ∀ stage ∈ trace, ∀ peer moment, report player stage = some (peer, moment) →
        (stage.before.clientStateLimiter.allow player moment.admissionMs).2 = true

omit [Codec F] in
theorem advertised_interval (server : Server F) :
    StateReporter.intervalMs server.caps.snapshotHz = 1000 / server.cfg.snapshotHz.toNat := by
  have sound := server.cfg.sound
  have wire : server.caps.snapshotHz.toNat = server.cfg.snapshotHz.toNat := by
    show (UInt8.ofNat server.cfg.snapshotHz.toNat).toNat = _
    have narrow := sound.snapshotWire
    unfold maxU8 at narrow
    rw [UInt8.toNat_ofNat']
    omega
  have positive : 0 < server.caps.snapshotHz := by
    rw [UInt8.lt_iff_toNat_lt, wire]
    exact sound.snapshotPositive
  rw [StateReporter.intervalMs, if_pos positive, wire]

omit [Codec F] in
theorem default_interval {cfg : ValidConfig F} (unset : cfg.clientStateMinIntervalMs = 20) :
    cfg.clientStateMinIntervalMsI64 = 20 := by
  rw [Config.clientStateMinIntervalMsI64, unset]
  rfl

/-- At fifty reports a second or fewer the throttle's twenty milliseconds have always passed. -/
theorem slow_admitted {cfg : ValidConfig F} (unset : cfg.clientStateMinIntervalMs = 20)
    (slow : cfg.snapshotHz.toNat ≤ 50) : StatesAdmitted cfg := by
  intro db trace server pending run same player frames delay advertised arrived stage member peer moment made
  have interval : server.cfg.clientStateMinIntervalMsI64.toInt = 20 := by
    rw [same, default_interval unset]
    rfl
  have period : (20 : Int) ≤ StateReporter.intervalMs server.caps.snapshotHz := by
    have positive := cfg.sound.snapshotPositive
    rw [advertised_interval, same]
    have quotient : 20 ≤ 1000 / cfg.snapshotHz.toNat := by
      rw [Nat.le_div_iff_mul_le positive]
      omega
    exact_mod_cast quotient
  have apart := StateReporter.sends_spaced ({ nextSendMs := 0 } : StateReporter) frames advertised
  refine spaced_admitted run ?_ member made
  refine List.Pairwise.sublist arrived ?_
  rw [List.pairwise_map]
  refine apart.imp fun {earlier later} spaced => ?_
  omega

/-! A single player of a fresh server. -/

open Newcomers Throttles

def unwrittenDb : Persistence.Db F := ⟨[], 0, [], FiniteMap.empty, [], []⟩

/-- Some datagrams carry the hello and a state. -/
structure Legible (F : Type) [Codec F] (greeting position : Bytes) : Prop where
  hello : Codec.decode (F := F) greeting = some (.hello briefHello)
  state : ∃ state, Codec.decode (F := F) position = some (.state state)
  short : greeting.length < WireProtocol.mtu ∧ position.length < WireProtocol.mtu

/-- The player's client is connected and has its session. -/
structure Seated (server : Server F) (player : UInt64) : Prop where
  untroubled : Untroubled server.host
  connected : server.host.peers.get? loneAddr = some (boardingPeer loneAddr 0)
  slots : 0 < server.host.peerSlots.length
  seat : ∃ session, server.sessions.get? 1 = some session ∧ session.playerId = player

section Lone
variable {db : Persistence.Db F} {trace : List (Stage F)} {server : Server F} {player : UInt64}
  {greeting position : Bytes}

omit [Codec F] in
/-- A report leaves the host and the seat. -/
theorem Seated.onClientState (seated : Seated server player) (moment : Moment) (state : ClientState F) :
    Seated (server.onClientState moment 1 state) player := by
  obtain ⟨untroubled, connected, slots, session, found, own⟩ := seated
  have effect := onClientState_effect moment state found
  generalize server.onClientState moment 1 state = after at effect
  cases effect with
  | served served =>
      have host : after.host = server.host := (congrArg Server.host served.frame :)
      have sessions : after.sessions = server.sessions := (congrArg Server.sessions served.frame :)
      exact ⟨host ▸ untroubled, host ▸ connected, host ▸ slots, session, sessions ▸ found, own⟩
  | moved motion state cell placed =>
      exact ⟨untroubled, connected, slots, _, FiniteMap.get?_insert_self _ _ _, own⟩
  | spoke here about captured => exact ⟨untroubled, connected, slots, session, found, own⟩

/-- The player reports once. -/
theorem report_once (run : Run db trace server []) (seated : Seated server player)
    (legible : Legible F greeting position) (now : Int64) :
    ∃ polled reported, Run db (trace ++ [polled, reported]) reported.after [] ∧ Seated reported.after player ∧
      report player polled = none ∧ report player reported = some (1, calmAt now) ∧
      reported.before.clientStateLimiter = server.clientStateLimiter ∧
      reported.after.clientStateLimiter = (server.clientStateLimiter.allow player now).1 ∧
      reported.after.cfg = server.cfg := by
  obtain ⟨state, decoded⟩ := legible.state
  obtain ⟨batch, maintenanceCursor, polled, host, events⟩ :=
    poll_hears seated.untroubled seated.connected seated.slots legible.short.2
  have calling := Run.poll 0 _ run polled
  rw [events] at calling
  have heard : Seated { server with host := batch.host } player := by
    rw [host]
    exact ⟨seated.untroubled.startPoll.withCursor _, seated.connected, seated.slots, seated.seat⟩
  have kept : ({ server with host := batch.host } : Server F).clientStateLimiter = server.clientStateLimiter ∧
      ({ server with host := batch.host } : Server F).cfg = server.cfg := ⟨rfl, rfl⟩
  generalize { server with host := batch.host } = called at calling heard kept
  have handled := Run.handle (calmAt now) calling
  rw [List.append_assoc] at handled
  obtain ⟨session, found, own⟩ := heard.seat
  have done : (called.handleEvent (calmAt now) (.data 1 position)).1 =
      called.onClientState (calmAt now) 1 state := by
    simp only [handleEvent, handleDataAt, decoded]
  refine ⟨_, _, handled, ?_, rfl, report_eq rfl decoded found own, kept.1, ?_, ?_⟩
  · show Seated (called.handleEvent (calmAt now) (.data 1 position)).1 player
    rw [done]
    exact heard.onClientState _ _
  · show (called.handleEvent (calmAt now) (.data 1 position)).1.clientStateLimiter = _
    rw [done, onClientState_limiter _ _ found, own, kept.1]
    rfl
  · exact (outcome_cfg (handleEvent_outcome calling.inv _ _)).trans kept.2

/-- A server that has heard nobody. -/
def silentServer (cfg : ValidConfig F) (host : Host) : Server F :=
  { Server.opened cfg unwrittenDb FiniteMap.empty 0 0 with host }

omit [Codec F] in
theorem newcomer_lone (cfg : ValidConfig F) (host : Host) (located : host.peerAddr 1 = some loneAddr) :
    Newcomer (silentServer cfg host) (calmAt 0) 1 briefHello
      (tokenHash "a") "sailor" loneAddr.ip 1 := by
  have read := validateHello_brief (wire_string_positive cfg)
  have next : checkedAdd 0 1 = some 1 := by decide
  refine ⟨allow_fresh rfl _, rfl, ⟨⟨⟨"a", read, rfl⟩, rfl, loneAddr, located, rfl⟩, ?_, ?_⟩, rfl, rfl, ?_, ?_, ?_,
    next, by decide⟩
  · refine (bounded_allow_fresh (by simp [silentServer, Server.opened]) ?_ _).1
    simp [silentServer, Server.opened, Config.maxTransportPeersUsize, clampNat, FiniteMap.size]
  · show (({ minIntervalMs := cfg.newSessionMinIntervalMsI64 } : GlobalRateLimiter).allow 0).2 = true
    unfold GlobalRateLimiter.allow
    split <;> rfl
  · rintro ⟨row, member, -⟩
    cases member
  · show 0 < (UInt32.ofNat (clampNat cfg.maxPlayerRows.toNat 1 maxPlayerRowsCeiling)).toNat
    rw [UInt32.toNat_ofNat']
    simp only [clampNat, maxPlayerRowsCeiling]
    omega
  · simp [silentServer, Server.opened, FiniteMap.size, maxPlayerRowsCeiling]

/-- The player boards. -/
theorem lone_boards (cfg : ValidConfig F) (legible : Legible F greeting position) :
    ∃ trace server, Run (F := F) unwrittenDb trace server [] ∧ server.cfg = cfg ∧ Seated server 1 ∧
      reportTimes 1 trace = [] := by
  have opened : Run (F := F) unwrittenDb [] (Server.opened cfg unwrittenDb FiniteMap.empty 0 0) [] := .start rfl
  have untroubled : Untroubled (Server.opened (F := F) cfg unwrittenDb FiniteMap.empty 0 0).host :=
    ⟨rfl, rfl, rfl, by simp [Server.opened, Host.bound]⟩
  have room : 0 < (Server.opened (F := F) cfg unwrittenDb FiniteMap.empty 0 0).host.limits.maxPeers :=
    PeerLimits.globalPositive _
  obtain ⟨batch, maintenanceCursor, polled, host, events⟩ := @poll_boards _ loneAddr greeting
    opened.inv.hosted.indexed untroubled rfl rfl room legible.short.1
  have calling : Run _ _ (silentServer cfg batch.host) _ := Run.poll 0 _ opened polled
  rw [events] at calling
  have connected : Run _ _ (silentServer cfg batch.host) [.data 1 greeting] := Run.handle (calmAt 0) calling
  have present : batch.host.peers.get? loneAddr = some (boardingPeer loneAddr 0) := by
    rw [host]
    exact FiniteMap.get?_insert_self _ _ _
  have newcomer := newcomer_lone cfg batch.host (connected.inv.hosted.indexed.peerAddr_of present)
  obtain ⟨session, seat, own⟩ := newcomer_seated connected.inv newcomer rfl
  have welcomed := newcomer_welcomed connected.inv newcomer rfl
  have done : ((silentServer cfg batch.host).handleEvent (calmAt 0) (.data 1 greeting)).1 =
      ((silentServer cfg batch.host).onHelloAt (calmAt 0) 1 briefHello).1 := by
    simp only [handleEvent, handleDataAt, legible.hello]
  rw [← done] at seat welcomed
  have greeted := Run.handle (calmAt 0) connected
  refine ⟨_, _, greeted, welcomed.cfg, ⟨?_, ?_, ?_, session, seat, own⟩, ?_⟩
  · rw [welcomed.host]
    show Untroubled batch.host
    rw [host]
    exact (untroubled.startPoll.boarded _).withCursor _
  · rw [welcomed.host]
    exact present
  · rw [welcomed.host]
    show 0 < batch.host.peerSlots.length
    rw [host]
    simp [boarded]
  · simp [reportTimes, report, legible.hello]

end Lone

theorem allow_early {limiter : RateLimiter} {key : UInt64} {time now : Int64} (positive : 0 < limiter.minIntervalMs)
    (held : limiter.last.get? key = some time) (early : saturatingSub now time < limiter.minIntervalMs) :
    (limiter.allow key now).2 = false := by
  simp [RateLimiter.allow, not_le.mpr positive, held, early]

/-- Above fifty reports a second the second report is throttled. -/
theorem fast_throttled {cfg : ValidConfig F} {greeting position : Bytes} (unset : cfg.clientStateMinIntervalMs = 20)
    (fast : 50 < cfg.snapshotHz.toNat) (legible : Legible F greeting position) : ¬ StatesAdmitted cfg := by
  intro admitted
  obtain ⟨trace, server, boarding, same, seated, silent⟩ := lone_boards cfg legible
  obtain ⟨polled, first, run, seated, idle, reported, -, charged, kept⟩ := report_once boarding seated legible 1000
  have period : 1000 / cfg.snapshotHz.toNat < 20 := by
    rw [Nat.div_lt_iff_lt_mul (by omega)]
    omega
  obtain ⟨wait, wait_eq⟩ : ∃ wait, wait = 1000 / cfg.snapshotHz.toNat := ⟨_, rfl⟩
  rw [← wait_eq] at period
  obtain ⟨time, later⟩ : ∃ time : Int64, time.toInt = 1000 + wait := by
    refine ⟨Int64.ofNat (1000 + wait), ?_⟩
    rw [Int64.toInt_ofNat_of_lt (by omega)]
    omega
  obtain ⟨polledAgain, second, run, -, idleAgain, again, beforeAgain, -, keptAgain⟩ :=
    report_once run seated legible time
  have settings : second.after.cfg = cfg := keptAgain.trans (kept.trans same)
  have rate : StateReporter.intervalMs second.after.caps.snapshotHz = wait := by
    rw [advertised_interval, settings, wait_eq]
    rfl
  -- Two frames of a reporter, a period apart.
  obtain ⟨pose⟩ : Nonempty (Net.BoatPose F) :=
    ⟨⟨vec3Of none, quatOf none, vec3Of none⟩⟩
  have sends : ({ nextSendMs := 0 } : StateReporter).sends
      [⟨true, 0, second.after.caps.snapshotHz, some pose⟩, ⟨true, wait, second.after.caps.snapshotHz, some pose⟩] =
        [(0, pose), ((wait : Int), pose)] := by
    simp [StateReporter.sends, StateReporter.tick, rate]
  have times : reportTimes 1 (trace ++ [polled, first] ++ [polledAgain, second]) = [1000, (wait + 1000 : Int)] := by
    have start : (calmAt 1000).admissionMs.toInt = 1000 := rfl
    have finish : (calmAt time).admissionMs.toInt = wait + 1000 := later.trans (add_comm _ _)
    rw [reportTimes] at silent ⊢
    simp [silent, idle, reported, idleAgain, again, start, finish]
  have passed := admitted unwrittenDb _ second.after [] run settings 1
    [⟨true, 0, second.after.caps.snapshotHz, some pose⟩, ⟨true, wait, second.after.caps.snapshotHz, some pose⟩] 1000
    (by simp) (by rw [sends, times]; simp) second (by simp) 1 _ again
  -- The throttle remembers the first report, less than its interval ago.
  have interval : server.clientStateLimiter.minIntervalMs = 20 := by
    rw [run_interval boarding, same, default_interval unset]
  have unheard : server.clientStateLimiter.last.get? 1 = none := by
    by_contra heard
    obtain ⟨earlier, held⟩ := Option.ne_none_iff_exists'.mp heard
    have made := run_remembers boarding held
    rw [silent] at made
    cases made
  have held := HelloThrottle.admitted_last (by rw [interval]; decide) (allow_fresh unheard 1000)
  have early : saturatingSub time 1000 < 20 := by
    have thousand : (1000 : Int64).toInt = 1000 := rfl
    have twenty : (20 : Int64).toInt = 20 := rfl
    rw [Int64.lt_iff_toInt_lt, saturatingSub, later, thousand, toInt_ofInt_in_range _ (by omega) (by
      unfold minI64 maxI64
      omega), twenty]
    unfold minI64 maxI64
    omega
  rw [beforeAgain, charged, allow_early (by rw [allow_interval, interval]; decide) held (by
    rw [allow_interval, interval]
    exact early)] at passed
  cases passed

/-- Under the default interval the throttle admits every client that keeps the advertised pace just when
that pace is at most fifty reports a second. -/
theorem states_admitted_iff {cfg : ValidConfig F} {greeting position : Bytes}
    (unset : cfg.clientStateMinIntervalMs = 20) (legible : Legible F greeting position) :
    StatesAdmitted cfg ↔ cfg.snapshotHz.toNat ≤ 50 := by
  constructor
  · intro admitted
    by_contra fast
    exact fast_throttled unset (not_le.mp fast) legible admitted
  · exact slow_admitted unset

end Pace

/-! Four reports a second and a hundred. -/
section Rates

local instance paceCodec : Codec Int where
  encode _ := []
  decode bytes :=
    if bytes = [1] then some (.hello Newcomers.briefHello)
    else if bytes = [2] then some (.state { pos := none, rot := none, vel := none, aboardBoat := 0, tMs := 0 })
    else none

theorem paceCodec_legible : Legible Int [1] [2] := ⟨rfl, ⟨_, rfl⟩, by decide⟩

theorem states_admitted_default : StatesAdmitted (ValidConfig.default (1024 : Int) rfl rfl) :=
  (states_admitted_iff rfl paceCodec_legible).mpr (by decide)

def fastConfig : ValidConfig Int :=
  { Config.default 1024 with tickHz := 100, snapshotHz := 100, valid := rfl }

/-- Validation lets a hundred reports a second be advertised. -/
theorem hundred_hertz_throttled : fastConfig.clientStateMinIntervalMs = 20 ∧ ¬ StatesAdmitted fastConfig :=
  ⟨rfl, fast_throttled rfl (by decide) paceCodec_legible⟩

end Rates
end SailwindOnline.StatePacing
