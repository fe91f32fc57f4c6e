import SailwindOnline.Enrolment

/-!
Admissions held apart. A hello that opens a session has been charged to its
source and to its player, and one that makes a row to the gate of newcomers;
no disconnect and no tick gives a charge back. What the three throttles
remember therefore spaces the admissions of a run, whatever clock stamps them.
-/

namespace SailwindOnline.AdmissionSpacing
open MachineInt Server SessionIndex SessionRuns Effects TickEffects Traces PlayerTable
open Persistence RateLimiting FlushQueue
open Enrolment Cooldowns Throttles

/-! The intervals of a validated configuration. -/
section Intervals
variable {F : Type}

/-- An interval as a throttle uses it. -/
structure Measures (interval : Int64) (gap : Int) : Prop where
  positive : 0 < interval
  exact : interval.toInt = gap

theorem measures_millis {value : Nat} (positive : 0 < value) (small : value ≤ maxTradeMinIntervalMs) :
    Measures (Config.millis value) value := by
  have exact : (Config.millis value).toInt = value :=
    Int64.toInt_ofNat_of_lt (small.trans_lt (by decide))
  refine ⟨Int64.lt_iff_toInt_lt.mpr ?_, exact⟩
  rw [exact, show (0 : Int64).toInt = 0 from rfl]
  exact_mod_cast positive

def newcomerGap (cfg : Config F) : Int := cfg.newSessionMinIntervalMs.toNat
def playerGap (cfg : Config F) : Int := cfg.helloMinIntervalMs.toNat
def sourceGap (cfg : Config F) : Int := max (playerGap cfg) (2 * newcomerGap cfg + 1)

variable [Platform F]

theorem valid_intervals (cfg : ValidConfig F) :
    Measures cfg.newSessionMinIntervalMsI64 (newcomerGap cfg.toConfig) ∧
      Measures cfg.sourceSessionMinIntervalMsI64 (sourceGap cfg.toConfig) ∧
      Measures cfg.helloMinIntervalMsI64 (playerGap cfg.toConfig) := by
  have passed := (requireAll_ok_iff cfg.checks).mp cfg.valid
  simp only [Config.checks, List.forall_mem_cons, Config.within, decide_eq_true_eq] at passed
  obtain ⟨-, -, -, -, -, -, -, hellos, newcomers, -⟩ := passed
  simp only [minHelloMinIntervalMs, maxHelloMinIntervalMs, maxNewSessionMinIntervalMs] at hellos newcomers
  have hello : cfg.helloMinIntervalMsNat = cfg.helloMinIntervalMs.toNat := by
    simp only [Config.helloMinIntervalMsNat, clampNat, minHelloMinIntervalMs, maxHelloMinIntervalMs]
    omega
  have newcomer : cfg.newSessionMinIntervalMsNat = cfg.newSessionMinIntervalMs.toNat := by
    simp only [Config.newSessionMinIntervalMsNat, clampNat, minHelloMinIntervalMs, maxNewSessionMinIntervalMs]
    omega
  unfold Config.newSessionMinIntervalMsI64 Config.sourceSessionMinIntervalMsI64 Config.helloMinIntervalMsI64
  rw [hello, newcomer]
  refine ⟨measures_millis (by omega) (by unfold maxTradeMinIntervalMs; omega), ?_,
    measures_millis (by omega) (by unfold maxTradeMinIntervalMs; omega)⟩
  have longest : max cfg.helloMinIntervalMs.toNat (cfg.newSessionMinIntervalMs.toNat * 2 + 1) ≤
      maxTradeMinIntervalMs := by
    unfold maxTradeMinIntervalMs
    omega
  have measured := measures_millis (by omega) longest
  refine ⟨measured.positive, measured.exact.trans ?_⟩
  unfold sourceGap playerGap newcomerGap
  omega

end Intervals

/-! What a stage admits. -/
section Admissions
variable {F : Type} [Platform F]

/-- The hello handled at `now` opens a session on `peer`. -/
def Opens (stage : Stage F) (peer : PeerId) (session : Session F) (now : Int64) : Prop :=
  (∃ moment event, stage.action = .handle moment event ∧ moment.admissionMs = now) ∧
    stage.before.sessions.get? peer = none ∧ stage.after.sessions.get? peer = some session

/-- The hello handled at `now` is of an identity that had no row and makes it one. -/
def Enrols (stage : Stage F) (identityHash : String) (now : Int64) : Prop :=
  (∃ moment event, stage.action = .handle moment event ∧ moment.admissionMs = now) ∧
    ¬ HasIdentity stage.before.db identityHash ∧ HasIdentity stage.after.db identityHash

def newcomerCharge (stage : Stage F) (_ : Unit) (now : Int64) : Prop :=
  ∃ identityHash, Enrols stage identityHash now

def sourceCharge (stage : Stage F) (ip : IpAddr) (now : Int64) : Prop :=
  ∃ peer session addr, Opens stage peer session now ∧ stage.before.host.peerAddr peer = some addr ∧ addr.ip = ip

def playerCharge (stage : Stage F) (player : UInt64) (now : Int64) : Prop :=
  ∃ peer session, Opens stage peer session now ∧ session.playerId = player

/-- What a stage asks of the three gates. -/
structure GateMoves (cfg : Config F) (stage : Stage F) : Prop where
  newcomers : Moved (globalCooldown (newcomerGap cfg)) newcomerCharge stage stage.before.newSessionLimiter
    stage.after.newSessionLimiter
  sources : Moved (boundedCooldown IpAddr (sourceGap cfg)) sourceCharge stage stage.before.sourceSessionLimiter
    stage.after.sourceSessionLimiter
  players : Moved (boundedCooldown UInt64 (playerGap cfg)) playerCharge stage stage.before.reconnectLimiter
    stage.after.reconnectLimiter
  located : ∀ peer session now, Opens stage peer session now → ∃ addr, stage.before.host.peerAddr peer = some addr

/-- A stage that admits nobody. -/
structure Uneventful (stage : Stage F) : Prop where
  sessions : ∀ peer, stage.before.sessions.get? peer = none → stage.after.sessions.get? peer = none
  identities : ∀ identityHash, HasIdentity stage.after.db identityHash → HasIdentity stage.before.db identityHash

/-- Each gate is left alone or asked once. -/
structure Asked (server after : Server F) : Prop where
  newcomers : after.newSessionLimiter = server.newSessionLimiter ∨
    ∃ now, after.newSessionLimiter = (server.newSessionLimiter.allow now).1
  sources : after.sourceSessionLimiter = server.sourceSessionLimiter ∨
    ∃ ip now, after.sourceSessionLimiter = (server.sourceSessionLimiter.allow ip now).1
  players : after.reconnectLimiter = server.reconnectLimiter ∨
    ∃ player now, after.reconnectLimiter = (server.reconnectLimiter.allow player now).1

theorem Asked.still {server after : Server F} (newcomers : after.newSessionLimiter = server.newSessionLimiter)
    (sources : after.sourceSessionLimiter = server.sourceSessionLimiter)
    (players : after.reconnectLimiter = server.reconnectLimiter) : Asked server after :=
  ⟨Or.inl newcomers, Or.inl sources, Or.inl players⟩

namespace Uneventful
variable {cfg : Config F} {stage : Stage F}

theorem not_opens (uneventful : Uneventful stage) (peer : PeerId) (session : Session F) (now : Int64) :
    ¬ Opens stage peer session now := by
  rintro ⟨-, vacant, found⟩
  rw [uneventful.sessions peer vacant] at found
  cases found

theorem newcomers (uneventful : Uneventful stage) (key : Unit) (now : Int64) : ¬ newcomerCharge stage key now := by
  rintro ⟨identityHash, -, unknown, known⟩
  exact unknown (uneventful.identities identityHash known)

theorem sources (uneventful : Uneventful stage) (ip : IpAddr) (now : Int64) : ¬ sourceCharge stage ip now := by
  rintro ⟨peer, session, -, opens, -⟩
  exact uneventful.not_opens peer session now opens

theorem players (uneventful : Uneventful stage) (player : UInt64) (now : Int64) :
    ¬ playerCharge stage player now := by
  rintro ⟨peer, session, opens, -⟩
  exact uneventful.not_opens peer session now opens

theorem moves (uneventful : Uneventful stage) (asked : Asked stage.before stage.after) : GateMoves cfg stage where
  newcomers := .uncharged uneventful.newcomers (asked.newcomers.imp_right fun ⟨now, same⟩ => ⟨(), now, same⟩)
  sources := .uncharged uneventful.sources asked.sources
  players := .uncharged uneventful.players asked.players
  located peer session now opens := absurd opens (uneventful.not_opens peer session now)

end Uneventful

/-! The gates at a hello. -/
section Hellos
variable {cfg : Config F} {boot : Nat} {server after : Server F} {moment : Moment} {event : Event} {peer : PeerId}
  {hello : ClientHello}

theorem Charges.asked {charged : Server F} (charges : Charges server moment peer hello charged) :
    Asked server charged := by
  cases charges with
  | hello => exact .still rfl rfl rfl
  | source presented => exact ⟨Or.inl rfl, Or.inr ⟨_, _, rfl⟩, Or.inl rfl⟩
  | identity presented fresh =>
      unfold identityCharged
      split
      · exact ⟨Or.inl rfl, Or.inr ⟨_, _, rfl⟩, Or.inr ⟨_, _, rfl⟩⟩
      · exact ⟨Or.inr ⟨_, rfl⟩, Or.inr ⟨_, _, rfl⟩, Or.inl rfl⟩

omit [Platform F] in
theorem hasIdentity_same {db later : Db F} (same : SameIdentities db later) {identityHash : String}
    (known : HasIdentity later identityHash) : HasIdentity db identityHash := by
  obtain ⟨row, member, own⟩ := known
  obtain ⟨old, present, equal⟩ := same.row_of member
  exact ⟨old, present, (congrArg Prod.fst equal).trans own⟩

theorem quiet_moves (sessions : after.sessions = server.sessions) (same : SameIdentities server.db after.db)
    (asked : Asked server after) : GateMoves cfg ⟨server, .handle moment event, after⟩ := by
  refine Uneventful.moves ⟨?_, fun _ known => hasIdentity_same same known⟩ asked
  intro other vacant
  exact (congrArg (fun sessions => sessions.get? other) sessions).trans vacant

def admissionView (server : Server F) :=
  (server.sessions, server.db, server.newSessionLimiter, server.sourceSessionLimiter, server.reconnectLimiter)

/-- A hello that gets no further than the gates. -/
theorem charged_moves {charged : Server F} (charges : Charges server moment peer hello charged)
    (view : admissionView after = admissionView charged) :
    GateMoves cfg ⟨server, .handle moment event, after⟩ := by
  simp only [admissionView, Prod.mk.injEq] at view
  obtain ⟨sessions, tables, newcomers, sources, players⟩ := view
  have frame := charges.frame
  have same : after.db = server.db := tables.trans (congrArg Server.db frame :)
  obtain ⟨one, two, three⟩ := Charges.asked charges
  refine quiet_moves (sessions.trans (congrArg Server.sessions frame :)) (same ▸ .refl _) ⟨?_, ?_, ?_⟩
  · rwa [newcomers]
  · rwa [sources]
  · rwa [players]

section Joining
variable {identityHash name : String} {ip : IpAddr} {row : PlayerRow} {db : Db F}

/-- No throttle has met the id of a new row. -/
theorem newcomer_unheld (registered : Registered boot server) (formed : WellFormed db)
    (grown : identities db = identities server.db ++ [(identityHash, row.id)]) :
    row.id.toUInt64 ∉ server.reconnectLimiter.last.keys := by
  intro held
  obtain ⟨old, member, own⟩ := registered.keys _ held
  have ids : db.players.map PlayerRow.id = server.db.players.map PlayerRow.id ++ [row.id] := by
    simpa [identities, identityOf, Function.comp_def] using congrArg (List.map Prod.snd) grown
  have unique := formed.ids
  rw [ids, List.nodup_append] at unique
  rw [Int64.toInt64_toUInt64] at own
  exact unique.2.2 old.id (List.mem_map_of_mem member) row.id (List.mem_singleton_self _) own

/-- What an admission does to the gates, all of which let it pass. -/
theorem enrolled_gates (registered : Registered boot server)
    (gated : Gated server moment peer hello identityHash name ip)
    (admitted : Admitted server.db identityHash name moment.persistenceMs server.cfg.maxPlayerRowsU32
      (.admitted row) db) :
    let joining := enrolled server moment peer ip identityHash row.id.toUInt64 db
    joining.sourceSessionLimiter = (server.sourceSessionLimiter.allow ip moment.admissionMs).1 ∧
      joining.reconnectLimiter = (server.reconnectLimiter.allow row.id.toUInt64 moment.admissionMs).1 ∧
      (server.reconnectLimiter.allow row.id.toUInt64 moment.admissionMs).2 = true ∧
      ((joining.newSessionLimiter = server.newSessionLimiter ∧ SameIdentities server.db db) ∨
        (joining.newSessionLimiter = (server.newSessionLimiter.allow moment.admissionMs).1 ∧
          (server.newSessionLimiter.allow moment.admissionMs).2 = true)) := by
  have rested := gated.rested
  have sources : (enrolled server moment peer ip identityHash row.id.toUInt64 db).sourceSessionLimiter =
      (server.sourceSessionLimiter.allow ip moment.admissionMs).1 := by
    unfold enrolled identityCharged
    split <;> rfl
  refine ⟨sources, ?_⟩
  obtain ⟨recorded, -⟩ := registered.recorded admitted
  unfold enrolled identityCharged
  unfold identityRested at rested
  cases recorded with
  | returning known same =>
      simp only [known] at rested ⊢
      exact ⟨trivial, rested, Or.inl ⟨rfl, same⟩⟩
  | newcomer unknown grown room =>
      simp only [unknown] at rested ⊢
      have unheld := newcomer_unheld registered (admitted.wellFormed registered.formed) grown
      have space := (registered.room_new room row.id.toUInt64).resolve_left unheld
      exact ⟨trivial, (bounded_allow_fresh unheld space _).1, Or.inr ⟨trivial, rested⟩⟩

/-- A stage whose one admission is let pass by every gate it is charged to. -/
theorem admitted_moves {player : UInt64}
    (sources : after.sourceSessionLimiter = (server.sourceSessionLimiter.allow ip moment.admissionMs).1)
    (fresh : (server.sourceSessionLimiter.allow ip moment.admissionMs).2 = true)
    (located : ∃ addr, server.host.peerAddr peer = some addr ∧ addr.ip = ip)
    (players : after.reconnectLimiter = (server.reconnectLimiter.allow player moment.admissionMs).1)
    (rested : (server.reconnectLimiter.allow player moment.admissionMs).2 = true)
    (newcomers : (after.newSessionLimiter = server.newSessionLimiter ∧ SameIdentities server.db after.db) ∨
      (after.newSessionLimiter = (server.newSessionLimiter.allow moment.admissionMs).1 ∧
        (server.newSessionLimiter.allow moment.admissionMs).2 = true))
    (only : ∀ other session, server.sessions.get? other = none → after.sessions.get? other = some session →
      other = peer ∧ session.playerId = player) :
    GateMoves cfg ⟨server, .handle moment event, after⟩ := by
  refine ⟨?_, ?_, ?_, ?_⟩
  · rcases newcomers with ⟨unasked, same⟩ | ⟨asked, passed⟩
    · refine .uncharged ?_ (Or.inl unasked)
      rintro _ now ⟨identityHash, -, unknown, known⟩
      exact unknown (hasIdentity_same same known)
    · rw [show (Stage.mk server (.handle moment event) after).after.newSessionLimiter = _ from asked]
      refine .asked () moment.admissionMs ?_
      rintro _ now ⟨identityHash, ⟨_, _, ⟨⟩, rfl⟩, -⟩
      exact ⟨rfl, rfl, passed⟩
  · rw [show (Stage.mk server (.handle moment event) after).after.sourceSessionLimiter = _ from sources]
    refine .asked ip moment.admissionMs ?_
    rintro other now ⟨opened, session, addr, ⟨⟨_, _, ⟨⟩, rfl⟩, vacant, found⟩, held, own⟩
    obtain ⟨rfl, -⟩ := only opened session vacant found
    obtain ⟨addr, lives, source⟩ := located
    have same := Option.some.inj (held.symm.trans lives)
    exact ⟨own.symm.trans (same ▸ source), rfl, fresh⟩
  · rw [show (Stage.mk server (.handle moment event) after).after.reconnectLimiter = _ from players]
    refine .asked player moment.admissionMs ?_
    rintro other now ⟨opened, session, ⟨⟨_, _, ⟨⟩, rfl⟩, vacant, found⟩, own⟩
    exact ⟨own.symm.trans (only opened session vacant found).2, rfl, rested⟩
  · rintro opened session now ⟨-, vacant, found⟩
    obtain ⟨rfl, -⟩ := only opened session vacant found
    obtain ⟨addr, lives, -⟩ := located
    exact ⟨addr, lives⟩

theorem joined_moves {middle numbered : Server F} {generation : UInt64} {reply : ServerHello F}
    (registered : Registered boot server) (gated : Gated server moment peer hello identityHash name ip)
    (admitted : Admitted server.db identityHash name moment.persistenceMs server.cfg.maxPlayerRowsU32
      (.admitted row) db)
    (superseded : Superseded (enrolled server moment peer ip identityHash row.id.toUInt64 db)
      row.id.toUInt64 middle)
    (numbering : Numbered (placedAtOrigin middle row.id.toUInt64) numbered generation) :
    GateMoves cfg ⟨server, .handle moment event, entered numbered peer (withGeneration generation
      (firstSession server row.id.toUInt64 identityHash name)) reply⟩ := by
  have frame := entered_frame peer
    (withGeneration generation (firstSession server row.id.toUInt64 identityHash name)) reply superseded numbering
  obtain ⟨sources, players, rested, newcomers⟩ := enrolled_gates registered gated admitted
  have kept : (enrolled server moment peer ip identityHash row.id.toUInt64 db).sessions = server.sessions :=
    (congrArg Server.sessions (enrolled_calm server moment peer ip identityHash row.id.toUInt64 db).1 :)
  have tables := (congrArg Server.db frame :).trans (enrolled_db server moment peer ip identityHash row.id.toUInt64 db)
  have throttle := (congrArg Server.newSessionLimiter frame :)
  refine admitted_moves ((congrArg Server.sourceSessionLimiter frame :).trans sources) gated.fresh
    gated.presented.located ((congrArg Server.reconnectLimiter frame :).trans players) rested ?_ ?_
  · refine newcomers.imp (fun ⟨unasked, same⟩ => ⟨throttle.trans unasked, ?_⟩)
      fun ⟨asked, passed⟩ => ⟨throttle.trans asked, passed⟩
    exact ⟨(congrArg identities tables).trans same.rows, (congrArg Db.playerSequence tables).trans same.sequence⟩
  · intro other session vacant found
    rcases entered_sessions peer _ reply superseded numbering found with ⟨here, rfl⟩ | ⟨-, old, held, -⟩
    · exact ⟨here, rfl⟩
    · rw [kept, vacant] at held
      cases held

end Joining

theorem hello_moves (registered : Registered boot server) {result : Except ServerError Unit}
    (effect : HelloEffect server moment peer hello (after, result)) :
    GateMoves cfg ⟨server, .handle moment event, after⟩ := by
  cases effect with
  | silent charges storage => exact charged_moves charges rfl
  | answered charges other => exact charged_moves charges rfl
  | full gated unknown crowded => exact charged_moves (.identity gated.presented gated.fresh) rfl
  | faulted gated admitted fault => exact absurd fault (registered.no_fault admitted)
  | repeated found greets => exact quiet_moves rfl (.refl _) (.still rfl rfl rfl)
  | joined gated admitted consistent superseded numbering greets =>
      exact joined_moves registered gated admitted superseded numbering

variable [Codec F]

theorem handle_moves (registered : Registered boot server) (effect : Effect server moment event after) :
    GateMoves cfg ⟨server, .handle moment event, after⟩ := by
  cases effect with
  | ignored other => exact quiet_moves rfl (.refl _) (.still rfl rfl rfl)
  | request found effect =>
      cases effect with
      | served served =>
          have frame := served.frame
          exact quiet_moves (congrArg Server.sessions frame :) served.identities
            (.still (congrArg Server.newSessionLimiter frame :) (congrArg Server.sourceSessionLimiter frame :)
              (congrArg Server.reconnectLimiter frame :))
      | moved motion state cell placed =>
          refine Uneventful.moves ⟨?_, fun _ known => known⟩ (.still rfl rfl rfl)
          intro other vacant
          have apart : other ≠ _ := fun same => by
            rw [same, show server.sessions.get? _ = _ from found] at vacant
            cases vacant
          exact (FiniteMap.get?_insert _ _ _ _).trans (by rw [if_neg apart]; exact vacant)
      | spoke here about captured => exact quiet_moves rfl (.refl _) (.still rfl rfl rfl)
  | hello decoded effect => exact hello_moves registered effect
  | absent vacant => exact quiet_moves rfl (.refl _) (.still rfl rfl rfl)
  | persisted found stored =>
      refine Uneventful.moves ⟨?_, fun _ known => hasIdentity_same (.touchLastSeen _ _ _) known⟩ (.still rfl rfl rfl)
      intro other vacant
      exact (FiniteMap.get?_erase _ _ _).trans (by rw [show server.sessions.get? other = none from vacant, ite_self])
  | unpersisted found failing =>
      refine Uneventful.moves ⟨?_, fun _ known => known⟩ (.still rfl rfl rfl)
      intro other vacant
      exact (FiniteMap.get?_erase _ _ _).trans (by rw [show server.sessions.get? other = none from vacant, ite_self])

end Hellos
end Admissions

/-! Runs. -/
section Runs
variable {F : Type} [Platform F] [Codec F] {db : Db F} {trace : List (Stage F)} {server : Server F}
  {pending : List Event} {stage : Stage F}

omit [Codec F] in
/-- Only handled events admit anybody. -/
theorem unhandled_moves {cfg : Config F} (unhandled : ∀ moment event, stage.action ≠ .handle moment event)
    (newcomers : stage.after.newSessionLimiter = stage.before.newSessionLimiter)
    (sources : stage.after.sourceSessionLimiter = stage.before.sourceSessionLimiter)
    (players : stage.after.reconnectLimiter = stage.before.reconnectLimiter) : GateMoves cfg stage := by
  have unopened : ∀ peer session now, ¬ Opens stage peer session now := by
    rintro peer session now ⟨⟨moment, event, handled, -⟩, -⟩
    exact unhandled moment event handled
  refine ⟨.uncharged ?_ (Or.inl newcomers), .uncharged ?_ (Or.inl sources), .uncharged ?_ (Or.inl players),
    fun peer session now opens => absurd opens (unopened peer session now)⟩
  · rintro key now ⟨identityHash, ⟨moment, event, handled, -⟩, -⟩
    exact unhandled moment event handled
  · rintro ip now ⟨peer, session, addr, opens, -⟩
    exact unopened peer session now opens
  · rintro player now ⟨peer, session, opens, -⟩
    exact unopened peer session now opens

/-- What the gates of a run remember of its stages. -/
structure Paced (trace : List (Stage F)) (server : Server F) : Prop where
  newcomers : Spaced (globalCooldown (newcomerGap server.cfg.toConfig)) newcomerCharge trace server.newSessionLimiter
  sources : Spaced (boundedCooldown IpAddr (sourceGap server.cfg.toConfig)) sourceCharge trace
    server.sourceSessionLimiter
  players : Spaced (boundedCooldown UInt64 (playerGap server.cfg.toConfig)) playerCharge trace
    server.reconnectLimiter
  located : ∀ stage ∈ trace, ∀ peer session now, Opens stage peer session now →
    ∃ addr, stage.before.host.peerAddr peer = some addr

omit [Codec F] in
theorem Paced.snoc (paced : Paced trace stage.before) (cfg : stage.after.cfg = stage.before.cfg)
    (moves : GateMoves stage.before.cfg.toConfig stage) : Paced (trace ++ [stage]) stage.after := by
  refine ⟨?_, ?_, ?_, ?_⟩
  · rw [cfg]
    exact paced.newcomers.snoc moves.newcomers
  · rw [cfg]
    exact paced.sources.snoc moves.sources
  · rw [cfg]
    exact paced.players.snoc moves.players
  · intro other member
    rcases List.mem_append.mp member with earlier | last
    · exact paced.located other earlier
    · rw [List.mem_singleton.mp last]
      exact moves.located

theorem ready_empty {Key : Type} [LinearOrder Key] {interval : Int64} {gap : Int} (measures : Measures interval gap)
    (maxKeys : Nat) : Ready gap ({ minIntervalMs := interval, maxKeys } : BoundedRateLimiter Key) :=
  ⟨measures.positive, measures.exact, by simp [InStep]⟩

theorem run_paced (formed : WellFormed db) (run : Run db trace server pending) : Paced trace server := by
  induction run with
  | @start cfg epochMs weatherSeed server opened =>
      obtain ⟨identityPlayers, -, rfl⟩ := new_opened opened
      obtain ⟨newcomers, sources, players⟩ := valid_intervals cfg
      exact ⟨spaced_nil ⟨newcomers.positive, newcomers.exact⟩, spaced_nil (ready_empty sources _),
        spaced_nil (ready_empty players _), by rintro _ ⟨⟩⟩
  | poll now script run polled ih =>
      exact ih.snoc rfl (unhandled_moves (by rintro _ _ ⟨⟩) rfl rfl rfl)
  | @handle trace server event pending moment run ih =>
      exact ih.snoc (outcome_cfg (handleEvent_outcome run.inv moment event))
        (handle_moves (reachable_registered formed run.reachable) (handleEvent_effect run.inv moment event))
  | @tick trace server pending tick run ih =>
      have gates := (tick_gates server tick).1
      simp only [gateView, Prod.mk.injEq] at gates
      obtain ⟨cfg, -, -, -, sources, players, newcomers, -⟩ := gates
      exact ih.snoc cfg (unhandled_moves (by rintro _ _ ⟨⟩) newcomers sources players)

/-- Of any two stages of a run, by the times of the hellos they handled and in whatever order those are:
two new identities are `new_session_min_interval_ms` apart, two sessions from one source address more than
twice that, and two sessions of one player `hello_min_interval_ms`. -/
theorem admissions_spaced (formed : WellFormed db) (run : Run db trace server pending) :
    trace.Pairwise fun earlier later => ∀ before after,
      (∀ first second, Enrols earlier first before → Enrols later second after →
        (server.cfg.newSessionMinIntervalMs.toNat : Int) ≤ after.toInt - before.toInt) ∧
      ∀ peer session other newer, Opens earlier peer session before → Opens later other newer after →
        (∃ source addr, earlier.before.host.peerAddr peer = some source ∧
          later.before.host.peerAddr other = some addr ∧ (source.ip = addr.ip →
            2 * (server.cfg.newSessionMinIntervalMs.toNat : Int) + 1 ≤ after.toInt - before.toInt)) ∧
        (session.playerId = newer.playerId →
          (server.cfg.helloMinIntervalMs.toNat : Int) ≤ after.toInt - before.toInt) := by
  have paced := run_paced formed run
  have apart := (paced.newcomers.apart.and paced.sources.apart).and paced.players.apart
  refine List.Pairwise.imp_of_mem ?_ apart
  rintro earlier later first second ⟨⟨newcomers, sources⟩, players⟩ before after
  refine ⟨?_, ?_⟩
  · intro one other enrols again
    have spaced := newcomers () before after ⟨one, enrols⟩ ⟨other, again⟩
    simp only [globalCooldown, newcomerGap] at spaced
    omega
  · intro peer session other newer opens again
    obtain ⟨source, located⟩ := paced.located earlier first peer session before opens
    obtain ⟨addr, lives⟩ := paced.located later second other newer after again
    refine ⟨⟨source, addr, located, lives, fun same => ?_⟩, fun same => ?_⟩
    · have spaced := sources addr.ip before after ⟨peer, session, source, opens, located, same⟩
        ⟨other, newer, addr, again, lives, rfl⟩
      simp only [boundedCooldown, sourceGap, newcomerGap] at spaced
      omega
    · have spaced := players newer.playerId before after ⟨peer, session, opens, same⟩ ⟨other, newer, again, rfl⟩
      simp only [boundedCooldown, playerGap] at spaced
      omega

end Runs

/-- A second later the second newcomer is welcome too. -/
theorem admissions_spaced_joined :
    (∃ earlier ∈ joinStages, Enrols earlier (tokenHash "first") 1000) ∧
      (∃ later ∈ joinStages, Enrols later (tokenHash "second") 2000) ∧
      (joinedServer.cfg.newSessionMinIntervalMs.toNat : Int) ≤ 1000 := by
  have none : boardedServer.db.players.map PlayerRow.tokenHash = [] := by decide +kernel
  have one : greetedServer.db.players.map PlayerRow.tokenHash = [tokenHash "first"] := by decide +kernel
  have two : joinedServer.db.players.map PlayerRow.tokenHash = [tokenHash "first", tokenHash "second"] := by
    decide +kernel
  have identity : ∀ (db : Db Int) identityHash, HasIdentity db identityHash ↔
      identityHash ∈ db.players.map PlayerRow.tokenHash := by
    simp [HasIdentity]
  have first : Enrols ⟨boardedServer, .handle (calmAt 1000) (.data 1 [1]), greetedServer⟩
      (tokenHash "first") 1000 := by
    refine ⟨⟨_, _, rfl, rfl⟩, ?_, ?_⟩
    · simp [identity, none]
    · simp [identity, one]
  have second : Enrols ⟨greetedServer, .handle (calmAt 2000) (.data 2 [2]), joinedServer⟩
      (tokenHash "second") 2000 := by
    refine ⟨⟨_, _, rfl, rfl⟩, ?_, ?_⟩
    · simp only [identity, one, List.mem_singleton]
      decide +kernel
    · simp [identity, two]
  have spaced := admissions_spaced wellFormed_emptyDb joinStages_run
  have last : [⟨boardedServer, .handle (calmAt 1000) (.data 1 [1]), greetedServer⟩,
      ⟨greetedServer, .handle (calmAt 2000) (.data 2 [2]), joinedServer⟩] <:+ joinStages := ⟨joinStages.take 3, rfl⟩
  have gap := ((List.pairwise_cons.mp (spaced.sublist last.sublist)).1 _ (List.mem_singleton_self _) 1000 2000).1
    _ _ first second
  exact ⟨⟨_, last.subset List.mem_cons_self, first⟩,
    ⟨_, last.subset (List.mem_cons_of_mem _ (List.mem_singleton_self _)), second⟩, gap⟩

end SailwindOnline.AdmissionSpacing
