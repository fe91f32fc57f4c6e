import SailwindOnline.Enrolment

/-!
Hellos and the sessions they concern. A hello that is not accepted leaves
everything but the gates' throttles as it was; a second hello of an established
session is answered from that session; and a session keeps its player and its
identity for as long as it lasts.
-/

namespace SailwindOnline.HelloAnswers
open Server SessionIndex SessionRuns Effects TickEffects Traces PlayerTable Persistence FlushQueue Enrolment

/-! Refusals. -/
section Refusals
variable {F : Type} [Platform F] {boot : Nat} {server after : Server F} {peer : PeerId} {moment : Moment}
  {hello : ClientHello} {result : Except ServerError Unit}

/-- Among the datagrams sent since `server` is a `ServerHello` that accepts. -/
def SendsAccepted (server after : Server F) : Prop :=
  ∃ post ∈ after.sent.drop server.sent.length, ∃ reply, post.2.payload = .serverHello reply ∧ reply.accepted = true

theorem sendsAccepted_of_sent {other : PeerId} {seq : UInt32} {reply : ServerHello F}
    (sent : after.sent = server.sent ++ [(other, { seq, payload := .serverHello reply })])
    (accepted : reply.accepted = true) : SendsAccepted server after := by
  refine ⟨(other, { seq, payload := .serverHello reply }), ?_, reply, rfl, accepted⟩
  rw [sent, List.drop_left]
  exact List.mem_singleton_self _

theorem refused_frame (registered : Registered boot server)
    (effect : HelloEffect server moment peer hello (after, result)) (refused : ¬ SendsAccepted server after) :
    helloFrame after = helloFrame server := by
  cases effect with
  | silent charges storage => exact charges.frame
  | answered charges other => exact charges.frame
  | full gated unknown crowded => exact identityCharged_frame _ _ _ _ _
  | faulted gated admitted fault => exact absurd fault (registered.no_fault admitted)
  | repeated found greets => exact absurd (sendsAccepted_of_sent rfl greets.accepted) refused
  | @joined identityHash name ip row db middle numbered generation reply gated admitted consistent superseded
      numbering greets =>
      have sent := entered_sent peer
        (withGeneration generation (firstSession server row.id.toUInt64 identityHash name)) reply superseded numbering
      rw [(enrolled_calm server moment peer ip identityHash row.id.toUInt64 db).2] at sent
      exact absurd (sendsAccepted_of_sent sent greets.accepted) refused

end Refusals

/-! A second hello. -/
section Repeats
variable {F : Type} [Platform F] {server : Server F} {peer : PeerId} {moment : Moment} {hello : ClientHello}
  {session : Session F} {token name : String}

/-- An unthrottled hello with good strings. -/
structure Audible (server : Server F) (moment : Moment) (peer : PeerId) (hello : ClientHello)
    (token name : String) : Prop where
  heard : (server.helloLimiter.allow (UInt64.ofNat peer) moment.admissionMs).2 = true
  version : hello.protocolVersion = protocolVersion
  read : validateHello server.cfg.maxWireStringLenUsize hello = .ok (token, name)

/-- The server once it has answered a hello of an established session. -/
def replied (server : Server F) (moment : Moment) (peer : PeerId) (reply : ServerHello F) : Server F :=
  { server with
    helloLimiter := (server.helloLimiter.allow (UInt64.ofNat peer) moment.admissionMs).1
    seq := server.seq + 1
    sent := server.sent ++ [(peer, { seq := server.seq + 1, payload := .serverHello reply })] }

theorem onHelloAt_repeat (audible : Audible server moment peer hello token name)
    (found : server.sessions.get? peer = some session) :
    server.onHelloAt moment peer hello =
      (helloCharged server moment peer).repeatHello moment peer session (tokenHash token) := by
  unfold onHelloAt
  simp only [audible.heard, audible.version, audible.read, found, Bool.not_true, Bool.false_eq_true, if_false,
    ne_eq, not_true_eq_false]
  rfl

theorem repeat_accepted (audible : Audible server moment peer hello token name)
    (found : server.sessions.get? peer = some session) (own : tokenHash token = session.identityHash)
    (stored : moment.fails 0 = false) : ∃ reply,
      Greets reply session.playerId (server.db.playerBalance session.playerId.toInt64) ∧
      server.onHelloAt moment peer hello = (replied server moment peer reply, .ok ()) := by
  rw [onHelloAt_repeat audible found, repeatHello, own]
  simp only [ne_eq, not_true_eq_false, if_false, stored, attempt, Bool.false_eq_true]
  exact ⟨_, ⟨rfl, rfl, rfl⟩, rfl⟩

theorem repeat_rejected (audible : Audible server moment peer hello token name)
    (found : server.sessions.get? peer = some session) (other : tokenHash token ≠ session.identityHash) :
    ∃ reply, reply.accepted = false ∧ reply.reason = "identity change requires a new connection" ∧
      server.onHelloAt moment peer hello = (replied server moment peer reply, .ok ()) := by
  rw [onHelloAt_repeat audible found, repeatHello, if_pos (Ne.symm other)]
  exact ⟨_, rfl, rfl, rfl⟩

omit [Platform F] in
theorem playerBalance_row {db : Db F} {player : UInt64} (known : HasRow db player) :
    ∃ row, db.player player.toInt64 = some row ∧ db.playerBalance player.toInt64 = row.gold := by
  obtain ⟨row, member, own⟩ := known
  have present : (db.player player.toInt64).isSome := by
    simp only [Db.player, List.find?_isSome, decide_eq_true_eq]
    exact ⟨row, member, own⟩
  obtain ⟨first, found⟩ := Option.isSome_iff_exists.mp present
  exact ⟨first, found, by simp [Db.playerBalance, found]⟩

end Repeats

/-! The life of a session. -/
section Lives
variable {F : Type} [Platform F] {server after : Server F} {peer : PeerId}

/-- Who a session belongs to. -/
def credentials (session : Session F) : UInt64 × String := (session.playerId, session.identityHash)

theorem outcome_credentials {moment : Moment} {event : Event} (outcome : Outcome server moment event after)
    {old later : Session F} (held : server.sessions.get? peer = some old)
    (found : after.sessions.get? peer = some later) : credentials later = credentials old := by
  have unchanged : server.sessions.get? peer = some later → credentials later = credentials old := by
    intro same
    rw [held] at same
    cases same
    rfl
  cases outcome with
  | calm frame posts kept =>
      have same : after.sessions = server.sessions := (congrArg Server.sessions frame :)
      exact unchanged (same ▸ found)
  | @moved other bytes session present motion state cell placed =>
      simp only [FiniteMap.get?_insert] at found
      split at found <;> rename_i own
      · subst own
        rw [held] at present
        cases present
        cases found
        rfl
      · exact unchanged found
  | spoke present here about captured => exact unchanged found
  | @joined other bytes base middle numbered player identityHash name generation reply vacant frame posts superseded
      numbering =>
      have sessions : base.sessions = server.sessions := (congrArg Server.sessions frame :)
      rcases entered_sessions other _ reply superseded numbering found with ⟨same, -⟩ | ⟨-, prior, present, -, same⟩
      · rw [same, vacant] at held
        cases held
      · rw [sessions, held] at present
        cases present
        exact (congrArg credentials same :)
  | @left other reason session db flushPlayers dirtyPlayers flushPaused present =>
      simp only [departed, dropped, FiniteMap.get?_erase] at found
      split at found
      · cases found
      · exact unchanged found

variable [Codec F]

theorem tick_credentials (server : Server F) (tick : Tick) (peer : PeerId) :
    ((tick.run server).sessions.get? peer).map credentials = (server.sessions.get? peer).map credentials := by
  have viewed : ∀ {rest : Server F → Server F} {view : Session F → Session F} {topics : List Topic}
      {after : Server F}, Touches rest view topics server after →
      (∀ session, credentials (view session) = credentials session) →
      (after.sessions.get? peer).map credentials = (server.sessions.get? peer).map credentials := by
    intro rest view topics after touches blind
    have same := congrArg (Option.map credentials) (touches.sessions peer)
    simpa [Option.map_map, Function.comp_def, blind] using same
  cases tick with
  | aoi fails => exact viewed (processAoiWork_effect server fails) fun _ => rfl
  | snapshots => exact viewed (broadcastSnapshots_effect server) fun _ => rfl
  | fanout =>
      have sessions := (congrArg Server.sessions (processFanoutWork_run server).frame :)
      exact congrArg (fun sessions => (sessions.get? peer).map credentials) sessions
  | dirtyFlush fails now => exact viewed (processDirtyFlushAt_effect server fails now).toTouches fun _ => rfl
  | beginFlush => rfl
  | clock clockMs =>
      have sessions := (congrArg Server.sessions (broadcastClock_frame server clockMs) :)
      exact congrArg (fun sessions => (sessions.get? peer).map credentials) sessions

variable {db : Db F} {pending : List Event} {early later : List (Stage F)} {stage : Stage F} {session : Session F}

theorem stage_credentials (inv : Inv pending stage.before) (lawful : stage.Lawful) {old new : Session F}
    (held : stage.before.sessions.get? peer = some old) (found : stage.after.sessions.get? peer = some new) :
    credentials new = credentials old := by
  obtain ⟨before, action, after, rfl, move⟩ := lawful_move inv lawful
  cases move with
  | poll host =>
      rw [show _ = some old from held, Option.some.injEq] at found
      rw [found]
  | handle outcome => exact outcome_credentials outcome held found
  | tick tick =>
      have same := tick_credentials before tick peer
      rw [show _ = some old from held, show _ = some new from found] at same
      exact Option.some.inj same

/-- As long as `peer` has a session, it is the session of one player under one identity. -/
theorem life_credentials (run : Run db (early ++ stage :: later) server pending)
    (held : stage.before.sessions.get? peer = some session)
    (lasting : ∀ next ∈ stage :: later, (next.after.sessions.get? peer).isSome) :
    ∃ last, server.sessions.get? peer = some last ∧ credentials last = credentials session := by
  induction later using List.reverseRecOn generalizing server pending with
  | nil =>
      obtain ⟨⟨waiting, shorter⟩, lawful, rfl⟩ := Run.unsnoc run
      obtain ⟨last, found⟩ := Option.isSome_iff_exists.mp (lasting stage (List.mem_singleton_self _))
      exact ⟨last, found, stage_credentials shorter.inv lawful held found⟩
  | append_singleton later next ih =>
      rw [← List.cons_append, ← List.append_assoc] at run
      obtain ⟨⟨waiting, shorter⟩, lawful, rfl⟩ := run.unsnoc
      obtain ⟨middle, present, same⟩ := ih shorter fun other member => lasting other (by
        rw [← List.cons_append]
        exact List.mem_append_left _ member)
      obtain ⟨last, found⟩ := Option.isSome_iff_exists.mp (lasting next (by simp))
      exact ⟨last, found, (stage_credentials shorter.inv lawful present found).trans same⟩

/-- In every reachable state: a hello that is not accepted changes nothing but the gates' throttles and
the sequence number; a second hello of a session is answered from the session or rejected for its other
identity; and a session never changes hands. -/
theorem hello_effects_framed {trace : List (Stage F)} (formed : WellFormed db) (run : Run db trace server pending) :
    (∀ moment peer hello, ¬ SendsAccepted server (server.onHelloAt moment peer hello).1 →
      helloFrame (server.onHelloAt moment peer hello).1 = helloFrame server) ∧
    (∀ moment peer hello token name session, Audible server moment peer hello token name →
      server.sessions.get? peer = some session →
      (tokenHash token = session.identityHash → moment.fails 0 = false → ∃ reply row,
        server.db.player session.playerId.toInt64 = some row ∧ Greets reply session.playerId row.gold ∧
          server.onHelloAt moment peer hello = (replied server moment peer reply, .ok ())) ∧
      (tokenHash token ≠ session.identityHash → ∃ reply, reply.accepted = false ∧
        reply.reason = "identity change requires a new connection" ∧
          server.onHelloAt moment peer hello = (replied server moment peer reply, .ok ()))) ∧
    (∀ early stage later peer session, trace = early ++ stage :: later →
      stage.before.sessions.get? peer = some session →
      (∀ next ∈ stage :: later, (next.after.sessions.get? peer).isSome) →
      ∃ last, server.sessions.get? peer = some last ∧ last.playerId = session.playerId ∧
        last.identityHash = session.identityHash) := by
  have registered := reachable_registered formed run.reachable
  refine ⟨?_, ?_, ?_⟩
  · intro moment peer hello refused
    exact refused_frame registered (onHelloAt_effect run.inv moment hello) refused
  · intro moment peer hello token name session audible found
    refine ⟨fun own stored => ?_, fun other => repeat_rejected audible found other⟩
    obtain ⟨reply, greets, done⟩ := repeat_accepted audible found own stored
    obtain ⟨row, present, balance⟩ :=
      playerBalance_row ((run_flushInv run).rooted _ (tracked_of_session found))
    exact ⟨reply, row, present, balance ▸ greets, done⟩
  · rintro early stage later peer session rfl held lasting
    obtain ⟨last, found, same⟩ := life_credentials run held lasting
    exact ⟨last, found, congrArg Prod.fst same, congrArg Prod.snd same⟩

end Lives

/-- The first client says hello again, and then once more under another name. -/
theorem hello_effects_framed_joined :
    (∃ reply : ServerHello Int, reply.accepted = true ∧ reply.playerId = 1 ∧
      joinedServer.onHelloAt (calmAt 9000) 1 (helloOf "first") =
        (replied joinedServer (calmAt 9000) 1 reply, .ok ())) ∧
      ∃ reply : ServerHello Int, reply.accepted = false ∧
        joinedServer.onHelloAt (calmAt 9000) 1 (helloOf "other") =
          (replied joinedServer (calmAt 9000) 1 reply, .ok ()) := by
  obtain ⟨trace, run⟩ := exists_run joinedServer_reached
  obtain ⟨-, repeats, -⟩ := hello_effects_framed wellFormed_emptyDb run
  have joined : (joinedServer.sessions.get? 1).map credentials = some (1, tokenHash "first") := by decide +kernel
  obtain ⟨session, found, own⟩ := Option.map_eq_some_iff.mp joined
  have player : session.playerId = 1 := congrArg Prod.fst own
  have hash : session.identityHash = tokenHash "first" := congrArg Prod.snd own
  have heard : (joinedServer.helloLimiter.allow (UInt64.ofNat 1) (calmAt 9000).admissionMs).2 = true := by
    decide +kernel
  have limit : joinedServer.cfg.maxWireStringLenUsize = 512 := by decide +kernel
  constructor
  · obtain ⟨reply, row, -, greets, done⟩ := (repeats (calmAt 9000) 1 (helloOf "first") "first" "sailor" session
      ⟨heard, rfl, by rw [limit]; decide +kernel⟩ found).1 hash.symm rfl
    exact ⟨reply, greets.accepted, greets.playerId.trans player, done⟩
  · obtain ⟨reply, refused, -, done⟩ := (repeats (calmAt 9000) 1 (helloOf "other") "other" "sailor" session
      ⟨heard, rfl, by rw [limit]; decide +kernel⟩ found).2 (by rw [hash]; decide +kernel)
    exact ⟨reply, refused, done⟩

end SailwindOnline.HelloAnswers
