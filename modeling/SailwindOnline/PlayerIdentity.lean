import SailwindOnline.WorldTime
import SailwindOnline.HelloAnswers
import SailwindOnline.Disclosure

/-!
Whom a greeting names. Every accepted hello is answered with the id and the
gold of the one row its token has in the database file, and rows outlive the
server; so two clients of any two processes are told the same id exactly when
their tokens have the same hash.
-/

namespace SailwindOnline.PlayerIdentity
open Persistence PlayerTable Server Traces Effects TickEffects SessionRuns Enrolment HelloAnswers TableWrites TableLaws
  Lifetimes Disclosure WorldTime CellBounds DatabaseFile

/-! What a hello is answered. -/
section Answers
variable {F : Type} [Platform F] {pending : List Event} {server after : Server F} {moment : Moment} {peer : PeerId}
  {hello : ClientHello}

/-- The identity key a hello presents. -/
def presentedHash (hello : ClientHello) : String := tokenHash (hello.token.getD "")

theorem validateHelloString_kept {value kept : Option String} {field : String} {required : Bool} {maxLen : Nat}
    (checked : validateHelloString value field required maxLen = .ok kept) : kept = value := by
  unfold validateHelloString at checked
  split at checked
  · cases checked
  · split at checked
    · split at checked
      · exact (Except.ok.inj checked).symm
      · cases checked
    · exact (Except.ok.inj checked).symm

theorem validateHello_token {maxLen : Nat} {token name : String}
    (read : validateHello maxLen hello = .ok (token, name)) : token = hello.token.getD "" := by
  unfold validateHello at read
  simp only [bind, Except.bind, pure, Except.pure] at read
  repeat' split at read
  all_goals cases read
  have kept := validateHelloString_kept ‹validateHelloString hello.token "token" true maxLen = .ok _›
  exact congrArg (fun token => token.getD "") kept

theorem Presented.hash {identityHash name : String} {ip : IpAddr}
    (presented : Presented server peer hello identityHash name ip) : identityHash = presentedHash hello := by
  obtain ⟨token, read, rfl⟩ := presented.read
  rw [validateHello_token read, presentedHash]

/-- A row of `db` with this identity and this id. -/
def Enrolled (db : Db F) (identityHash : String) (player : UInt64) : Prop :=
  ∃ row ∈ db.players, row.tokenHash = identityHash ∧ row.id.toUInt64 = player

omit [Platform F] in
theorem Enrolled.extends {db later : Db F} {identityHash : String} {player : UInt64}
    (enrolled : Enrolled db identityHash player) (grown : Extends db later) : Enrolled later identityHash player := by
  obtain ⟨row, member, own, id⟩ := enrolled
  obtain ⟨kept, present, same⟩ := grown.row member
  simp only [credential, Prod.mk.injEq] at same
  exact ⟨kept, present, same.2.1.trans own, by rw [same.1, id]⟩

/-- The session's player is enrolled under the session's identity. -/
def Credited (db : Db F) (session : Session F) : Prop := Enrolled db session.identityHash session.playerId

omit [Platform F] in
/-- The balance of an id is the gold of its row. -/
theorem playerBalance_of_mem {db : Db F} (formed : WellFormed db) {row : PlayerRow} (member : row ∈ db.players) :
    db.playerBalance row.id = row.gold := by
  have present : (db.player row.id).isSome := by
    rw [Db.player, List.find?_isSome]
    exact ⟨row, member, by simp⟩
  obtain ⟨first, found⟩ := Option.isSome_iff_exists.mp present
  have own : first.id = row.id := by simpa using List.find?_some found
  obtain rfl : first = row :=
    List.inj_on_of_nodup_map formed.ids (List.mem_of_find?_eq_some found) member own
  simp [Db.playerBalance, found]

omit [Platform F] in
theorem Admitted.listed {db middle : Db F} {identityHash name : String} {now : Int64} {maxRows : UInt32}
    {row : PlayerRow} (admitted : Admitted db identityHash name now maxRows (.admitted row) middle) :
    row ∈ middle.players ∧ row.tokenHash = identityHash := by
  cases admitted with
  | @returning old member own =>
      refine ⟨List.mem_map.mpr ⟨old, member, ?_⟩, own⟩
      rw [if_pos rfl]
  | newcomer unknown room next => exact ⟨by simp, rfl⟩

/-- An accepted answer names a row of the token presented, and its gold. -/
structure Names (db : Db F) (hello : ClientHello) (reply : ServerHello F) : Prop where
  enrolled : Enrolled db (presentedHash hello) reply.playerId
  balance : reply.balanceGold = db.playerBalance reply.playerId.toInt64

/-- The tables once a session has been registered. -/
theorem joined_db {middle numbered : Server F} {identityHash : String} {ip : IpAddr} {player : UInt64} {db : Db F}
    {sender : PeerId} {generation : UInt64}
    (superseded : Superseded (enrolled server moment sender ip identityHash player db) player middle)
    (numbering : Numbered (placedAtOrigin middle player) numbered generation) (peer : PeerId) (session : Session F)
    (reply : ServerHello F) : (entered numbered peer session reply).db = db := by
  have frame := entered_frame peer session reply superseded numbering
  have kept : (entered numbered peer session reply).db =
      (enrolled server moment sender ip identityHash player db).db := (congrArg (fun view => view.db) frame :)
  rw [kept, MoorageOwnership.enrolled_db]

/-- A session is answered again only under its own identity. -/
theorem repeat_own {session : Session F} (found : server.sessions.get? peer = some session)
    {seq : UInt32} {reply : ServerHello F} (accepted : reply.accepted = true)
    (sent : (server.onHelloAt moment peer hello).1.sent = server.sent ++ [(peer, ⟨seq, .serverHello reply⟩)]) :
    session.identityHash = presentedHash hello := by
  have rejected : ∀ {other : Server F} {reason : String}, other.sent = server.sent →
      (other.rejectHello moment peer reason).1.sent ≠ server.sent ++ [(peer, ⟨seq, .serverHello reply⟩)] := by
    intro other reason same posted
    simp only [Server.rejectHello, Server.post, same, helloReply, List.append_cancel_left_eq, List.cons.injEq,
      Prod.mk.injEq, Envelope.mk.injEq, ServerMessage.serverHello.injEq] at posted
    rw [← posted.1.2.2] at accepted
    cases accepted
  unfold onHelloAt at sent
  simp only at sent
  split at sent
  · simp at sent
  split at sent
  · exact absurd sent (rejected rfl)
  split at sent <;> rename_i read
  · exact absurd sent (rejected rfl)
  · simp only [found] at sent
    unfold repeatHello at sent
    split at sent <;> rename_i own
    · exact absurd sent (rejected rfl)
    · rw [not_not.mp own, validateHello_token read, presentedHash]

/-- What a hello is answered, its session and its row. -/
theorem hello_names (inv : Inv pending server) (moment : Moment) (hello : ClientHello)
    (credited : Everyone (Credited server.db) server)
    (formed : WellFormed (server.onHelloAt moment peer hello).1.db) :
    Hands (fun recipient message => ∀ reply, message = .serverHello reply → reply.accepted = true →
        recipient = peer ∧ Names (server.onHelloAt moment peer hello).1.db hello reply)
      server (server.onHelloAt moment peer hello).1 := by
  have effect : HelloEffect server moment peer hello (server.onHelloAt moment peer hello) :=
    onHelloAt_effect inv moment hello
  have repeated := @repeat_own F _ server moment peer hello
  generalize server.onHelloAt moment peer hello = handled at effect repeated formed ⊢
  -- a rejection is handed out as such
  have refused : ∀ {charged : Server F} {reason : String}, charged.sent = server.sent →
      Hands (fun recipient message => ∀ reply, message = .serverHello reply → reply.accepted = true →
        recipient = peer ∧ Names handled.1.db hello reply) server
        (charged.post peer (charged.helloReply moment false reason 0 0)) := by
    intro charged reason same
    refine ⟨_, congrArg (· ++ _) same, ?_⟩
    intro post member reply shown accepted
    rw [List.mem_singleton.mp member] at shown
    obtain rfl := ServerMessage.serverHello.inj shown
    cases accepted
  cases effect with
  | silent charges storage => exact .of_sent (charges_sent charges)
  | answered charges other => exact refused (charges_sent charges)
  | full gated unknown crowded => exact refused (charges_sent (.identity gated.presented gated.fresh))
  | faulted gated admitted fault =>
      have charged : Charges server moment peer hello _ := .identity gated.presented gated.fresh
      exact .of_sent (charges_sent charged :)
  | @repeated session answer found greets =>
      refine ⟨[(peer, _)], rfl, ?_⟩
      intro post member reply shown accepted
      rw [List.mem_singleton.mp member] at shown ⊢
      obtain rfl := ServerMessage.serverHello.inj shown
      have own := repeated found accepted rfl
      have row : Enrolled server.db session.identityHash session.playerId := credited peer session found
      rw [own] at row
      exact ⟨rfl, by rw [greets.playerId]; exact row, by rw [greets.playerId]; exact greets.balance⟩
  | @joined identityHash name ip row db middle numbered generation reply gated admitted consistent superseded
      numbering greets =>
      have tables := joined_db superseded numbering peer
        (withGeneration generation (firstSession server row.id.toUInt64 identityHash name)) reply
      have posted := entered_sent peer
        (withGeneration generation (firstSession server row.id.toUInt64 identityHash name)) reply superseded numbering
      rw [(enrolled_calm server moment peer ip identityHash row.id.toUInt64 db).2] at posted
      rw [tables] at formed
      obtain ⟨listed, own⟩ := Admitted.listed admitted
      refine ⟨[(peer, _)], posted, ?_⟩
      intro post member answer shown accepted
      rw [List.mem_singleton.mp member] at shown ⊢
      obtain rfl := ServerMessage.serverHello.inj shown
      rw [tables]
      refine ⟨rfl, ?_, ?_⟩
      · exact ⟨row, listed, own.trans (Presented.hash gated.presented), greets.playerId.symm⟩
      · rw [greets.playerId, greets.balance, Int64.toInt64_toUInt64, playerBalance_of_mem formed listed]

/-- The session a hello opens is of the row it was given. -/
theorem hello_credited (inv : Inv pending server) (moment : Moment) (hello : ClientHello)
    (vacant : server.sessions.get? peer = none) {session : Session F}
    (found : (server.onHelloAt moment peer hello).1.sessions.get? peer = some session) :
    Credited (server.onHelloAt moment peer hello).1.db session := by
  have effect : HelloEffect server moment peer hello (server.onHelloAt moment peer hello) :=
    onHelloAt_effect inv moment hello
  generalize server.onHelloAt moment peer hello = handled at effect found ⊢
  have absent : ∀ {other : Server F}, other.sessions = server.sessions → other.sessions.get? peer ≠ some session := by
    intro other same present
    rw [same, vacant] at present
    cases present
  cases effect with
  | silent charges storage => exact absurd found (absent (congrArg Server.sessions charges.frame :))
  | answered charges other => exact absurd found (absent (congrArg Server.sessions charges.frame :))
  | full gated unknown crowded =>
      exact absurd found (absent (congrArg Server.sessions (identityCharged_frame server moment peer _ _) :))
  | faulted gated admitted fault =>
      exact absurd found (absent (congrArg Server.sessions (identityCharged_frame server moment peer _ _) :))
  | repeated present greets => exact absurd found (absent rfl)
  | @joined identityHash name ip row db middle numbered generation reply gated admitted consistent superseded
      numbering greets =>
      obtain ⟨listed, own⟩ := Admitted.listed admitted
      rcases entered_sessions peer _ reply superseded numbering found with ⟨-, rfl⟩ | ⟨other, -⟩
      · rw [joined_db superseded numbering]
        exact ⟨row, listed, own, rfl⟩
      · exact absurd rfl other

end Answers

/-! Over a run. -/
section Runs
variable {F : Type} [Platform F] [Codec F] {db : Db F} {trace : List (Stage F)} {stage : Stage F} {server : Server F}
  {pending : List Event}

theorem run_credited (run : Run db trace server pending) : Everyone (Credited server.db) server := by
  induction run with
  | start opened =>
      obtain ⟨identityPlayers, -, rfl⟩ := new_opened opened
      intro peer session found
      simp [Server.opened] at found
  | poll now script run polled ih => exact ih
  | @handle trace server event pending moment run ih =>
      intro peer later found
      have writes : Writes server.db (server.handleEvent moment event).1.db := handleEvent_writes run.inv event
      have grown := writes.extends
      cases held : server.sessions.get? peer with
      | some old =>
          have same := outcome_credentials (handleEvent_outcome run.inv moment event) held found
          simp only [credentials, Prod.mk.injEq] at same
          rw [Credited, same.1, same.2]
          exact (ih peer old held).extends grown
      | none =>
          -- a session that was not there is the one its hello has opened
          rcases handleEvent_sourced run.inv moment event peer later found with ⟨old, present, -⟩ | source
          · rw [held] at present
            cases present
          · generalize poseOf later = pose at source
            cases source with
            | joined vacant greeting =>
                simp only [handleEvent, handleDataAt, greeting] at found ⊢
                exact hello_credited run.inv moment _ held found
            | reported present =>
                rw [held] at present
                cases present
  | @tick trace server pending tick run ih =>
      intro peer later found
      have same := tick_credentials server tick peer
      rw [found, Option.map_some, eq_comm, Option.map_eq_some_iff] at same
      obtain ⟨old, held, own⟩ := same
      simp only [credentials, Prod.mk.injEq] at own
      rw [Credited, ← own.1, ← own.2]
      exact (ih peer old held).extends (tick_writes tick).extends

/-- No greeting is handed out. -/
def Mute (server after : Server F) : Prop := Hands (fun _ message => topicOf message ≠ .hello) server after

omit [Codec F] in
theorem mute_of_topics {after : Server F} {topics : List Topic} (posts : Posts topics server after)
    (silent : Topic.hello ∉ topics) : Mute server after :=
  .of_posts posts fun _ _ about greeting => silent (greeting ▸ about)

theorem tick_mute (run : Run db trace server pending) (tick : Tick) : Mute server (tick.run server) := by
  cases tick with
  | aoi fails => exact mute_of_topics (processAoiWork_effect server fails).posts (by decide)
  | snapshots => exact mute_of_topics (broadcastSnapshots_effect server).posts (by decide)
  | fanout =>
      exact mute_of_topics ((processFanoutWork_run server).posts (reachable_jobsAbout run.reachable)).1 (by decide)
  | dirtyFlush fails now => exact mute_of_topics (processDirtyFlushAt_effect server fails now).posts (by decide)
  | beginFlush => exact .of_sent rfl
  | clock clockMs => exact .of_sent (congrArg Server.sent (broadcastClock_frame server clockMs) :)

theorem event_mute (run : Run db trace server pending) (moment : Moment) {event : Event}
    (other : ∀ peer bytes hello, event = .data peer bytes → Codec.decode (F := F) bytes ≠ some (.hello hello)) :
    Mute server (server.handleEvent moment event).1 := by
  have effect := handleEvent_effect run.inv moment event
  generalize (server.handleEvent moment event).1 = after at effect ⊢
  cases effect with
  | ignored _ => exact .of_sent rfl
  | hello decoded _ => exact absurd decoded (other _ _ _ rfl)
  | absent vacant => exact .of_sent rfl
  | persisted found stored => exact .of_sent rfl
  | unpersisted found failing => exact .of_sent rfl
  | request found effect =>
      cases effect with
      | served served => exact mute_of_topics served.posts (by decide)
      | moved motion state cell placed => exact .of_sent rfl
      | spoke here about captured => exact .of_sent rfl

/-- In this stage the hello of `peer` was accepted with `reply`. -/
structure Welcomed (stage : Stage F) (peer : PeerId) (hello : ClientHello) (reply : ServerHello F) : Prop where
  heard : ∃ moment bytes, stage.action = .handle moment (.data peer bytes) ∧
    Codec.decode (F := F) bytes = some (.hello hello)
  posted : ∃ post ∈ stage.posted, post.1 = peer ∧ post.2.payload = .serverHello reply
  accepted : reply.accepted = true

/-- Nothing but a hello is answered with an acceptance, and the answer names the account of its token. -/
theorem stage_names (formed : WellFormed stage.after.db) (run : Run db (trace ++ [stage]) server pending) :
    ∀ post ∈ stage.posted, ∀ reply, post.2.payload = .serverHello reply → reply.accepted = true →
      ∃ hello, Welcomed stage post.1 hello reply ∧ Names stage.after.db hello reply := by
  intro post listed reply shown accepted
  obtain ⟨⟨waiting, earlier⟩, lawful, -⟩ := run.unsnoc
  have greeted : ¬ Mute stage.before stage.after := by
    rintro ⟨posts, grown, other⟩
    rw [Stage.posted_eq grown] at listed
    apply other post listed
    rw [shown]
    rfl
  obtain ⟨before, action, after⟩ := stage
  cases action with
  | poll now script =>
      obtain ⟨state, -, same⟩ := lawful
      exact absurd (.of_sent (congrArg Server.sent same :)) greeted
  | tick tick =>
      obtain rfl : after = tick.run before := lawful
      exact absurd (tick_mute earlier tick) greeted
  | handle moment event =>
      obtain rfl : after = (before.handleEvent moment event).1 := lawful
      by_cases hearing : ∃ peer bytes hello, event = .data peer bytes ∧ Codec.decode (F := F) bytes = some (.hello hello)
      · obtain ⟨peer, bytes, hello, rfl, decoded⟩ := hearing
        have handled : (before.handleEvent moment (.data peer bytes)).1 = (before.onHelloAt moment peer hello).1 := by
          simp only [handleEvent, handleDataAt, decoded]
        have named : Hands _ before (before.onHelloAt moment peer hello).1 :=
          hello_names earlier.inv moment hello (run_credited earlier) (handled ▸ formed)
        rw [← handled] at named
        obtain ⟨posts, grown, names⟩ := named
        have answers := listed
        rw [Stage.posted_eq grown] at answers
        obtain ⟨rfl, named⟩ := names post answers reply shown accepted
        exact ⟨hello, ⟨⟨moment, bytes, rfl, decoded⟩, ⟨post, listed, rfl, shown⟩, accepted⟩, named⟩
      · refine absurd (event_mute earlier moment ?_) greeted
        intro peer bytes hello same decoded
        exact hearing ⟨peer, bytes, hello, same, decoded⟩

end Runs

/-! The second of the two players comes back to the next process. -/
section Returning

def returnScript : List SocketTurn :=
  let request := WireProtocol.buildConnectRequest 0 7 0 16 (WireProtocol.writeLitenetString "sailwind-online")
  [datagramFrom 3 request, datagramFrom 3 [0, 2]]

def returnStages : List (Stage Int) :=
  ⟨reopenedServer, .poll 0 returnScript, polledBy reopenedServer returnScript⟩ ::
    handling (polledBy reopenedServer returnScript) 1000 [.connected 1, .data 1 [2]]

def returnedServer : Server Int := handleAll (polledBy reopenedServer returnScript) 1000 [.connected 1, .data 1 [2]]

def returnLives : List (Life Int) :=
  [⟨freshServer, joinStages, joinedServer⟩, ⟨reopenedServer, returnStages, returnedServer⟩]

def returnFile : DbFile Int :=
  (abandonedFile.boot freshServer.cfg (quietBoot 5000 9)).1.holding returnedServer.db

theorem returned : History returnLives returnFile := by
  have polled : Run _ _ (polledBy reopenedServer returnScript) [.connected 1, .data 1 [2]] :=
    polledBy_run reopened_run returnScript (by decide +kernel)
  have run : Run reopenedServer.db returnStages returnedServer [] := handleAll_run [.connected 1, .data 1 [2]] 1000 polled
  exact .crashed abandoned reopened run rfl

def firstHello : Stage Int := ⟨greetedServer, .handle (calmAt 2000) (.data 2 [2]), joinedServer⟩

def secondHello : Stage Int :=
  let before := polledBy reopenedServer returnScript
  ⟨before, .handle (calmAt 2000) (.data 1 [2]), (before.handleEvent (calmAt 2000) (.data 1 [2])).1⟩

/-- The acceptances among the answers of a stage. -/
def acceptances (stage : Stage Int) : List (PeerId × ServerHello Int) :=
  stage.posted.filterMap fun post => match post.2.payload with
    | .serverHello reply => if reply.accepted then some (post.1, reply) else none
    | _ => none

theorem welcomed_of_acceptances {stage : Stage Int} {moment : Moment} {peer : PeerId} {bytes : WireProtocol.Bytes}
    {hello : ClientHello} {player : UInt64} (action : stage.action = .handle moment (.data peer bytes))
    (decoded : Codec.decode (F := Int) bytes = some (.hello hello))
    (told : (acceptances stage).map (fun answer => (answer.1, answer.2.playerId)) = [(peer, player)]) :
    ∃ reply, Welcomed stage peer hello reply ∧ reply.playerId = player := by
  obtain ⟨answer, only, same⟩ := List.map_eq_singleton_iff.mp told
  obtain ⟨rfl, rfl⟩ := Prod.mk.inj same
  have first : answer ∈ acceptances stage := by simp [only]
  obtain ⟨post, posted, shown⟩ := List.mem_filterMap.mp first
  split at shown <;> rename_i payload
  · split at shown <;> rename_i accepted
    · cases shown
      exact ⟨_, ⟨⟨moment, bytes, action, decoded⟩, ⟨post, posted, rfl, payload⟩, accepted⟩, rfl⟩
    · cases shown
  · cases shown

theorem first_welcomed : ∃ reply, Welcomed firstHello 2 (helloOf "second") reply ∧ reply.playerId = 2 :=
  welcomed_of_acceptances rfl rfl (by decide +kernel)

theorem second_welcomed : ∃ reply, Welcomed secondHello 1 (helloOf "second") reply ∧ reply.playerId = 2 :=
  welcomed_of_acceptances rfl rfl (by decide +kernel)

end Returning

/-! Over every process of one file. -/
section Processes
variable {F : Type} [Platform F] [Codec F] {lives : List (Life F)} {file : DbFile F} {life other : Life F}
  {stage otherStage : Stage F} {peer otherPeer : PeerId} {hello otherHello : ClientHello}
  {reply otherReply : ServerHello F}

theorem life_names (history : History lives file) (member : life ∈ lives) (listed : stage ∈ life.trace) :
    (∀ post ∈ stage.posted, ∀ reply, post.2.payload = .serverHello reply → reply.accepted = true →
      ∃ hello, Welcomed stage post.1 hello reply ∧ Names stage.after.db hello reply) ∧
    Recorded file stage.after := by
  have seen : stage.after ∈ lives.flatMap Life.servers := by
    refine List.mem_flatMap.mpr ⟨life, member, ?_⟩
    simp only [Life.servers, List.mem_cons, List.mem_append, List.mem_map]
    exact Or.inr (Or.inl ⟨stage, listed, rfl⟩)
  have recorded := (history_chronicle history).recorded stage.after seen
  obtain ⟨db, server, pending, run, -⟩ := history_run history life member
  obtain ⟨early, later, split⟩ := List.append_of_mem listed
  rw [split] at run
  obtain ⟨rest, upto⟩ := run.upto
  exact ⟨stage_names recorded.reflects.lawful.formed upto, recorded⟩

/-- Whoever is accepted is told the id and the gold of the row of its token: the row is in the file for good, and the
gold is the sum of the ledger at that moment. -/
theorem accounts_told (history : History lives file) (member : life ∈ lives) (listed : stage ∈ life.trace) :
    ∀ post ∈ stage.posted, ∀ reply, post.2.payload = .serverHello reply → reply.accepted = true →
      ∃ hello, Welcomed stage post.1 hello reply ∧ Enrolled file.rows (presentedHash hello) reply.playerId ∧
        reply.balanceGold.toInt = LedgerRefinement.ledgerGold stage.after.db.ledger reply.playerId := by
  intro post posted reply shown accepted
  obtain ⟨names, recorded⟩ := life_names history member listed
  obtain ⟨hello, welcomed, named⟩ := names post posted reply shown accepted
  refine ⟨hello, welcomed, named.enrolled.extends recorded.rows, ?_⟩
  rw [named.balance]
  exact EconService.gold_of_kept recorded.reflects.books reply.playerId

/-- The returning player is told its gold. -/
theorem accounts_told_returned : ∃ post ∈ secondHello.posted, ∃ reply, post.2.payload = .serverHello reply ∧
    Enrolled returnFile.rows (presentedHash (helloOf "second")) reply.playerId ∧
      reply.balanceGold.toInt = LedgerRefinement.ledgerGold secondHello.after.db.ledger reply.playerId := by
  obtain ⟨reply, welcomed, -⟩ := second_welcomed
  obtain ⟨post, posted, own, shown⟩ := welcomed.posted
  have listed : secondHello ∈ returnStages := by simp [returnStages, handling, secondHello, Server.handleEvent]
  obtain ⟨hello, again, enrolled, gold⟩ :=
    accounts_told returned (List.mem_cons_of_mem _ (List.mem_singleton_self _)) listed post posted reply shown
      welcomed.accepted
  rw [own] at again
  obtain ⟨moment, bytes, action, decoded⟩ := again.heard
  cases action
  cases decoded
  exact ⟨post, posted, reply, shown, enrolled, gold⟩

theorem welcomed_enrolled (history : History lives file) (member : life ∈ lives) (listed : stage ∈ life.trace)
    (welcomed : Welcomed stage peer hello reply) : Enrolled file.rows (presentedHash hello) reply.playerId := by
  obtain ⟨names, recorded⟩ := life_names history member listed
  obtain ⟨post, posted, -, shown⟩ := welcomed.posted
  obtain ⟨heard, again, named⟩ := names post posted reply shown welcomed.accepted
  -- one stage handles one hello
  have same : heard = hello := by
    obtain ⟨moment, bytes, action, decoded⟩ := welcomed.heard
    obtain ⟨_, _, actionAgain, decodedAgain⟩ := again.heard
    rw [action] at actionAgain
    cases actionAgain
    rw [decoded] at decodedAgain
    cases decodedAgain
    rfl
  rw [← same]
  exact named.enrolled.extends recorded.rows

/-- Two acceptances, in whatever processes, name the same player exactly when the tokens presented have the same
hash. -/
theorem identities_agree (history : History lives file) (member : life ∈ lives) (listed : stage ∈ life.trace)
    (welcomed : Welcomed stage peer hello reply) (otherMember : other ∈ lives) (otherListed : otherStage ∈ other.trace)
    (otherWelcomed : Welcomed otherStage otherPeer otherHello otherReply) :
    reply.playerId = otherReply.playerId ↔ presentedHash hello = presentedHash otherHello := by
  obtain ⟨row, present, hash, id⟩ := welcomed_enrolled history member listed welcomed
  obtain ⟨otherRow, otherPresent, otherHash, otherId⟩ :=
    welcomed_enrolled history otherMember otherListed otherWelcomed
  have formed := (history_chronicle history).lawful.formed
  rw [← hash, ← otherHash, ← id, ← otherId]
  constructor
  · intro same
    have ids : row.id = otherRow.id := by
      have converted := congrArg UInt64.toInt64 same
      rwa [Int64.toInt64_toUInt64, Int64.toInt64_toUInt64] at converted
    rw [List.inj_on_of_nodup_map formed.ids present otherPresent ids]
  · intro same
    rw [List.inj_on_of_nodup_map formed.hashes present otherPresent same]

/-- The returning player is told its id of the first process. -/
theorem identities_agree_returned : ∃ first second, Welcomed firstHello 2 (helloOf "second") first ∧
    Welcomed secondHello 1 (helloOf "second") second ∧ first.playerId = second.playerId := by
  obtain ⟨first, welcomed, -⟩ := first_welcomed
  obtain ⟨second, again, -⟩ := second_welcomed
  have early : firstHello ∈ joinStages := by simp [joinStages, firstHello]
  have late : secondHello ∈ returnStages := by simp [returnStages, handling, secondHello, Server.handleEvent]
  refine ⟨first, second, welcomed, again, ?_⟩
  exact (identities_agree returned List.mem_cons_self early welcomed
    (List.mem_cons_of_mem _ (List.mem_singleton_self _)) late again).mpr rfl

end Processes
end SailwindOnline.PlayerIdentity
