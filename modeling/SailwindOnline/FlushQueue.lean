import SailwindOnline.TickEffects
import SailwindOnline.Traces

/-!
Persistence of players over whole runs. Two sets hold the players whose change
is not yet written, and each live session knows whether its player is in one;
a player leaves them only when its row is touched, whatever the disk fails in
between. The flush at shutdown ends well only once nothing is left.
-/

namespace SailwindOnline.FlushQueue
open World (Cell)
open Server SessionIndex SessionRuns OrderedSet Effects TickEffects Traces Persistence PlayerTable

section Queues
variable {F : Type} [Platform F] {server after : Server F} {player : UInt64}

/-- The players whose last change is not yet written. -/
def unwritten (server : Server F) : Finset UInt64 := server.dirtyPlayers ∪ server.flushPlayers

def HasRow (db : Db F) (player : UInt64) : Prop := ∃ row ∈ db.players, row.id = player.toInt64

def Persisted (db : Db F) (now : Int64) (player : UInt64) : Prop :=
  ∃ row, db.player player.toInt64 = some row ∧ row.lastSeen = now

/-- A session is dirty while its player is unwritten. -/
def SessionFlags (server : Server F) : Prop :=
  ∀ peer session, server.sessions.get? peer = some session →
    (session.dirty = true ↔ session.playerId ∈ unwritten server)

structure Flagged (server : Server F) : Prop where
  owned : ∀ peer session, server.sessions.get? peer = some session →
    server.playerPeers.get? session.playerId = some peer
  flags : SessionFlags server

omit [Platform F] in
theorem hasRow_touch {db : Db F} (id now : Int64) : HasRow (db.touchLastSeen id now) player ↔ HasRow db player := by
  have same := SameIdentities.touchLastSeen db id now
  constructor
  · rintro ⟨row, member, own⟩
    obtain ⟨old, present, equal⟩ := same.row_of member
    exact ⟨old, present, (congrArg Prod.snd equal).trans own⟩
  · rintro ⟨row, member, own⟩
    obtain ⟨new, present, equal⟩ := same.symm.row_of member
    exact ⟨new, present, (congrArg Prod.snd equal).trans own⟩

omit [Platform F] in
theorem player_touch (db : Db F) (id other now : Int64) :
    (db.touchLastSeen id now).player other =
      (db.player other).map fun row => if row.id = id then { row with lastSeen := now } else row := by
  simp only [Db.touchLastSeen, Db.updatePlayer, Db.player, List.find?_map]
  congr 1
  apply congrArg (fun test => db.players.find? test)
  funext row
  simp only [Function.comp_apply]
  split <;> rfl

omit [Platform F] in
theorem persisted_touch {db : Db F} {now : Int64} (other : UInt64) (persisted : Persisted db now player) :
    Persisted (db.touchLastSeen other.toInt64 now) now player := by
  obtain ⟨row, found, seen⟩ := persisted
  refine ⟨_, by rw [player_touch, found]; rfl, ?_⟩
  dsimp only
  split
  · rfl
  · exact seen

omit [Platform F] in
theorem persisted_own {db : Db F} (now : Int64) (known : HasRow db player) :
    Persisted (db.touchLastSeen player.toInt64 now) now player := by
  obtain ⟨row, member, own⟩ := known
  have present : (db.player player.toInt64).isSome := by
    simp only [Db.player, List.find?_isSome]
    exact ⟨row, member, by simpa using own⟩
  obtain ⟨found, here⟩ := Option.isSome_iff_exists.mp present
  have same : found.id = player.toInt64 := by simpa [Db.player] using List.find?_some here
  refine ⟨_, by rw [player_touch, here]; rfl, ?_⟩
  simp [same]

/-- A touch that reached the disk: the row is written and the player leaves the queue. -/
def written (now : Int64) (dirty : Finset UInt64) (server : Server F) (player : UInt64) : Server F :=
  ({ server with
    db := server.db.touchLastSeen player.toInt64 now
    flushPlayers := server.flushPlayers.erase player
    dirtyPlayers := dirty }).settleFlushed player

theorem written_session {now : Int64} {dirty : Finset UInt64} {peer : PeerId} {session : Session F}
    (flagged : Flagged server) (found : (written now dirty server player).sessions.get? peer = some session) :
    ∃ old, server.sessions.get? peer = some old ∧
      session = if old.playerId = player then { old with dirty := decide (player ∈ dirty) } else old := by
  unfold written settleFlushed at found
  simp only at found
  split at found <;> rename_i owner
  · refine ⟨session, found, ?_⟩
    split <;> rename_i own
    · have here := flagged.owned peer session found
      rw [own, owner] at here
      cases here
    · rfl
  · simp only [modifySession, FiniteMap.get?_modify] at found
    split at found <;> rename_i here
    · obtain ⟨old, present, same⟩ := Option.map_eq_some_iff.mp found
      exact ⟨old, here ▸ present, same.symm⟩
    · refine ⟨session, found, ?_⟩
      split <;> rename_i own
      · have known := flagged.owned peer session found
        rw [own, owner, Option.some.injEq] at known
        exact absurd known.symm here
      · rfl

theorem written_fields (now : Int64) (dirty : Finset UInt64) (server : Server F) (player : UInt64) :
    (written now dirty server player).db = server.db.touchLastSeen player.toInt64 now ∧
      (written now dirty server player).flushPlayers = server.flushPlayers.erase player ∧
      (written now dirty server player).dirtyPlayers = dirty ∧
      (written now dirty server player).playerPeers = server.playerPeers := by
  unfold written settleFlushed
  simp only
  split <;> exact ⟨rfl, rfl, rfl, rfl⟩

/-- A written player is dirty only if it changed again since. -/
theorem Flagged.written {now : Int64} {dirty : Finset UInt64} (flagged : Flagged server)
    (others : ∀ other, other ≠ player → (other ∈ dirty ↔ other ∈ server.dirtyPlayers)) :
    Flagged (written now dirty server player) := by
  obtain ⟨-, flush, queued, peers⟩ := written_fields now dirty server player
  refine ⟨?_, ?_⟩
  · intro peer session found
    obtain ⟨old, present, same⟩ := written_session flagged found
    have own : session.playerId = old.playerId := by
      rw [same]
      split <;> rfl
    rw [peers, own]
    exact flagged.owned peer old present
  · intro peer session found
    obtain ⟨old, present, same⟩ := written_session flagged found
    have before := flagged.flags peer old present
    simp only [unwritten, Finset.mem_union] at before ⊢
    rw [flush, queued, Finset.mem_erase, same]
    split <;> rename_i own
    · simp [own]
    · simp only [others old.playerId own, ne_eq, own, not_false_eq_true, true_and]
      exact before

/-- The touches of one pass that reach the disk: the pass stops at the first that fails. -/
def reached (fails : UInt64 → Bool) (players : List UInt64) : List UInt64 :=
  players.takeWhile fun player => !fails player

def touchEach (now : Int64) (db : Db F) (players : List UInt64) : Db F :=
  players.foldl (fun db player => db.touchLastSeen player.toInt64 now) db

/-- A pass writes the players it reached, in order, and forgets nobody else. -/
structure Wrote (now : Int64) (players : List UInt64) (server after : Server F) : Prop where
  db : after.db = touchEach now server.db players
  flush : after.flushPlayers = server.flushPlayers \ players.toFinset
  dirty : after.dirtyPlayers = server.dirtyPlayers
  flagged : Flagged server → Flagged after

theorem flushEach_wrote (fails : UInt64 → Bool) (now : Int64) (players : List UInt64) (server : Server F) :
    Wrote now (reached fails players) server (flushEach fails now players server).1 := by
  induction players generalizing server with
  | nil => exact ⟨rfl, by simp [reached, flushEach], rfl, id⟩
  | cons player rest ih =>
      unfold flushEach reached
      cases failing : fails player with
      | true =>
          simp only [attempt, if_true, List.takeWhile_cons, failing, Bool.not_true, Bool.false_eq_true, if_false]
          exact ⟨rfl, by simp, rfl, fun flagged => ⟨flagged.owned, flagged.flags⟩⟩
      | false =>
          have later := ih (written now server.dirtyPlayers server player)
          obtain ⟨db, flush, dirty, -⟩ := written_fields now server.dirtyPlayers server player
          simp only [attempt, Bool.false_eq_true, if_false, List.takeWhile_cons, failing, Bool.not_false, if_true]
          refine ⟨?_, ?_, later.dirty.trans dirty, ?_⟩
          · exact later.db.trans (by rw [db]; rfl)
          · refine later.flush.trans ?_
            rw [flush]
            ext other
            simp only [reached, Finset.mem_sdiff, Finset.mem_erase, List.toFinset_cons, Finset.mem_insert, not_or]
            tauto
          · exact fun flagged => later.flagged (flagged.written fun other _ => Iff.rfl)

/-- The touches of one dirty flush that reach the disk. -/
def flushReached (server : Server F) (fails : UInt64 → Bool) : List UInt64 :=
  if server.flushPaused then [] else reached fails ((ascending server.flushPlayers).take dirtyDbUpdatesPerTick)

theorem processDirtyFlushAt_wrote (server : Server F) (fails : UInt64 → Bool) (now : Int64) :
    Wrote now (flushReached server fails) server (server.processDirtyFlushAt fails now).1 := by
  unfold processDirtyFlushAt flushReached
  split
  · exact ⟨rfl, by simp, rfl, id⟩
  · exact flushEach_wrote _ _ _ _

end Queues

/-! What a stage owes and what it writes, read off the run. -/
section Owing
variable {F : Type} [Platform F] [Codec F]

/-- The player whose motion `on_client_state` accepts from a datagram. -/
def acceptedState (server : Server F) (moment : Moment) (peer : PeerId) (bytes : WireProtocol.Bytes) :
    Option UInt64 :=
  match Codec.decode (F := F) bytes, server.sessions.get? peer with
  | some (.state state), some session =>
    if (server.clientStateLimiter.allow session.playerId moment.admissionMs).2 &&
        (sanitizeMotion (vec3Of state.pos) (quatOf state.rot) (vec3Of state.vel)).isSome then
      some session.playerId
    else none
  | _, _ => none

omit [Codec F] in
def joinedPlayer (stage : Stage F) (peer : PeerId) : Option UInt64 :=
  match stage.before.sessions.get? peer with
  | some _ => none
  | none => (stage.after.sessions.get? peer).map Session.playerId

/-- The players a stage changed: their state was accepted, they joined or they disconnected. -/
def changedBy (stage : Stage F) : List UInt64 :=
  match stage.action with
  | .handle moment (.data peer bytes) =>
    (acceptedState stage.before moment peer bytes).toList ++ (joinedPlayer stage peer).toList
  | .handle _ (.disconnected peer _) => ((stage.before.sessions.get? peer).map Session.playerId).toList
  | _ => []

omit [Codec F] in
/-- The players whose touch reached the disk in a stage. -/
def touchedBy (stage : Stage F) : List UInt64 :=
  match stage.action with
  | .handle moment (.disconnected peer _) =>
    if moment.fails 0 then [] else ((stage.before.sessions.get? peer).map Session.playerId).toList
  | .tick (.dirtyFlush fails _) => flushReached stage.before fails
  | _ => []

def noteOwed (owed : Finset UInt64) (stage : Stage F) : Finset UInt64 :=
  (owed ∪ (changedBy stage).toFinset) \ (touchedBy stage).toFinset

/-- The players changed since their last touch that reached the disk. -/
def owedAfter (trace : List (Stage F)) : Finset UInt64 := observe noteOwed ∅ trace

end Owing

/-! One stage of a run. -/
section Stages
variable {F : Type} [Platform F] {server after : Server F} {moment : Moment}

def flagOf (session : Session F) : UInt64 × Bool := (session.playerId, session.dirty)

/-- The queues and the sessions' flags stay as they are. -/
structure SameQueues (server after : Server F) : Prop where
  sessions : ∀ peer, (after.sessions.get? peer).map flagOf = (server.sessions.get? peer).map flagOf
  unwritten : unwritten after = unwritten server

theorem SameQueues.of_eq (sessions : after.sessions = server.sessions)
    (dirty : after.dirtyPlayers = server.dirtyPlayers) (flush : after.flushPlayers = server.flushPlayers) :
    SameQueues server after :=
  ⟨fun peer => by rw [sessions], by simp only [FlushQueue.unwritten, dirty, flush]⟩

theorem SameQueues.session_of (same : SameQueues server after) {peer : PeerId} {session : Session F}
    (found : after.sessions.get? peer = some session) :
    ∃ old, server.sessions.get? peer = some old ∧ old.playerId = session.playerId ∧ old.dirty = session.dirty := by
  have view := same.sessions peer
  rw [found, Option.map_some, eq_comm, Option.map_eq_some_iff] at view
  obtain ⟨old, present, equal⟩ := view
  exact ⟨old, present, congrArg Prod.fst equal, congrArg Prod.snd equal⟩

theorem SameQueues.flags (same : SameQueues server after) (flags : SessionFlags server) : SessionFlags after := by
  intro peer session found
  obtain ⟨old, present, player, dirty⟩ := same.session_of found
  rw [same.unwritten, ← player, ← dirty]
  exact flags peer old present

/-- One player is marked, and only its own session with it. -/
theorem SessionFlags.mark {player : UInt64} (flags : SessionFlags server)
    (marked : unwritten after = insert player (unwritten server))
    (own : ∀ peer session, after.sessions.get? peer = some session → session.playerId = player →
      session.dirty = true)
    (others : ∀ peer session, after.sessions.get? peer = some session → session.playerId ≠ player →
      ∃ old, server.sessions.get? peer = some old ∧ old.playerId = session.playerId ∧ old.dirty = session.dirty) :
    SessionFlags after := by
  intro peer session found
  rw [marked, Finset.mem_insert]
  by_cases mine : session.playerId = player
  · simp [mine, own peer session found mine]
  · obtain ⟨old, present, same, flag⟩ := others peer session found mine
    simp only [mine, false_or]
    rw [← same, ← flag]
    exact flags peer old present

/-- What an event does to the queues, apart from a disconnect. -/
structure Marks (server after : Server F) : Prop where
  kept : unwritten server ⊆ unwritten after
  flags : SessionFlags server → SessionFlags after

theorem SameQueues.marks (same : SameQueues server after) : Marks server after :=
  ⟨same.unwritten.ge, same.flags⟩

theorem Marks.mark {player : UInt64} (dirty : after.dirtyPlayers = insert player server.dirtyPlayers)
    (flush : after.flushPlayers = server.flushPlayers)
    (own : ∀ peer session, after.sessions.get? peer = some session → session.playerId = player →
      session.dirty = true)
    (others : ∀ peer session, after.sessions.get? peer = some session → session.playerId ≠ player →
      ∃ old, server.sessions.get? peer = some old ∧ old.playerId = session.playerId ∧ old.dirty = session.dirty) :
    Marks server after := by
  have marked : unwritten after = insert player (unwritten server) := by
    rw [unwritten, dirty, flush, Finset.insert_union]
    rfl
  exact ⟨marked ▸ Finset.subset_insert _ _, fun flags => flags.mark marked own others⟩

theorem outcome_marks {peer : PeerId} {bytes : WireProtocol.Bytes} (agree : SessionsAgree noStray server)
    (outcome : Outcome server moment (.data peer bytes) after) : Marks server after := by
  cases outcome with
  | calm frame posts kept =>
      exact SameQueues.marks (.of_eq (congrArg Server.sessions frame :) (congrArg Server.dirtyPlayers frame :)
        (congrArg Server.flushPlayers frame :))
  | @moved _ _ session found motion state cell placed =>
      refine .mark rfl rfl ?_ ?_
      · intro other later present own
        simp only [FiniteMap.get?_insert] at present
        split at present <;> rename_i here
        · cases present
          rfl
        · -- Two sessions never share a player.
          have first := owner_of agree found
          have second := owner_of agree present
          rw [own, first, Option.some.injEq] at second
          exact absurd second.symm here
      · intro other later present apart
        simp only [FiniteMap.get?_insert] at present
        split at present
        · cases present
          exact absurd rfl apart
        · exact ⟨later, present, rfl, rfl⟩
  | spoke found here about captured => exact SameQueues.marks (.of_eq rfl rfl rfl)
  | @joined _ _ base middle numbered player identityHash name generation reply vacant frame posts superseded
      numbering =>
      have sessions : base.sessions = server.sessions := (congrArg Server.sessions frame :)
      have owners : base.playerPeers = server.playerPeers := (congrArg Server.playerPeers frame :)
      have dirty : base.dirtyPlayers = server.dirtyPlayers := (congrArg Server.dirtyPlayers frame :)
      have flush : base.flushPlayers = server.flushPlayers := (congrArg Server.flushPlayers frame :)
      have kept := entered_frame peer (withGeneration generation (firstSession server player identityHash name))
        reply superseded numbering
      refine .mark ((entered_dirty peer _ reply superseded numbering).trans (by rw [dirty]))
        ((congrArg Server.flushPlayers kept :).trans flush) ?_ ?_
      · intro other later present own
        rcases entered_sessions peer _ reply superseded numbering present with
          ⟨-, rfl⟩ | ⟨apart, old, held, elsewhere, same⟩
        · rfl
        · have player_same : old.playerId = later.playerId := (congrArg Session.playerId same.symm :)
          have owner := owner_of agree (sessions ▸ held : server.sessions.get? other = some old)
          rw [player_same, own, ← owners] at owner
          exact absurd owner elsewhere
      · intro other later present apart
        rcases entered_sessions peer _ reply superseded numbering present with
          ⟨-, rfl⟩ | ⟨-, old, held, -, same⟩
        · exact absurd rfl apart
        · exact ⟨old, sessions ▸ held, (congrArg Session.playerId same.symm :),
            (congrArg Session.dirty same.symm :)⟩

/-- A player the server must not lose: unwritten, or with a session. -/
def Tracked (server : Server F) (player : UInt64) : Prop :=
  player ∈ unwritten server ∨ ∃ peer session, server.sessions.get? peer = some session ∧ session.playerId = player

/-- Every tracked player has a row to write to. -/
def Rooted (server : Server F) : Prop := ∀ player, Tracked server player → HasRow server.db player

theorem tracked_of_session {peer : PeerId} {session : Session F} (found : server.sessions.get? peer = some session) :
    Tracked server session.playerId := Or.inr ⟨peer, session, found, rfl⟩

theorem SameQueues.tracked (same : SameQueues server after) {player : UInt64} (tracked : Tracked after player) :
    Tracked server player := by
  rcases tracked with queued | ⟨peer, session, found, rfl⟩
  · exact Or.inl (same.unwritten ▸ queued)
  · obtain ⟨old, present, own, -⟩ := same.session_of found
    exact Or.inr ⟨peer, old, present, own⟩

omit [Platform F] in
theorem SameIdentities.hasRow {db later : Db F} (same : SameIdentities db later) {player : UInt64}
    (known : HasRow db player) : HasRow later player := by
  obtain ⟨row, member, own⟩ := known
  obtain ⟨new, present, equal⟩ := same.symm.row_of member
  exact ⟨new, present, (congrArg Prod.snd equal).trans own⟩

omit [Platform F] in
theorem Admitted.hasRow {db later : Db F} {tokenHash name : String} {now : Int64} {maxRows : UInt32}
    {row : PlayerRow} (admitted : Admitted db tokenHash name now maxRows (.admitted row) later) :
    (∀ player, HasRow db player → HasRow later player) ∧ HasRow later row.id.toUInt64 := by
  have back : row.id.toUInt64.toInt64 = row.id := Int64.toInt64_toUInt64 row.id
  cases admitted with
  | @returning old member own =>
      have same := SameIdentities.updatePlayer db old.id (refreshed name now) fun _ => rfl
      exact ⟨fun player => SameIdentities.hasRow same, SameIdentities.hasRow same ⟨old, member, back.symm⟩⟩
  | newcomer unknown room next =>
      refine ⟨?_, ⟨_, List.mem_append_right _ (List.mem_singleton_self _), back.symm⟩⟩
      rintro player ⟨old, member, own⟩
      exact ⟨old, List.mem_append_left _ member, own⟩

theorem enrolled_db (server : Server F) (moment : Moment) (peer : PeerId) (ip : IpAddr) (identityHash : String)
    (player : UInt64) (db : Db F) : (enrolled server moment peer ip identityHash player db).db = db := by
  unfold enrolled
  simp only
  split <;> rfl

theorem charges_rooted {peer : PeerId} {hello : ClientHello} {charged : Server F} (rooted : Rooted server)
    (charges : Charges server moment peer hello charged) : Rooted charged := by
  have frame := charges.frame
  intro player tracked
  have db : charged.db = server.db := (congrArg Server.db frame :)
  rw [db]
  have same : SameQueues server charged := .of_eq (congrArg Server.sessions frame :)
    (congrArg Server.dirtyPlayers frame :) (congrArg Server.flushPlayers frame :)
  exact rooted player (same.tracked tracked)

theorem Rooted.post (rooted : Rooted server) (peer : PeerId) (payload : ServerMessage F) :
    Rooted (server.post peer payload) := fun player tracked => rooted player tracked

/-- A session that has just joined is the only new one to track. -/
theorem entered_rooted {peer : PeerId} {player generation : UInt64} {middle numbered : Server F}
    {session : Session F} {reply : ServerHello F} (rooted : Rooted server) (known : HasRow server.db player)
    (superseded : Superseded server player middle)
    (numbering : Numbered (placedAtOrigin middle player) numbered generation) (own : session.playerId = player) :
    Rooted (entered numbered peer session reply) := by
  have frame := entered_frame peer session reply superseded numbering
  have tables : (entered numbered peer session reply).db = server.db := (congrArg Server.db frame :)
  have flush : (entered numbered peer session reply).flushPlayers = server.flushPlayers :=
    (congrArg Server.flushPlayers frame :)
  have dirty := entered_dirty peer session reply superseded numbering
  intro other tracked
  rw [tables]
  rcases tracked with queued | ⟨place, later, found, rfl⟩
  · rw [unwritten, dirty, flush, own, Finset.insert_union, Finset.mem_insert] at queued
    rcases queued with rfl | earlier
    · exact known
    · exact rooted other (Or.inl earlier)
  · rcases entered_sessions peer session reply superseded numbering found with ⟨-, rfl⟩ | ⟨-, old, held, -, same⟩
    · exact own ▸ known
    · have player_same : old.playerId = later.playerId := (congrArg Session.playerId same.symm :)
      exact player_same ▸ rooted _ (tracked_of_session held)

theorem hello_rooted {peer : PeerId} {hello : ClientHello} {result : Except ServerError Unit}
    (rooted : Rooted server) (effect : HelloEffect server moment peer hello (after, result)) : Rooted after := by
  cases effect with
  | silent charges storage => exact charges_rooted rooted charges
  | answered charges other => exact (charges_rooted rooted charges).post _ _
  | full gated unknown crowded => exact (charges_rooted rooted (.identity gated.presented gated.fresh)).post _ _
  | @faulted identityHash name ip row db failure gated admitted fault =>
      have frame := identityCharged_frame server moment peer ip identityHash
      have same : SameQueues server { identityCharged server moment peer ip identityHash with db } :=
        .of_eq (congrArg Server.sessions frame :) (congrArg Server.dirtyPlayers frame :)
          (congrArg Server.flushPlayers frame :)
      exact fun player tracked => (Admitted.hasRow admitted).1 player (rooted player (same.tracked tracked))
  | repeated found greets =>
      have charged : Rooted (helloCharged server moment peer) := fun player tracked => rooted player tracked
      exact charged.post _ _
  | @joined identityHash name ip row db middle numbered generation reply gated admitted consistent superseded
      numbering greets =>
      obtain ⟨grown, own⟩ := Admitted.hasRow admitted
      have frame := (enrolled_calm server moment peer ip identityHash row.id.toUInt64 db).1
      have tables := enrolled_db server moment peer ip identityHash row.id.toUInt64 db
      have same : SameQueues server (enrolled server moment peer ip identityHash row.id.toUInt64 db) :=
        .of_eq (congrArg Server.sessions frame :) (congrArg Server.dirtyPlayers frame :)
          (congrArg Server.flushPlayers frame :)
      have enrolled_rooted : Rooted (enrolled server moment peer ip identityHash row.id.toUInt64 db) := by
        intro player tracked
        rw [tables]
        exact grown player (rooted player (same.tracked tracked))
      rw [← tables] at own
      exact entered_rooted enrolled_rooted own superseded numbering rfl

variable [Codec F]

/-- Tracked players keep their rows through every event. -/
theorem effect_rooted {event : Event} (rooted : Rooted server) (effect : Effect server moment event after) :
    Rooted after := by
  cases effect with
  | ignored other => exact rooted
  | @request peer bytes session _ found effect =>
      cases effect with
      | served served =>
          have same : SameQueues server after := .of_eq (congrArg Server.sessions served.frame :)
            (congrArg Server.dirtyPlayers served.frame :) (congrArg Server.flushPlayers served.frame :)
          exact fun player tracked => SameIdentities.hasRow served.identities (rooted player (same.tracked tracked))
      | moved motion state cell placed =>
          rintro player (queued | ⟨other, later, present, rfl⟩)
          · simp only [unwritten, Finset.insert_union, Finset.mem_insert] at queued
            rcases queued with rfl | earlier
            · exact rooted _ (tracked_of_session found)
            · exact rooted player (Or.inl earlier)
          · simp only [FiniteMap.get?_insert] at present
            split at present
            · cases present
              exact rooted session.playerId (tracked_of_session found)
            · exact rooted _ (tracked_of_session present)
      | spoke here about captured => exact fun player tracked => rooted player tracked
  | hello decoded effect => exact hello_rooted rooted effect
  | absent vacant => exact fun player tracked => rooted player tracked
  | @persisted peer reason session found stored =>
      rintro player (queued | ⟨other, later, present, rfl⟩)
      · refine (hasRow_touch _ _).mpr (rooted player (Or.inl ?_))
        simp only [unwritten, Finset.mem_union, Finset.mem_erase, Finset.mem_insert] at queued ⊢
        tauto
      · refine (hasRow_touch _ _).mpr ?_
        simp only [departed, dropped, FiniteMap.get?_erase] at present
        split at present
        · cases present
        · exact rooted _ (tracked_of_session present)
  | @unpersisted peer reason session found failing =>
      rintro player (queued | ⟨other, later, present, rfl⟩)
      · simp only [unwritten, Finset.mem_union, Finset.mem_insert] at queued
        rcases queued with dirty | rfl | waiting
        · exact rooted player (Or.inl (Finset.mem_union_left _ dirty))
        · exact rooted _ (tracked_of_session found)
        · exact rooted player (Or.inl (Finset.mem_union_right _ waiting))
      · simp only [departed, dropped, FiniteMap.get?_erase] at present
        split at present
        · cases present
        · exact rooted _ (tracked_of_session present)

theorem accepted_dirty {peer : PeerId} {bytes : WireProtocol.Bytes} {player : UInt64}
    (accepted : acceptedState server moment peer bytes = some player) :
    player ∈ (server.handleEvent moment (.data peer bytes)).1.dirtyPlayers := by
  unfold acceptedState at accepted
  split at accepted <;> rename_i decoded found
  · split at accepted <;> rename_i passed
    · cases accepted
      simp only [Bool.and_eq_true] at passed
      obtain ⟨admitted, finite⟩ := passed
      obtain ⟨motion, sanitized⟩ := Option.isSome_iff_exists.mp finite
      show _ ∈ (server.handleDataAt moment peer bytes).1.dirtyPlayers
      simp only [handleDataAt, decoded, onClientState, found, admitted, sanitized, Bool.not_true, Bool.false_eq_true,
        if_false]
      unfold emitAoi scheduleAoi
      split
      · exact Finset.mem_insert_self _ _
      · split <;> exact Finset.mem_insert_self _ _
    · cases accepted
  · cases accepted

omit [Codec F] in
theorem joined_dirty {peer : PeerId} {bytes : WireProtocol.Bytes} {player : UInt64}
    (outcome : Outcome server moment (.data peer bytes) after)
    (joined : joinedPlayer ⟨server, .handle moment (.data peer bytes), after⟩ peer = some player) :
    player ∈ after.dirtyPlayers := by
  unfold joinedPlayer at joined
  cases vacant : server.sessions.get? peer with
  | some session => simp [vacant] at joined
  | none =>
      simp only [vacant] at joined
      obtain ⟨session, found, own⟩ := Option.map_eq_some_iff.mp joined
      cases outcome with
      | calm frame posts kept =>
          have sessions : after.sessions = server.sessions := (congrArg Server.sessions frame :)
          rw [sessions, vacant] at found
          cases found
      | moved held motion state cell placed =>
          rw [vacant] at held
          cases held
      | spoke held here about captured =>
          rw [vacant] at held
          cases held
      | @joined _ _ base middle numbered newcomer identityHash name generation reply _ frame posts superseded
          numbering =>
          have entered_here : (entered numbered peer (withGeneration generation
              (firstSession server newcomer identityHash name)) reply).sessions.get? peer =
              some (withGeneration generation (firstSession server newcomer identityHash name)) := by
            simp [entered]
          rw [entered_here, Option.some.injEq] at found
          rw [entered_dirty peer _ reply superseded numbering, ← own, ← found]
          exact Finset.mem_insert_self _ _

/-- What one stage does to the queues. -/
structure FlushStage (stage : Stage F) : Prop where
  kept : ∀ player ∈ unwritten stage.before, player ∉ touchedBy stage → player ∈ unwritten stage.after
  changed : ∀ player ∈ changedBy stage, player ∉ touchedBy stage → player ∈ unwritten stage.after
  flags : SessionFlags stage.before → SessionFlags stage.after
  rooted : Rooted stage.before → Rooted stage.after

theorem flushStage_of_marks {stage : Stage F} (marks : Marks stage.before stage.after)
    (changed : ∀ player ∈ changedBy stage, player ∈ unwritten stage.after)
    (rooted : Rooted stage.before → Rooted stage.after) : FlushStage stage :=
  ⟨fun _ member _ => marks.kept member, fun player member _ => changed player member, marks.flags, rooted⟩

theorem flushStage_same {stage : Stage F} (same : SameQueues stage.before stage.after)
    (db : stage.after.db = stage.before.db) (unchanged : changedBy stage = []) : FlushStage stage := by
  refine flushStage_of_marks same.marks ?_ ?_
  · rw [unchanged]
    simp
  · intro rooted player tracked
    rw [db]
    exact rooted player (same.tracked tracked)

/-- Tick work on anything but the queues. -/
theorem flushStage_touched {tick : Tick} {rest : Server F → Server F} {view : Session F → Session F}
    {topics : List Topic} (touches : Touches rest view topics server (tick.run server))
    (seen : ∀ session, flagOf (view session) = flagOf session)
    (dirty : (tick.run server).dirtyPlayers = server.dirtyPlayers)
    (flush : (tick.run server).flushPlayers = server.flushPlayers) (db : (tick.run server).db = server.db) :
    FlushStage ⟨server, .tick tick, tick.run server⟩ := by
  refine flushStage_same ⟨fun peer => ?_, by simp only [unwritten, dirty, flush]⟩ db ?_
  · have same := congrArg (Option.map flagOf) (touches.sessions peer)
    simpa [Function.comp_def, seen] using same
  · cases tick <;> rfl

theorem flushStage_flush (agree : SessionsAgree noStray server) (fails : UInt64 → Bool) (now : Int64) :
    FlushStage ⟨server, .tick (.dirtyFlush fails now), (Tick.dirtyFlush fails now).run server⟩ := by
  have wrote := processDirtyFlushAt_wrote server fails now
  have effect := processDirtyFlushAt_effect server fails now
  have owned : ∀ peer session, server.sessions.get? peer = some session →
      server.playerPeers.get? session.playerId = some peer := fun _ _ found => owner_of agree found
  refine ⟨?_, by simp [changedBy], fun flags => (wrote.flagged ⟨owned, flags⟩).flags, ?_⟩
  · intro player queued untouched
    show player ∈ unwritten (server.processDirtyFlushAt fails now).1
    simp only [unwritten, Finset.mem_union, wrote.dirty, wrote.flush, Finset.mem_sdiff, List.mem_toFinset] at queued ⊢
    exact queued.imp_right fun waiting => ⟨waiting, untouched⟩
  · intro rooted player tracked
    refine SameIdentities.hasRow effect.identities (rooted player ?_)
    rcases tracked with queued | ⟨peer, session, found, rfl⟩
    · refine Or.inl ?_
      change player ∈ unwritten (server.processDirtyFlushAt fails now).1 at queued
      simp only [unwritten, Finset.mem_union, wrote.dirty, wrote.flush, Finset.mem_sdiff] at queued ⊢
      exact queued.imp_right And.left
    · have view := congrArg (Option.map Session.playerId) (effect.sessions peer)
      change (server.processDirtyFlushAt fails now).1.sessions.get? peer = some session at found
      rw [found, Option.map_some, Option.map_some, Option.map_map, eq_comm, Option.map_eq_some_iff] at view
      obtain ⟨old, present, same⟩ := view
      exact Or.inr ⟨peer, old, present, same⟩

theorem flushStage_disconnect {peer : PeerId} {reason : DisconnectReason} (agree : SessionsAgree noStray server)
    (effect : Effect server moment (.disconnected peer reason) after) :
    FlushStage ⟨server, .handle moment (.disconnected peer reason), after⟩ := by
  -- Nobody else's session belongs to the player that left.
  have others : ∀ session, server.sessions.get? peer = some session → ∀ other later,
      (server.sessions.erase peer).get? other = some later →
      server.sessions.get? other = some later ∧ later.playerId ≠ session.playerId := by
    intro session found other later present
    rw [FiniteMap.get?_erase] at present
    split at present <;> rename_i apart
    · cases present
    · refine ⟨present, fun same => apart ?_⟩
      have first := owner_of agree found
      have second := owner_of agree present
      rw [same, first, Option.some.injEq] at second
      exact second.symm
  have rooted : Rooted server → Rooted after := fun rooted => effect_rooted rooted effect
  cases effect with
  | ignored other => exact absurd rfl (other peer reason)
  | absent vacant =>
    exact flushStage_of_marks (SameQueues.marks (.of_eq rfl rfl rfl)) (by simp [changedBy, vacant]) rooted
  | @persisted _ _ session found stored =>
      have touched : ∀ after, touchedBy ⟨server, .handle moment (.disconnected peer reason), after⟩ =
          [session.playerId] := by
        simp [touchedBy, stored, found]
      refine ⟨?_, ?_, ?_, rooted⟩
      · intro player queued untouched
        rw [touched, List.mem_singleton] at untouched
        simp only [unwritten, Finset.mem_union, Finset.mem_erase, Finset.mem_insert] at queued ⊢
        tauto
      · intro player changed untouched
        rw [touched] at untouched
        simp only [changedBy, found, Option.map_some, Option.toList_some] at changed
        exact absurd changed untouched
      · intro flags other later present
        obtain ⟨old, apart⟩ := others session found other later present
        rw [flags other later old]
        simp [unwritten, apart]
  | @unpersisted _ _ session found failing =>
      refine ⟨?_, ?_, ?_, rooted⟩
      · intro player queued _
        simp only [unwritten, departed, dropped, Finset.mem_union, Finset.mem_insert] at queued ⊢
        tauto
      · intro player changed _
        simp only [changedBy, found, Option.map_some, Option.toList_some, List.mem_singleton] at changed
        subst changed
        exact Finset.mem_union_right _ (Finset.mem_insert_self _ _)
      · intro flags other later present
        obtain ⟨old, apart⟩ := others session found other later present
        rw [flags other later old]
        simp [unwritten, departed, dropped, apart]

theorem flushStage_tick (agree : SessionsAgree noStray server) (tick : Tick) :
    FlushStage ⟨server, .tick tick, tick.run server⟩ := by
  cases tick with
  | aoi fails =>
      have effect := processAoiWork_effect server fails
      exact flushStage_touched effect (fun _ => rfl) (congrArg Server.dirtyPlayers effect.frame :)
        (congrArg Server.flushPlayers effect.frame :) (congrArg Server.db effect.frame :)
  | snapshots =>
      have effect := broadcastSnapshots_effect server
      exact flushStage_touched effect (fun _ => rfl) (congrArg Server.dirtyPlayers effect.frame :)
        (congrArg Server.flushPlayers effect.frame :) (congrArg Server.db effect.frame :)
  | fanout =>
      have frame := (processFanoutWork_run server).frame
      exact flushStage_same (.of_eq (congrArg Server.sessions frame :) (congrArg Server.dirtyPlayers frame :)
        (congrArg Server.flushPlayers frame :)) (congrArg Server.db frame :) rfl
  | dirtyFlush fails now => exact flushStage_flush agree fails now
  | beginFlush =>
      refine flushStage_same ⟨fun _ => rfl, ?_⟩ rfl rfl
      show ∅ ∪ (server.flushPlayers ∪ server.dirtyPlayers) = server.dirtyPlayers ∪ server.flushPlayers
      rw [Finset.empty_union, Finset.union_comm]
  | clock clockMs =>
      have frame := broadcastClock_frame server clockMs
      exact flushStage_same (.of_eq (congrArg Server.sessions frame :) (congrArg Server.dirtyPlayers frame :)
        (congrArg Server.flushPlayers frame :)) (congrArg Server.db frame :) rfl

theorem flushStage_handle {pending : List Event} (inv : Inv pending server) (moment : Moment) (event : Event) :
    FlushStage ⟨server, .handle moment event, (server.handleEvent moment event).1⟩ := by
  have effect := handleEvent_effect inv moment event
  cases event with
  | connected peer => exact flushStage_same (.of_eq rfl rfl rfl) rfl rfl
  | data peer bytes =>
      refine flushStage_of_marks (outcome_marks inv.agree effect.outcome) ?_ fun rooted => effect_rooted rooted effect
      intro player changed
      rcases List.mem_append.mp changed with accepted | joined
      · exact Finset.mem_union_left _ (accepted_dirty (Option.mem_toList.mp accepted))
      · exact Finset.mem_union_left _ (joined_dirty effect.outcome (Option.mem_toList.mp joined))
  | disconnected peer reason => exact flushStage_disconnect inv.agree effect

end Stages

/-! Whole runs. -/
section Runs
variable {F : Type} [Platform F] [Codec F] {db : Db F} {trace : List (Stage F)} {server : Server F}
  {pending : List Event}

structure FlushInv (trace : List (Stage F)) (server : Server F) : Prop where
  owed : owedAfter trace ⊆ unwritten server
  flags : SessionFlags server
  rooted : Rooted server

theorem FlushInv.snoc {stage : Stage F} (inv : FlushInv trace stage.before) (step : FlushStage stage) :
    FlushInv (trace ++ [stage]) stage.after := by
  refine ⟨?_, step.flags inv.flags, step.rooted inv.rooted⟩
  intro player owed
  rw [owedAfter, observe_snoc, noteOwed, Finset.mem_sdiff, Finset.mem_union, List.mem_toFinset,
    List.mem_toFinset] at owed
  obtain ⟨earlier | changed, untouched⟩ := owed
  · exact step.kept player (inv.owed earlier) untouched
  · exact step.changed player changed untouched

theorem run_flushInv (run : Run db trace server pending) : FlushInv trace server := by
  induction run with
  | start opened =>
      obtain ⟨identityPlayers, -, rfl⟩ := new_opened opened
      refine ⟨Finset.empty_subset _, ?_, ?_⟩
      · intro peer session found
        simp [Server.opened] at found
      · rintro player (queued | ⟨peer, session, found, -⟩)
        · simp [unwritten, Server.opened] at queued
        · simp [Server.opened] at found
  | @poll trace server state now script run polled ih =>
      have same : SameQueues server { server with host := state.host } := .of_eq rfl rfl rfl
      exact ih.snoc (flushStage_same same rfl rfl)
  | handle moment run ih => exact ih.snoc (flushStage_handle run.inv moment _)
  | tick tick run ih => exact ih.snoc (flushStage_tick run.inv.agree tick)

end Runs

/-! The flush at shutdown. -/
section Shutdown
variable {F : Type} [Platform F] {now : Int64} {start : Finset UInt64} {flush : ShutdownFlush F}

/-- What holds between two touches of the shutdown flush that began with the players `start`. -/
structure Shutting (now : Int64) (start : Finset UInt64) (flush : ShutdownFlush F) : Prop where
  left : unwritten flush.server ⊆ flush.pending
  queued : flush.pending ⊆ flush.server.flushPlayers
  known : ∀ player ∈ start, HasRow flush.server.db player
  done : ∀ player ∈ start, player ∈ flush.pending ∨ Persisted flush.server.db now player

theorem Shutting.touch (shutting : Shutting now start flush) (fails : UInt64 → Bool) (player : UInt64) :
    Shutting now start (shutdownTouch fails now flush player) := by
  unfold shutdownTouch attempt
  cases fails player with
  | true =>
      simp only [if_true]
      exact ⟨shutting.left, shutting.queued, shutting.known, shutting.done⟩
  | false =>
      simp only [Bool.false_eq_true, if_false]
      let after := written now (flush.server.dirtyPlayers.erase player) flush.server player
      obtain ⟨db, queue, dirty, -⟩ :=
        written_fields now (flush.server.dirtyPlayers.erase player) flush.server player
      refine ⟨?_, ?_, ?_, ?_⟩
      · intro other waiting
        change other ∈ unwritten after at waiting
        rw [unwritten, dirty, queue, ← Finset.erase_union_distrib, Finset.mem_erase] at waiting
        exact Finset.mem_erase.mpr ⟨waiting.1, shutting.left waiting.2⟩
      · show flush.pending.erase player ⊆ after.flushPlayers
        rw [queue]
        exact Finset.erase_subset_erase player shutting.queued
      · intro other member
        show HasRow after.db other
        rw [db]
        exact (hasRow_touch _ _).mpr (shutting.known other member)
      · intro other member
        show other ∈ flush.pending.erase player ∨ Persisted after.db now other
        rw [db]
        by_cases own : other = player
        · subst own
          exact Or.inr (persisted_own now (shutting.known other member))
        · rcases shutting.done other member with waiting | persisted
          · exact Or.inl (Finset.mem_erase.mpr ⟨own, waiting⟩)
          · exact Or.inr (persisted_touch player persisted)

theorem Shutting.pass (shutting : Shutting now start flush) (fails : UInt64 → Bool) (players : List UInt64) :
    Shutting now start (players.foldl (shutdownTouch fails now) flush) := by
  induction players generalizing flush with
  | nil => exact shutting
  | cons player rest ih => exact ih (shutting.touch fails player)

/-- A flush that reports success has nothing left; a failed one keeps every player it could not write. -/
structure ShutDown (now : Int64) (start : Finset UInt64) (after : Server F) (result : Except ShutdownError Unit) :
    Prop where
  clean : result = .ok () → after.dirtyPlayers = ∅ ∧ after.flushPlayers = ∅ ∧
    ∀ player ∈ start, Persisted after.db now player
  kept : ∀ player ∈ start, Persisted after.db now player ∨ player ∈ after.flushPlayers

theorem Shutting.attempts (fails : Nat → UInt64 → Bool) (attempts : Nat) (shutting : Shutting now start flush) :
    ShutDown now start (shutdownAttempts fails now attempts flush).1 (shutdownAttempts fails now attempts flush).2 := by
  induction attempts generalizing flush with
  | zero =>
      refine ⟨nofun, fun player member => ?_⟩
      exact (shutting.done player member).symm.imp_right fun waiting => shutting.queued waiting
  | succ attempts ih =>
      unfold shutdownAttempts
      split <;> rename_i empty
      · have persisted : ∀ player ∈ start, Persisted flush.server.db now player := by
          intro player member
          refine (shutting.done player member).resolve_left ?_
          simp [empty]
        have none_left := shutting.left
        rw [empty, Finset.subset_empty, unwritten, Finset.union_eq_empty] at none_left
        exact ⟨fun _ => ⟨none_left.1, none_left.2, persisted⟩, fun player member => Or.inl (persisted player member)⟩
      · exact ih (shutting.pass _ _)

theorem mem_sessionPlayers (server : Server F) (player : UInt64) :
    player ∈ server.sessionPlayers ↔ ∃ peer session, server.sessions.get? peer = some session ∧
      session.playerId = player := by
  simp only [sessionPlayers, List.mem_toFinset, List.mem_filterMap, mem_ascending, Option.map_eq_some_iff]
  constructor
  · rintro ⟨peer, -, session, found, own⟩
    exact ⟨peer, session, found, own⟩
  · rintro ⟨peer, session, found, own⟩
    exact ⟨peer, (FiniteMap.mem_keys_iff_exists _ _).mpr ⟨session, found⟩, session, found, own⟩

theorem flushAll_shutDown {server : Server F} (rooted : Rooted server) (fails : Nat → UInt64 → Bool) (now : Int64) :
    ShutDown now (server.sessionPlayers ∪ unwritten server) (server.flushAll fails now).1
      (server.flushAll fails now).2 := by
  unfold flushAll
  simp only [Finset.union_assoc]
  refine Shutting.attempts fails shutdownFlushAttempts ⟨?_, ?_, ?_, fun player member => Or.inl member⟩
  · intro player waiting
    simp only [unwritten, Finset.mem_union] at waiting ⊢
    tauto
  · exact Finset.subset_union_right
  · intro player member
    refine rooted player ?_
    rcases Finset.mem_union.mp member with own | waiting
    · exact Or.inr ((mem_sessionPlayers server player).mp own)
    · exact Or.inl waiting

end Shutdown

section Results
variable {F : Type} [Platform F] [Codec F] {db : Db F} {trace : List (Stage F)} {server : Server F}
  {pending : List Event}

/-- No pending update is lost in a run, and the flush that ends it reports truly. -/
theorem pending_updates_kept (run : Run db trace server pending) :
    (∀ player ∈ owedAfter trace, player ∈ server.dirtyPlayers ∨ player ∈ server.flushPlayers) ∧
      (∀ peer session, server.sessions.get? peer = some session →
        (session.dirty = true ↔
          session.playerId ∈ server.dirtyPlayers ∨ session.playerId ∈ server.flushPlayers)) ∧
      ∀ fails now after result, server.flushAll fails now = (after, result) →
        (result = .ok () → after.dirtyPlayers = ∅ ∧ after.flushPlayers = ∅ ∧
          ∀ player, Tracked server player → Persisted after.db now player) ∧
        ∀ player, Tracked server player → ¬ Persisted after.db now player → player ∈ after.flushPlayers := by
  have inv := run_flushInv run
  refine ⟨fun player owed => Finset.mem_union.mp (inv.owed owed), ?_, ?_⟩
  · intro peer session found
    rw [inv.flags peer session found, unwritten, Finset.mem_union]
  · intro fails now after result flushed
    have ended := flushAll_shutDown inv.rooted fails now
    rw [flushed] at ended
    have member : ∀ player, Tracked server player → player ∈ server.sessionPlayers ∪ unwritten server := by
      intro player tracked
      rcases tracked with waiting | own
      · exact Finset.mem_union_right _ waiting
      · exact Finset.mem_union_left _ ((mem_sessionPlayers server player).mpr own)
    refine ⟨fun succeeded => ?_, fun player tracked unpersisted => ?_⟩
    · obtain ⟨dirty, flush, persisted⟩ := ended.clean succeeded
      exact ⟨dirty, flush, fun player tracked => persisted player (member player tracked)⟩
    · exact (ended.kept player (member player tracked)).resolve_left unpersisted

/-- Two clients joined and neither is written yet. -/
theorem pending_updates_kept_joined :
    (∃ session, joinedServer.sessions.get? 1 = some session ∧ session.dirty = true ∧
      (session.playerId ∈ joinedServer.dirtyPlayers ∨ session.playerId ∈ joinedServer.flushPlayers)) ∧
      (joinedServer.flushAll (fun _ _ => false) 5000).1.dirtyPlayers = ∅ := by
  obtain ⟨trace, run⟩ := exists_run joinedServer_reached
  obtain ⟨-, flags, shutdown⟩ := pending_updates_kept run
  constructor
  · have joined : (joinedServer.sessions.get? 1).map Session.dirty = some true := by decide +kernel
    obtain ⟨session, found, dirty⟩ := Option.map_eq_some_iff.mp joined
    exact ⟨session, found, dirty, (flags 1 session found).mp dirty⟩
  · have succeeded : (joinedServer.flushAll (fun _ _ => false) 5000).2.toBool = true := by decide +kernel
    have ended := shutdown (fun _ _ => false) 5000
    generalize joinedServer.flushAll (fun _ _ => false) 5000 = flushed at succeeded ended ⊢
    obtain ⟨after, result⟩ := flushed
    cases result with
    | ok done => exact ((ended after _ rfl).1 rfl).1
    | error failure => cases succeeded

end Results
end SailwindOnline.FlushQueue
