import SailwindOnline.PlayerTable
import SailwindOnline.SessionRuns

/-!
Everything one handled event can do to a server, said once. A request of an
established session reaches its replies, the tables and that player's own
throttles; a movement, a chat line, a hello and a disconnect each have their own
footprint. The results about whole runs are read off these cases.
-/

namespace SailwindOnline.Effects
open World (Cell Subscription AoiUpdate)
open Server SessionIndex SessionRuns HostIndex Persistence PlayerTable RateLimiting

/-- What a message is sent for. -/
inductive Topic where
  | hello
  | clock
  | snapshot
  | interest
  | cell
  | reply
  | chat
deriving DecidableEq

def topicOf {F : Type} : ServerMessage F → Topic
  | .serverHello _ => .hello
  | .worldClock _ => .clock
  | .snapshotDelta .. => .snapshot
  | .aoiUpdate .. => .interest
  | .cellSnapshot .. => .cell
  | .moorAck .. | .ledgerAck _ | .marketStateAck _ => .reply
  | .chatBroadcast .. => .chat

section Posts
variable {F : Type} [Platform F]

/-- Nothing was unsent, and every new datagram is about one of `topics`. -/
def Posts (topics : List Topic) (server after : Server F) : Prop :=
  ∃ posts, after.sent = server.sent ++ posts ∧ ∀ post ∈ posts, topicOf post.2.payload ∈ topics

variable {topics : List Topic} {server middle after : Server F}

theorem posts_of_sent_eq (same : after.sent = server.sent) : Posts topics server after :=
  ⟨[], by simp [same], by simp⟩

theorem Posts.trans (first : Posts topics server middle) (second : Posts topics middle after) :
    Posts topics server after := by
  obtain ⟨early, grown, about⟩ := first
  obtain ⟨late, grownAgain, aboutAgain⟩ := second
  refine ⟨early ++ late, by rw [grownAgain, grown, List.append_assoc], ?_⟩
  intro post member
  rcases List.mem_append.mp member with old | new
  · exact about post old
  · exact aboutAgain post new

theorem posts_post (server : Server F) (peer : PeerId) {payload : ServerMessage F}
    (about : topicOf payload ∈ topics) : Posts topics server (server.post peer payload) :=
  ⟨[(peer, { seq := server.seq + 1, payload })], rfl, by simpa using about⟩

theorem posts_postBounded [Codec F] (server : Server F) (peer : PeerId) {payload : ServerMessage F}
    (about : topicOf payload ∈ topics) : Posts topics server (server.postBounded peer payload).1 := by
  unfold postBounded
  split
  · exact posts_of_sent_eq rfl
  · exact posts_post server peer about

end Posts

/-! Requests of an established session. -/
section Requests
variable {F : Type} [Platform F] {server middle after : Server F} {peer : PeerId} {session : Session F}

/-- The players some per-player throttle remembers. -/
def playerKeys (server : Server F) : Finset UInt64 :=
  server.tradeLimiter.last.keys ∪ server.clientStateLimiter.last.keys ∪ server.chatLimiter.last.keys ∪
    server.econLimiter.last.keys ∪ server.moorLimiter.last.keys

theorem keys_allow (limiter : RateLimiter) (key : UInt64) (nowMs : Int64) :
    (limiter.allow key nowMs).1.last.keys ⊆ insert key limiter.last.keys := by
  unfold RateLimiter.allow
  split
  · exact Finset.subset_insert _ _
  · split
    · split
      · exact Finset.subset_insert _ _
      · simp
    · simp

/-- The fields no request touches. -/
def requestFrame (server : Server F) : Server F :=
  { server with
    db := ⟨[], 0, [], FiniteMap.empty, [], []⟩
    seq := 0
    tradeLimiter := { minIntervalMs := 0 }
    clientStateLimiter := { minIntervalMs := 0 }
    chatLimiter := { minIntervalMs := 0 }
    econLimiter := { minIntervalMs := 0 }
    moorLimiter := { minIntervalMs := 0 }
    sent := [] }

structure Served (server : Server F) (session : Session F) (after : Server F) : Prop where
  frame : requestFrame after = requestFrame server
  identities : SameIdentities server.db after.db
  posts : Posts [.reply] server after
  keys : playerKeys after ⊆ insert session.playerId (playerKeys server)

theorem Served.refl (server : Server F) (session : Session F) : Served server session server :=
  ⟨rfl, .refl _, posts_of_sent_eq rfl, Finset.subset_insert _ _⟩

theorem Served.trans (first : Served server session middle) (second : Served middle session after) :
    Served server session after where
  frame := second.frame.trans first.frame
  identities := first.identities.trans second.identities
  posts := first.posts.trans second.posts
  keys := second.keys.trans (Finset.insert_subset (Finset.mem_insert_self _ _) first.keys)

theorem Served.post (server : Server F) (session : Session F) (peer : PeerId) {payload : ServerMessage F}
    (about : topicOf payload = .reply) : Served server session (server.post peer payload) :=
  ⟨rfl, .refl _, posts_post server peer (by simp [about]), Finset.subset_insert _ _⟩

theorem Served.ofDb (session : Session F) {db : Db F} (same : SameIdentities server.db db) :
    Served server session { server with db } :=
  ⟨rfl, same, posts_of_sent_eq rfl, Finset.subset_insert _ _⟩

theorem applyEcon_served (server : Server F) (moment : Moment) (peer : PeerId) (session : Session F)
    (player : UInt64) (txn : Ledger.Txn) :
    Served server session (server.applyEcon moment peer player txn).1 := by
  have rows := SameIdentities.ledgerApply (storeFaults moment) moment.persistenceMs server.db player txn
  unfold applyEcon
  split <;> rename_i applied
  · rw [applied] at rows
    exact .ofDb session rows
  · rw [applied] at rows
    exact (Served.ofDb session rows).trans (.post _ _ _ rfl)

theorem applyTrade_served (server : Server F) (moment : Moment) (peer : PeerId) (session : Session F)
    (trade : Market.Trade) : Served server session (server.applyTrade moment peer trade).1 := by
  have rows := SameIdentities.marketApply (storeFaults moment) moment.persistenceMs server.db trade
  unfold applyTrade
  split <;> rename_i applied
  · rw [applied] at rows
    exact .ofDb session rows
  · rw [applied] at rows
    exact (Served.ofDb session rows).trans (.post _ _ _ rfl)

theorem playerKeys_subset {player : UInt64}
    (trade : after.tradeLimiter.last.keys ⊆ insert player server.tradeLimiter.last.keys)
    (state : after.clientStateLimiter.last.keys ⊆ insert player server.clientStateLimiter.last.keys)
    (chat : after.chatLimiter.last.keys ⊆ insert player server.chatLimiter.last.keys)
    (econ : after.econLimiter.last.keys ⊆ insert player server.econLimiter.last.keys)
    (moor : after.moorLimiter.last.keys ⊆ insert player server.moorLimiter.last.keys) :
    playerKeys after ⊆ insert player (playerKeys server) := by
  have widen : ∀ {keys : Finset UInt64}, keys ⊆ playerKeys server →
      insert player keys ⊆ insert player (playerKeys server) := fun within =>
    Finset.insert_subset_insert _ within
  refine Finset.union_subset (Finset.union_subset (Finset.union_subset (Finset.union_subset ?_ ?_) ?_) ?_) ?_
  · exact trade.trans (widen fun key member => by simp [playerKeys, member])
  · exact state.trans (widen fun key member => by simp [playerKeys, member])
  · exact chat.trans (widen fun key member => by simp [playerKeys, member])
  · exact econ.trans (widen fun key member => by simp [playerKeys, member])
  · exact moor.trans (widen fun key member => by simp [playerKeys, member])

theorem Served.econCharged (server : Server F) (session : Session F) (now : Int64) :
    Served server session
      { server with econLimiter := (server.econLimiter.allow session.playerId now).1 } :=
  ⟨rfl, .refl _, posts_of_sent_eq rfl, playerKeys_subset (Finset.subset_insert _ _)
    (Finset.subset_insert _ _) (Finset.subset_insert _ _) (keys_allow _ _ _) (Finset.subset_insert _ _)⟩

theorem Served.tradeCharged (server : Server F) (session : Session F) (now : Int64) :
    Served server session
      { server with tradeLimiter := (server.tradeLimiter.allow session.playerId now).1 } :=
  ⟨rfl, .refl _, posts_of_sent_eq rfl, playerKeys_subset (keys_allow _ _ _) (Finset.subset_insert _ _)
    (Finset.subset_insert _ _) (Finset.subset_insert _ _) (Finset.subset_insert _ _)⟩

theorem Served.moorCharged (server : Server F) (session : Session F) (now : Int64) :
    Served server session
      { server with moorLimiter := (server.moorLimiter.allow session.playerId now).1 } :=
  ⟨rfl, .refl _, posts_of_sent_eq rfl, playerKeys_subset (Finset.subset_insert _ _)
    (Finset.subset_insert _ _) (Finset.subset_insert _ _) (Finset.subset_insert _ _) (keys_allow _ _ _)⟩

theorem playerKeys_stateCharged (server : Server F) (player : UInt64) (now : Int64) :
    playerKeys { server with clientStateLimiter := (server.clientStateLimiter.allow player now).1 } ⊆
      insert player (playerKeys server) :=
  playerKeys_subset (Finset.subset_insert _ _) (keys_allow _ _ _) (Finset.subset_insert _ _)
    (Finset.subset_insert _ _) (Finset.subset_insert _ _)

theorem playerKeys_chatCharged (server : Server F) (player : UInt64) (now : Int64) :
    playerKeys { server with chatLimiter := (server.chatLimiter.allow player now).1 } ⊆
      insert player (playerKeys server) :=
  playerKeys_subset (Finset.subset_insert _ _) (Finset.subset_insert _ _) (keys_allow _ _ _)
    (Finset.subset_insert _ _) (Finset.subset_insert _ _)

theorem onEcon_served (moment : Moment) (txn : EconTxn) (found : server.sessions.get? peer = some session) :
    Served server session (server.onEcon moment peer txn).1 := by
  unfold onEcon
  simp only [found]
  split
  · exact .refl _ _
  split
  · exact .refl _ _
  · exact applyEcon_served _ _ _ _ _ _
  · have charged := Served.econCharged server session moment.admissionMs
    split
    · exact charged.trans (applyEcon_served _ _ _ _ _ _)
    · exact charged

theorem onTrade_served (moment : Moment) (request : MarketTradeRequest)
    (found : server.sessions.get? peer = some session) :
    Served server session (server.onTrade moment peer request).1 := by
  unfold onTrade
  simp only [found]
  split
  · exact .refl _ _
  · exact applyTrade_served _ _ _ _ _
  · have charged := Served.tradeCharged server session moment.admissionMs
    split
    · exact charged.trans (applyTrade_served _ _ _ _ _)
    · unfold throttleTrade
      split
      · exact charged
      · exact charged.trans (.post _ _ _ rfl)

theorem onMoor_served [Codec F] (moment : Moment) (request : MoorRequest F)
    (found : server.sessions.get? peer = some session) :
    Served server session (server.onMoor moment peer request).1 := by
  unfold onMoor
  simp only [found]
  split
  · exact .refl _ _
  split
  · refine ⟨?_, ?_, posts_postBounded _ _ (by simp [topicOf]), ?_⟩ <;> unfold postBounded <;> split
    all_goals first | rfl | exact .refl _ | exact Finset.subset_insert _ _
  have charged := Served.moorCharged server session moment.admissionMs
  split
  · exact charged
  split <;> rename_i stored
  · exact charged
  · cases attempt_eq_ok stored
    refine Served.trans (charged.trans ?_) (Served.post _ session peer rfl)
    exact .ofDb session ⟨rfl, rfl⟩

end Requests

/-! Movement and chat. -/
section Moves
variable {F : Type} [Platform F] {server after : Server F} {peer : PeerId} {session : Session F}

/-- Where the audience of a new job came from. -/
def CapturedFrom (server : Server F) (audience : Audience) : Prop :=
  server.fanoutAudienceCache = some audience ∨
    (server.fanoutAudienceCache = none ∧ audience.recipients = server.currentRecipients)

theorem captureFanoutRecipients_spec (server : Server F) :
    server.captureFanoutRecipients = (server, none) ∨
      ∃ audience nextAudience, CapturedFrom server audience ∧ server.captureFanoutRecipients =
        ({ server with fanoutAudienceCache := some audience, nextAudience }, some audience) := by
  unfold captureFanoutRecipients
  split <;> rename_i cached
  · refine Or.inr ⟨_, server.nextAudience, Or.inl cached, ?_⟩
    rw [← cached]
  · simp only
    split
    · exact Or.inl rfl
    · exact Or.inr ⟨_, _, Or.inr ⟨cached, rfl⟩, rfl⟩

/-- What an established session's datagram does, unless it is a hello. -/
inductive RequestEffect (server : Server F) (moment : Moment) (peer : PeerId) (session : Session F) :
    Server F → Prop
  | served {after : Server F} (served : Served server session after) :
      RequestEffect server moment peer session after
  | moved (motion : Motion F) (state : ClientState F) (cell : Cell)
      (placed : cell = server.world.grid.cellOf motion.pos.1 motion.pos.2.2) :
      RequestEffect server moment peer session
        { server with
          clientStateLimiter := (server.clientStateLimiter.allow session.playerId moment.admissionMs).1
          world := server.world.place session.playerId motion.pos.1 motion.pos.2.2
          sessions := server.sessions.insert peer
            (movedSession session motion state (session.sub.recenter cell).1 cell)
          dirtyPlayers := insert session.playerId server.dirtyPlayers
          aoiRecipients :=
            if (session.sub.recenter cell).2.isEmpty then server.aoiRecipients
            else insert peer server.aoiRecipients }
  | spoke {envelope : Envelope F} {cell : Cell} {audience : Audience} {nextAudience bytes : Nat}
      (here : session.cell = some cell) (about : topicOf envelope.payload = .chat)
      (captured : CapturedFrom server audience) :
      RequestEffect server moment peer session
        { server with
          chatLimiter := (server.chatLimiter.allow session.playerId moment.admissionMs).1
          seq := server.seq + 1
          fanoutAudienceCache := some audience
          nextAudience
          chatFanoutBytes := bytes
          chatFanout := server.chatFanout ++ [{ envelope, senderCell := some cell, audience }] }

theorem onClientState_effect (moment : Moment) (state : ClientState F)
    (found : server.sessions.get? peer = some session) :
    RequestEffect server moment peer session (server.onClientState moment peer state) := by
  have charged : Served server session { server with
      clientStateLimiter := (server.clientStateLimiter.allow session.playerId moment.admissionMs).1 } :=
    ⟨rfl, .refl _, posts_of_sent_eq rfl, playerKeys_stateCharged _ _ _⟩
  unfold onClientState
  simp only [found]
  split
  · exact .served charged
  split
  · exact .served charged
  · rename_i motion _
    have placed : ((server.world.place session.playerId motion.pos.1 motion.pos.2.2).cellOfEntity
        session.playerId).getD ((server.world.place session.playerId motion.pos.1 motion.pos.2.2).grid.cellOf
          motion.pos.1 motion.pos.2.2) = server.world.grid.cellOf motion.pos.1 motion.pos.2.2 := by
      simp [World.cellOfEntity, World.place, World.cellOf_placeInCell]
    rw [placed]
    have moved : RequestEffect server moment peer session _ :=
      .moved motion state (server.world.grid.cellOf motion.pos.1 motion.pos.2.2) rfl
    unfold emitAoi
    split <;> rename_i still
    · rw [if_pos still] at moved
      exact moved
    · rw [if_neg still] at moved
      simpa [scheduleAoi] using moved

theorem onChat_effect [Codec F] (moment : Moment) (chat : ChatSend)
    (found : server.sessions.get? peer = some session) :
    RequestEffect server moment peer session (server.onChat moment peer chat) := by
  have charged : ∀ seq, Served server session { server with
      chatLimiter := (server.chatLimiter.allow session.playerId moment.admissionMs).1, seq } := fun _ =>
    ⟨rfl, .refl _, posts_of_sent_eq rfl, playerKeys_chatCharged _ _ _⟩
  unfold onChat
  simp only [found]
  split
  · exact .served (.refl _ _)
  · rename_i cell here
    split
    · exact .served (.refl _ _)
    split
    · exact .served (.refl _ _)
    split
    · exact .served (charged _)
    · unfold queueChat
      split
      · exact .served (charged _)
      · rcases captureFanoutRecipients_spec { server with
            chatLimiter := (server.chatLimiter.allow session.playerId moment.admissionMs).1
            seq := server.seq + 1 } with none_captured | ⟨audience, nextAudience, source, captured⟩
        · simp only [none_captured]
          exact .served (charged _)
        · simp only [captured]
          exact .spoke here rfl source

end Moves

/-! Sessions that end and sessions that open. -/
section Lifecycles
variable {F : Type} [Platform F] {pending : List Event} {server : Server F} {peer : PeerId}

/-- The server without the session of `peer`, which belonged to `player`. -/
def dropped (server : Server F) (peer : PeerId) (player : UInt64) : Server F :=
  { server with
    sessions := server.sessions.erase peer
    playerPeers := server.playerPeers.erase player
    playerOrder := server.playerOrder.erase player
    snapshotRecipients := server.snapshotRecipients.erase peer
    aoiRecipients := server.aoiRecipients.erase peer
    fanoutAudienceCache := none }

theorem unregisterSession_eq {stray : UInt64 → Prop} {session : Session F} (agree : SessionsAgree stray server)
    (found : server.sessions.get? peer = some session) :
    server.unregisterSession peer = (dropped server peer session.playerId, some session) := by
  unfold unregisterSession
  simp only [found, owner_of agree found, if_true]
  rfl

/-- A take-over: the older session of the player goes, with its transport peer. -/
inductive Superseded (server : Server F) (player : UInt64) : Server F → Prop
  | absent (unowned : server.playerPeers.get? player = none) : Superseded server player server
  | evicted {prior : PeerId} {session : Session F} {host : Host}
      (owned : server.playerPeers.get? player = some prior)
      (found : server.sessions.get? prior = some session) (own : session.playerId = player)
      (addrs : ∀ other, host.peerAddr other = if other = prior then none else server.host.peerAddr other) :
      Superseded server player
        { dropped server prior player with
          host
          helloLimiter := server.helloLimiter.clear (UInt64.ofNat prior) }

theorem evictTransport_eq (hosted : Hosted pending server) (prior : PeerId) :
    ∃ host, server.evictTransport prior = ({ server with host }, .ok ()) ∧
      ∀ other, host.peerAddr other = if other = prior then none else server.host.peerAddr other := by
  unfold evictTransport
  cases live : server.host.peerAddr prior with
  | none =>
      refine ⟨server.host, rfl, ?_⟩
      intro other
      split <;> rename_i same
      · rw [same, live]
      · rfl
  | some addr =>
      obtain ⟨after, notice, done, -, -, moved⟩ := disconnect_spec hosted.indexed live
      exact ⟨after, by simp [done], moved⟩

theorem supersede_effect (inv : Inv pending server) (player : UInt64)
    (vacant : server.sessions.get? peer = none) :
    ∃ after, server.supersede peer player = (after, .ok ()) ∧ Superseded server player after := by
  unfold supersede
  cases owner : server.playerPeers.get? player with
  | none => exact ⟨server, rfl, .absent owner⟩
  | some prior =>
      obtain ⟨session, found, rfl⟩ := (inv.agree.owner_iff player prior).mp owner
      have apart : prior ≠ peer := by
        rintro rfl
        rw [vacant] at found
        cases found
      obtain ⟨host, evicted, addrs⟩ := evictTransport_eq inv.hosted prior
      have agree : SessionsAgree noStray { server with host } :=
        ⟨inv.agree.owner_iff, inv.agree.order, inv.agree.recipients, inv.agree.scheduled,
          inv.agree.coherent, inv.agree.placed, inv.agree.cells⟩
      have gone := unregisterSession_eq agree found
      simp only [apart, if_false, evicted, gone]
      exact ⟨_, rfl, .evicted owner found rfl addrs⟩

/-- How a new session gets its generation: the next one, or one past the renumbered live sessions. -/
inductive Numbered (server : Server F) : Server F → UInt64 → Prop
  | counted (room : server.nextSessionGeneration ≠ maxU64) :
      Numbered server { server with nextSessionGeneration := server.nextSessionGeneration + 1 }
        (server.nextSessionGeneration + 1)
  | renumbered (spent : server.nextSessionGeneration = maxU64) :
      Numbered server
        { server.invalidateFanoutJobs with
          sessions := rekeyedSessions server.sessions
          nextSessionGeneration := UInt64.ofNat server.sessions.size + 1 }
        (UInt64.ofNat server.sessions.size + 1)

theorem allocateSessionGeneration_effect (fits : server.sessions.size ≤ server.cfg.maxTransportPeersUsize) :
    ∃ after generation, server.allocateSessionGeneration = (after, .ok generation) ∧
      Numbered server after generation := by
  unfold allocateSessionGeneration
  by_cases spent : server.nextSessionGeneration = maxU64
  · obtain ⟨rekeyed, done, ready⟩ := rekeyLiveSessionGenerations_spec fits
    simp only [spent, if_true, done, ready, if_false]
    refine ⟨_, _, rfl, ?_⟩
    unfold rekeyLiveSessionGenerations at done
    rw [if_neg (by omega)] at done
    cases done
    exact .renumbered spent
  · simp only [spent, if_false]
    exact ⟨_, _, rfl, .counted spent⟩

/-- The server once `session` is registered on `peer` and its hello is answered. -/
def entered (server : Server F) (peer : PeerId) (session : Session F) (hello : ServerHello F) : Server F :=
  { server with
    sessions := server.sessions.insert peer session
    playerPeers := server.playerPeers.insert session.playerId peer
    playerOrder := insert session.playerId server.playerOrder
    snapshotRecipients := insert peer server.snapshotRecipients
    aoiRecipients := insert peer server.aoiRecipients
    fanoutAudienceCache := none
    dirtyPlayers := insert session.playerId server.dirtyPlayers
    seq := server.seq + 1
    sent := server.sent ++ [(peer, { seq := server.seq + 1, payload := .serverHello hello })] }

def originOf (server : Server F) : Cell := server.world.grid.cellOf Platform.zero Platform.zero

/-- The session a hello opens, before it is numbered. -/
def firstSession (server : Server F) (player : UInt64) (identityHash name : String) : Session F :=
  newSession player identityHash name
    (({ radius := server.cfg.aoiRadiusI32 } : Subscription).recenter (originOf server)).1 (originOf server)

def placedAtOrigin (server : Server F) (player : UInt64) : Server F :=
  { server with world := server.world.placeInCell player (originOf server) }

structure Greets (hello : ServerHello F) (player : UInt64) (gold : Int64) : Prop where
  accepted : hello.accepted = true
  playerId : hello.playerId = player
  balance : hello.balanceGold = gold

theorem helloReply_greets (server : Server F) (moment : Moment) (player : UInt64) (gold : Int64) :
    ∃ hello, Greets hello player gold ∧ server.helloReply moment true "" player gold = .serverHello hello :=
  ⟨_, ⟨rfl, rfl, rfl⟩, rfl⟩

def withGeneration (generation : UInt64) (session : Session F) : Session F := { session with generation }

theorem registerSession_effect {session : Session F}
    (fits : server.sessions.size ≤ server.cfg.maxTransportPeersUsize)
    (vacant : server.sessions.get? peer = none)
    (unowned : server.playerPeers.get? session.playerId = none) :
    ∃ numbered generation, Numbered server numbered generation ∧ server.registerSession peer session =
      ({ numbered.insertSession peer (withGeneration generation session) with
          aoiRecipients := insert peer numbered.aoiRecipients }, .ok ()) := by
  obtain ⟨numbered, generation, allocated, numbering⟩ := allocateSessionGeneration_effect fits
  refine ⟨numbered, generation, numbering, ?_⟩
  unfold registerSession
  simp only [vacant, unowned, allocated, Option.isSome_none, Bool.false_eq_true, if_false]
  simp only [scheduleAoi, insertSession, FiniteMap.get?_insert_self, Option.isSome_some, if_true]
  rfl

theorem openSession_of {player : UInt64} {identityHash name : String} {opened : Server F}
    (registered : (placedAtOrigin server player).registerSession peer (firstSession server player identityHash name) =
      (opened, .ok ())) (moment : Moment) (gold : Int64) :
    server.openSession moment peer player identityHash name gold =
      ((opened.sendAcceptedHello moment peer player gold).emitAoi peer
        (({ radius := server.cfg.aoiRadiusI32 } : Subscription).recenter (originOf server)).2, .ok ()) := by
  unfold placedAtOrigin firstSession originOf at registered
  unfold openSession
  dsimp only
  rw [registered]
  rfl

theorem openSession_effect {player : UInt64} (fits : server.sessions.size ≤ server.cfg.maxTransportPeersUsize)
    (vacant : server.sessions.get? peer = none) (unowned : server.playerPeers.get? player = none)
    (moment : Moment) (identityHash name : String) (gold : Int64) :
    ∃ numbered generation hello, Numbered (placedAtOrigin server player) numbered generation ∧
      Greets hello player gold ∧ server.openSession moment peer player identityHash name gold =
        (entered numbered peer (withGeneration generation (firstSession server player identityHash name)) hello,
          .ok ()) := by
  have roomy : (placedAtOrigin server player).sessions.size ≤
      (placedAtOrigin server player).cfg.maxTransportPeersUsize := fits
  have free : (placedAtOrigin server player).sessions.get? peer = none := vacant
  have own : (placedAtOrigin server player).playerPeers.get?
      (firstSession server player identityHash name).playerId = none := unowned
  obtain ⟨numbered, generation, numbering, registered⟩ := registerSession_effect roomy free own
  obtain ⟨hello, greets, reply⟩ := helloReply_greets
    { numbered.insertSession peer (withGeneration generation (firstSession server player identityHash name)) with
      aoiRecipients := insert peer numbered.aoiRecipients } moment player gold
  refine ⟨numbered, generation, hello, numbering, greets, ?_⟩
  rw [openSession_of registered]
  simp only [sendAcceptedHello, reply]
  unfold emitAoi
  split
  · rfl
  · simp only [scheduleAoi, post, insertSession, FiniteMap.get?_insert_self, Option.isSome_some, if_true,
      Finset.insert_idem]
    rfl

theorem joinPlayer_effect (inv : Inv pending server) (vacant : server.sessions.get? peer = none)
    (live : (server.host.peerAddr peer).isSome) (moment : Moment) (player : UInt64)
    (identityHash name : String) (gold : Int64) :
    ∃ middle numbered generation hello, Superseded server player middle ∧
      Numbered (placedAtOrigin middle player) numbered generation ∧ Greets hello player gold ∧
      server.joinPlayer moment peer player identityHash name gold =
        (entered numbered peer (withGeneration generation (firstSession server player identityHash name)) hello,
          .ok ()) := by
  obtain ⟨middle, done, superseded⟩ := supersede_effect inv player vacant
  obtain ⟨_, again, joinable⟩ := supersede_spec inv player vacant live
  rw [done, Prod.mk.injEq] at again
  cases again.1
  obtain ⟨numbered, generation, hello, numbering, greets, opened⟩ := openSession_effect
    joinable.hosted.size_le joinable.vacant joinable.unowned moment identityHash name gold
  refine ⟨middle, numbered, generation, hello, superseded, numbering, greets, ?_⟩
  unfold joinPlayer
  rw [done]
  simp only [opened]
  cases superseded <;> rfl

def unnumbered (session : Session F) : Session F := withGeneration 0 session

theorem Numbered.sessions_view {numbered : Server F} {generation : UInt64}
    (numbering : Numbered server numbered generation) (other : PeerId) :
    (numbered.sessions.get? other).map unnumbered = (server.sessions.get? other).map unnumbered := by
  cases numbering with
  | counted room => rfl
  | renumbered spent => exact rekeyedSessions_view unnumbered (fun _ _ => rfl) server.sessions other

theorem Superseded.sessions_of {player : UInt64} {after : Server F} (superseded : Superseded server player after)
    {other : PeerId} {later : Session F} (found : after.sessions.get? other = some later) :
    server.sessions.get? other = some later ∧ server.playerPeers.get? player ≠ some other := by
  cases superseded with
  | absent unowned => exact ⟨found, by simp [unowned]⟩
  | evicted owned held own addrs =>
      simp only [dropped, FiniteMap.get?_erase] at found
      split at found <;> rename_i apart
      · cases found
      · exact ⟨found, by simpa [owned] using Ne.symm apart⟩

/-- The fields that opening a session leaves alone. -/
def joinFrame (server : Server F) : Server F :=
  { server with
    host := Host.bound (ValidConfig.hostLimits server.cfg.toConfig) connectKey
    world := { grid := server.world.grid }
    sessions := FiniteMap.empty
    playerPeers := FiniteMap.empty
    playerOrder := ∅
    snapshotRecipients := ∅
    aoiRecipients := ∅
    chatFanout := []
    chatFanoutBytes := 0
    clockFanout := none
    fanoutAudienceCache := none
    dirtyPlayers := ∅
    nextSessionGeneration := 0
    seq := 0
    helloLimiter := { minIntervalMs := 0 }
    sent := [] }

section Entering
variable {player : UInt64} {middle numbered : Server F} {generation : UInt64} (peer : PeerId)
  (session : Session F) (reply : ServerHello F)

theorem entered_frame (superseded : Superseded server player middle)
    (numbering : Numbered (placedAtOrigin middle player) numbered generation) :
    joinFrame (entered numbered peer session reply) = joinFrame server := by
  cases superseded <;> cases numbering <;>
    simp only [joinFrame, entered, placedAtOrigin, dropped, invalidateFanoutJobs, World.placeInCell_grid]

theorem entered_sent (superseded : Superseded server player middle)
    (numbering : Numbered (placedAtOrigin middle player) numbered generation) :
    (entered numbered peer session reply).sent =
      server.sent ++ [(peer, { seq := server.seq + 1, payload := .serverHello reply })] := by
  cases superseded <;> cases numbering <;> rfl

theorem entered_dirty (superseded : Superseded server player middle)
    (numbering : Numbered (placedAtOrigin middle player) numbered generation) :
    (entered numbered peer session reply).dirtyPlayers = insert session.playerId server.dirtyPlayers := by
  cases superseded <;> cases numbering <;> rfl

theorem entered_waiting (superseded : Superseded server player middle)
    (numbering : Numbered (placedAtOrigin middle player) numbered generation) (other : PeerId) :
    other ∈ (entered numbered peer session reply).aoiRecipients ↔
      other = peer ∨ (server.playerPeers.get? player ≠ some other ∧ other ∈ server.aoiRecipients) := by
  have kept : (entered numbered peer session reply).aoiRecipients = insert peer middle.aoiRecipients := by
    cases numbering <;> rfl
  rw [kept, Finset.mem_insert]
  cases superseded with
  | absent unowned => simp [unowned]
  | evicted owned found own addrs => simp [dropped, owned, eq_comm]

/-- After a hello has registered `peer`, every other session is an earlier one, renumbered at most. -/
theorem entered_sessions (superseded : Superseded server player middle)
    (numbering : Numbered (placedAtOrigin middle player) numbered generation) {other : PeerId}
    {later : Session F} (found : (entered numbered peer session reply).sessions.get? other = some later) :
    (other = peer ∧ later = session) ∨ (other ≠ peer ∧ ∃ old, server.sessions.get? other = some old ∧
      server.playerPeers.get? player ≠ some other ∧ unnumbered later = unnumbered old) := by
  simp only [entered, FiniteMap.get?_insert] at found
  split at found <;> rename_i own
  · cases found
    exact Or.inl ⟨own, rfl⟩
  · refine Or.inr ⟨own, ?_⟩
    have view := numbering.sessions_view other
    rw [found, Option.map_some, eq_comm, Option.map_eq_some_iff] at view
    obtain ⟨old, present, same⟩ := view
    obtain ⟨kept, apart⟩ := superseded.sessions_of present
    exact ⟨old, kept, apart, same.symm⟩

theorem entered_owners (own : session.playerId = player) (superseded : Superseded server player middle)
    (numbering : Numbered (placedAtOrigin middle player) numbered generation) (other : UInt64) :
    (entered numbered peer session reply).playerPeers.get? other =
      if other = player then some peer else server.playerPeers.get? other := by
  have inserted : (entered numbered peer session reply).playerPeers = middle.playerPeers.insert player peer := by
    cases numbering <;> simp [entered, own, placedAtOrigin, invalidateFanoutJobs]
  rw [inserted, FiniteMap.get?_insert]
  cases superseded with
  | absent unowned => rfl
  | evicted owned found own addrs =>
      split <;> rename_i same
      · rfl
      · simp [dropped, FiniteMap.get?_erase, same]

end Entering

end Lifecycles

/-! Hellos. -/
section Hellos
variable {F : Type} [Platform F] {pending : List Event} {server : Server F} {peer : PeerId}

def capacityReason : String := "server player capacity reached"

theorem starts_apart {text other : String} (apart : text.toList.head? ≠ other.toList.head?) : text ≠ other := by
  rintro rfl
  exact apart rfl

theorem validateHelloString_reason {value : Option String} {field : String} {required : Bool} {maxLen : Nat}
    {reason : String} (named : field.toList.head?.isSome ∧ field.toList.head? ≠ some 's')
    (failed : validateHelloString value field required maxLen = .error reason) : reason ≠ capacityReason := by
  have shape : reason = s!"missing {field}" ∨
      reason = s!"{field} exceeds maximum length ({maxLen} bytes)" := by
    unfold validateHelloString at failed
    split at failed
    · cases failed
      exact Or.inl rfl
    · split at failed
      · split at failed
        · cases failed
        · cases failed
          exact Or.inr rfl
      · cases failed
  obtain ⟨present, different⟩ := named
  obtain ⟨first, starts⟩ := Option.isSome_iff_exists.mp present
  rcases shape with rfl | rfl
  · exact starts_apart (by simp [capacityReason, toString])
  · have head : (s!"{field} exceeds maximum length ({maxLen} bytes)").toList.head? = some first := by
      simp [toString, starts]
    refine starts_apart ?_
    rw [head, ← starts]
    exact different

theorem validateHello_reason {maxLen : Nat} {hello : ClientHello} {reason : String}
    (failed : validateHello maxLen hello = .error reason) : reason ≠ capacityReason := by
  unfold validateHello at failed
  simp only [bind, Except.bind, pure, Except.pure] at failed
  repeat' split at failed
  all_goals cases failed
  all_goals rename_i refused
  all_goals exact validateHelloString_reason (by decide) refused

/-- A hello that has reached the gates: its strings are good and its live peer owns no session. -/
structure Presented (server : Server F) (peer : PeerId) (hello : ClientHello) (identityHash name : String)
    (ip : IpAddr) : Prop where
  read : ∃ token, validateHello server.cfg.maxWireStringLenUsize hello = .ok (token, name) ∧
    identityHash = tokenHash token
  vacant : server.sessions.get? peer = none
  located : ∃ addr, server.host.peerAddr peer = some addr ∧ addr.ip = ip

def helloCharged (server : Server F) (moment : Moment) (peer : PeerId) : Server F :=
  { server with helloLimiter := (server.helloLimiter.allow (UInt64.ofNat peer) moment.admissionMs).1 }

def sourceCharged (server : Server F) (moment : Moment) (peer : PeerId) (ip : IpAddr) : Server F :=
  { helloCharged server moment peer with
    sourceSessionLimiter := (server.sourceSessionLimiter.allow ip moment.admissionMs).1 }

/-- A known identity is held to the reconnect gate, an unknown one to the new-session gate. -/
def identityCharged (server : Server F) (moment : Moment) (peer : PeerId) (ip : IpAddr)
    (identityHash : String) : Server F :=
  match server.identityPlayers.get? identityHash with
  | some player =>
    { sourceCharged server moment peer ip with
      reconnectLimiter := (server.reconnectLimiter.allow player moment.admissionMs).1 }
  | none =>
    { sourceCharged server moment peer ip with
      newSessionLimiter := (server.newSessionLimiter.allow moment.admissionMs).1 }

def identityRested (server : Server F) (moment : Moment) (identityHash : String) : Bool :=
  match server.identityPlayers.get? identityHash with
  | some player => (server.reconnectLimiter.allow player moment.admissionMs).2
  | none => (server.newSessionLimiter.allow moment.admissionMs).2

/-- How far into the gates a hello got. -/
inductive Charges (server : Server F) (moment : Moment) (peer : PeerId) (hello : ClientHello) :
    Server F → Prop
  | hello : Charges server moment peer hello (helloCharged server moment peer)
  | source {identityHash name : String} {ip : IpAddr}
      (presented : Presented server peer hello identityHash name ip) :
      Charges server moment peer hello (sourceCharged server moment peer ip)
  | identity {identityHash name : String} {ip : IpAddr}
      (presented : Presented server peer hello identityHash name ip)
      (fresh : (server.sourceSessionLimiter.allow ip moment.admissionMs).2 = true) :
      Charges server moment peer hello (identityCharged server moment peer ip identityHash)

/-- All gates are passed. -/
structure Gated (server : Server F) (moment : Moment) (peer : PeerId) (hello : ClientHello)
    (identityHash name : String) (ip : IpAddr) : Prop where
  presented : Presented server peer hello identityHash name ip
  fresh : (server.sourceSessionLimiter.allow ip moment.admissionMs).2 = true
  rested : identityRested server moment identityHash = true

/-- The player's row and its place in the identity index. -/
def enrolled (server : Server F) (moment : Moment) (peer : PeerId) (ip : IpAddr) (identityHash : String)
    (player : UInt64) (db : Db F) : Server F :=
  let gated := identityCharged server moment peer ip identityHash
  match server.identityPlayers.get? identityHash with
  | some _ => { gated with db }
  | none =>
    { gated with
      db
      identityPlayers := server.identityPlayers.insert identityHash player
      reconnectLimiter := (server.reconnectLimiter.allow player moment.admissionMs).1 }

/-- An admission that the server's own index contradicts. -/
inductive Fault (server : Server F) (identityHash : String) (row : PlayerRow) : ServerError → Prop
  | negative (below : row.id < 0) : Fault server identityHash row .negativePlayerId
  | disagrees {expected : UInt64} (known : server.identityPlayers.get? identityHash = some expected)
      (other : row.id.toUInt64 ≠ expected) : Fault server identityHash row .identityIndexDisagrees
  | full (unknown : server.identityPlayers.get? identityHash = none)
      (crowded : maxPlayerRowsCeiling ≤ server.identityPlayers.size) :
      Fault server identityHash row .identityIndexFull

def Consistent (server : Server F) (identityHash : String) (row : PlayerRow) : Prop :=
  ¬ row.id < 0 ∧ (server.identityPlayers.get? identityHash = some row.id.toUInt64 ∨
    (server.identityPlayers.get? identityHash = none ∧ server.identityPlayers.size < maxPlayerRowsCeiling))

/-- Every way a hello can end. -/
inductive HelloEffect (server : Server F) (moment : Moment) (peer : PeerId) (hello : ClientHello) :
    Handled F → Prop
  | silent {charged : Server F} {result : Except ServerError Unit}
      (charges : Charges server moment peer hello charged)
      (storage : ∀ failure, result = .error failure → ∃ cause, failure = .db cause) :
      HelloEffect server moment peer hello (charged, result)
  | answered {charged : Server F} {reason : String} (charges : Charges server moment peer hello charged)
      (other : reason ≠ capacityReason) :
      HelloEffect server moment peer hello
        (charged.post peer (charged.helloReply moment false reason 0 0), .ok ())
  | full {identityHash name : String} {ip : IpAddr}
      (gated : Gated server moment peer hello identityHash name ip)
      (unknown : ¬ HasIdentity server.db identityHash)
      (crowded : server.cfg.maxPlayerRowsU32.toNat ≤ server.db.players.length) :
      HelloEffect server moment peer hello
        ((identityCharged server moment peer ip identityHash).post peer
          ((identityCharged server moment peer ip identityHash).helloReply moment false capacityReason 0 0), .ok ())
  | faulted {identityHash name : String} {ip : IpAddr} {row : PlayerRow} {db : Db F} {failure : ServerError}
      (gated : Gated server moment peer hello identityHash name ip)
      (admitted : Admitted server.db identityHash name moment.persistenceMs server.cfg.maxPlayerRowsU32
        (.admitted row) db)
      (fault : Fault server identityHash row failure) :
      HelloEffect server moment peer hello
        ({ identityCharged server moment peer ip identityHash with db }, .error failure)
  | repeated {session : Session F} {reply : ServerHello F} (found : server.sessions.get? peer = some session)
      (greets : Greets reply session.playerId (server.db.playerBalance session.playerId.toInt64)) :
      HelloEffect server moment peer hello
        ((helloCharged server moment peer).post peer (.serverHello reply), .ok ())
  | joined {identityHash name : String} {ip : IpAddr} {row : PlayerRow} {db : Db F}
      {middle numbered : Server F} {generation : UInt64} {reply : ServerHello F}
      (gated : Gated server moment peer hello identityHash name ip)
      (admitted : Admitted server.db identityHash name moment.persistenceMs server.cfg.maxPlayerRowsU32
        (.admitted row) db)
      (consistent : Consistent server identityHash row)
      (superseded : Superseded (enrolled server moment peer ip identityHash row.id.toUInt64 db)
        row.id.toUInt64 middle)
      (numbering : Numbered (placedAtOrigin middle row.id.toUInt64) numbered generation)
      (greets : Greets reply row.id.toUInt64 row.gold) :
      HelloEffect server moment peer hello
        (entered numbered peer (withGeneration generation
          (firstSession server row.id.toUInt64 identityHash name)) reply, .ok ())

/-- All but the gates' throttles, the sequence number and the outbox. -/
def helloFrame (server : Server F) : Server F :=
  { server with
    helloLimiter := { minIntervalMs := 0 }
    sourceSessionLimiter := { minIntervalMs := 0, maxKeys := 0 }
    reconnectLimiter := { minIntervalMs := 0, maxKeys := 0 }
    newSessionLimiter := { minIntervalMs := 0 }
    seq := 0
    sent := [] }

theorem identityCharged_frame (server : Server F) (moment : Moment) (peer : PeerId) (ip : IpAddr)
    (identityHash : String) :
    helloFrame (identityCharged server moment peer ip identityHash) = helloFrame server := by
  unfold identityCharged
  split <;> simp only [helloFrame, sourceCharged, helloCharged]

theorem Charges.frame {moment : Moment} {hello : ClientHello} {charged : Server F}
    (charges : Charges server moment peer hello charged) : helloFrame charged = helloFrame server := by
  cases charges with
  | hello => rfl
  | source presented => rfl
  | identity presented fresh => exact identityCharged_frame _ _ _ _ _

theorem identityCharged_inv (inv : Inv pending server) (moment : Moment) (ip : IpAddr) (identityHash : String) :
    Inv pending (identityCharged server moment peer ip identityHash) := by
  apply inv.keeps
  unfold identityCharged
  split <;> apply KeepsIndex.of_sessions_eq <;> simp only [SessionIndex.indexedPart, sourceCharged, helloCharged]

theorem enrolled_inv (inv : Inv pending server) (moment : Moment) (ip : IpAddr) (identityHash : String)
    (player : UInt64) (db : Db F) :
    Inv pending (enrolled server moment peer ip identityHash player db) := by
  have charged : Inv pending { identityCharged server moment peer ip identityHash with db } :=
    (identityCharged_inv inv moment ip identityHash).withDb db
  unfold enrolled
  simp only
  split
  · exact charged
  · exact charged.keeps (.of_sessions_eq rfl rfl)

/-- A consistent admission goes on to register a session, and succeeds. -/
theorem joined_effect {moment : Moment} {hello : ClientHello} {identityHash name : String} {ip : IpAddr}
    {row : PlayerRow} {db : Db F} (inv : Inv pending server)
    (gated : Gated server moment peer hello identityHash name ip)
    (admitted : Admitted server.db identityHash name moment.persistenceMs server.cfg.maxPlayerRowsU32
      (.admitted row) db) (consistent : Consistent server identityHash row) :
    HelloEffect server moment peer hello
      ((enrolled server moment peer ip identityHash row.id.toUInt64 db).joinPlayer moment peer
        row.id.toUInt64 identityHash name row.gold) := by
  have ready : Inv pending (enrolled server moment peer ip identityHash row.id.toUInt64 db) :=
    enrolled_inv inv moment ip identityHash row.id.toUInt64 db
  have vacant : (enrolled server moment peer ip identityHash row.id.toUInt64 db).sessions.get? peer = none := by
    unfold enrolled identityCharged
    split <;> exact gated.presented.vacant
  have live : ((enrolled server moment peer ip identityHash row.id.toUInt64 db).host.peerAddr peer).isSome := by
    obtain ⟨addr, located, -⟩ := gated.presented.located
    have here : (server.host.peerAddr peer).isSome := by simp [located]
    unfold enrolled identityCharged
    split <;> exact here
  obtain ⟨middle, numbered, generation, reply, superseded, numbering, greets, done⟩ :=
    joinPlayer_effect ready vacant live moment row.id.toUInt64 identityHash name row.gold
  have first : firstSession (enrolled server moment peer ip identityHash row.id.toUInt64 db)
      row.id.toUInt64 identityHash name = firstSession server row.id.toUInt64 identityHash name := by
    unfold enrolled identityCharged
    split <;> rfl
  rw [done, first]
  exact .joined gated admitted consistent superseded numbering greets

theorem admitPlayer_effect {moment : Moment} {hello : ClientHello} {identityHash name : String} {ip : IpAddr}
    (inv : Inv pending server) (gated : Gated server moment peer hello identityHash name ip) :
    HelloEffect server moment peer hello
      ((identityCharged server moment peer ip identityHash).admitPlayer moment peer identityHash name
        (server.identityPlayers.get? identityHash)) := by
  have frame := identityCharged_frame server moment peer ip identityHash
  have tables : (identityCharged server moment peer ip identityHash).db = server.db :=
    (congrArg Server.db frame :)
  have settings : (identityCharged server moment peer ip identityHash).cfg = server.cfg :=
    (congrArg Server.cfg frame :)
  have index : (identityCharged server moment peer ip identityHash).identityPlayers =
      server.identityPlayers := (congrArg Server.identityPlayers frame :)
  unfold admitPlayer
  split <;> rename_i stored
  · exact .silent (.identity gated.presented gated.fresh) (by rintro _ ⟨⟩; exact ⟨_, rfl⟩)
  · have admitted := admitPlayerByToken_spec (attempt_eq_ok stored)
    rw [tables, settings] at admitted
    cases admitted with
    | full unknown crowded =>
        rw [← tables]
        exact .full gated unknown crowded
  · rename_i row db
    have admitted := admitPlayerByToken_spec (attempt_eq_ok stored)
    rw [tables, settings] at admitted
    simp only
    split <;> rename_i below
    · exact .faulted gated admitted (.negative below)
    · split <;> rename_i known
      · split <;> rename_i other
        · exact .faulted gated admitted (.disagrees known other)
        · have same : row.id.toUInt64 = _ := not_not.mp other
          have joined := joined_effect inv gated admitted ⟨below, Or.inl (same ▸ known)⟩
          simp only [enrolled, known] at joined
          exact joined
      · split <;> rename_i crowded
        · rw [index] at crowded
          exact .faulted gated admitted (.full known crowded)
        · rw [index] at crowded
          have joined := joined_effect inv gated admitted ⟨below, Or.inr ⟨known, not_le.mp crowded⟩⟩
          simp only [enrolled, identityCharged, known] at joined ⊢
          exact joined

theorem admitHello_effect {moment : Moment} {hello : ClientHello} {identityHash name : String} {ip : IpAddr}
    (inv : Inv pending server) (presented : Presented server peer hello identityHash name ip) :
    HelloEffect server moment peer hello
      ((helloCharged server moment peer).admitHello moment peer identityHash name ip) := by
  unfold admitHello
  simp only
  split <;> rename_i stale
  · exact .answered (.source presented) (by decide)
  · have fresh : (server.sourceSessionLimiter.allow ip moment.admissionMs).2 = true := by
      simpa [helloCharged] using stale
    have admission : identityRested server moment identityHash = true → HelloEffect server moment peer hello
        ((identityCharged server moment peer ip identityHash).admitPlayer moment peer identityHash name
          (server.identityPlayers.get? identityHash)) := fun rested =>
      admitPlayer_effect inv ⟨presented, fresh, rested⟩
    have charges : Charges server moment peer hello (identityCharged server moment peer ip identityHash) :=
      .identity presented fresh
    unfold helloCharged
    simp only [identityRested, identityCharged] at admission charges
    cases known : server.identityPlayers.get? identityHash <;> simp only [known] at admission charges ⊢
    all_goals
      split <;> rename_i tired
      · exact .answered charges (by decide)
      · exact admission (by simpa using tired)

/-- The effect of a hello, whatever it carries. -/
theorem onHelloAt_effect (inv : Inv pending server) (moment : Moment) (hello : ClientHello) :
    HelloEffect server moment peer hello (server.onHelloAt moment peer hello) := by
  unfold onHelloAt
  simp only
  split
  · exact .silent .hello (by simp)
  split
  · refine .answered .hello (starts_apart ?_)
    simp [capacityReason, toString]
  split <;> rename_i reading
  · exact .answered .hello (validateHello_reason reading)
  · split <;> rename_i holding
    · unfold repeatHello
      split
      · exact .answered .hello (by decide)
      · split <;> rename_i balanced
        · exact .silent .hello (by rintro _ ⟨⟩; exact ⟨_, rfl⟩)
        · cases attempt_eq_ok balanced
          exact .repeated holding ⟨rfl, rfl, rfl⟩
    · split <;> rename_i located
      · exact .silent .hello (by simp)
      · exact admitHello_effect inv ⟨⟨_, reading, rfl⟩, holding, _, located, rfl⟩

end Hellos

/-! Events. -/
section Events
variable {F : Type} [Platform F] {pending : List Event} {server : Server F}

/-- The server once the session of `peer` has left, before its player is persisted. -/
def departed (server : Server F) (peer : PeerId) (player : UInt64) : Server F :=
  { dropped server peer player with
    helloLimiter := server.helloLimiter.clear (UInt64.ofNat peer)
    world := server.world.remove player
    tradeLimiter := server.tradeLimiter.clear player
    clientStateLimiter := server.clientStateLimiter.clear player
    chatLimiter := server.chatLimiter.clear player
    econLimiter := server.econLimiter.clear player
    moorLimiter := server.moorLimiter.clear player }

variable [Codec F]

inductive Effect (server : Server F) (moment : Moment) : Event → Server F → Prop
  | ignored {event : Event} (other : ∀ peer reason, event ≠ .disconnected peer reason) :
      Effect server moment event server
  | request {peer : PeerId} {bytes : WireProtocol.Bytes} {session : Session F} {after : Server F}
      (found : server.sessions.get? peer = some session)
      (effect : RequestEffect server moment peer session after) :
      Effect server moment (.data peer bytes) after
  | hello {peer : PeerId} {bytes : WireProtocol.Bytes} {hello : ClientHello} {after : Server F}
      {result : Except ServerError Unit} (decoded : Codec.decode (F := F) bytes = some (.hello hello))
      (effect : HelloEffect server moment peer hello (after, result)) :
      Effect server moment (.data peer bytes) after
  | absent {peer : PeerId} {reason : DisconnectReason} (vacant : server.sessions.get? peer = none) :
      Effect server moment (.disconnected peer reason)
        { server with helloLimiter := server.helloLimiter.clear (UInt64.ofNat peer) }
  | persisted {peer : PeerId} {reason : DisconnectReason} {session : Session F}
      (found : server.sessions.get? peer = some session) (stored : moment.fails 0 = false) :
      Effect server moment (.disconnected peer reason)
        { departed server peer session.playerId with
          db := server.db.touchLastSeen session.playerId.toInt64 moment.persistenceMs
          flushPlayers := (insert session.playerId server.flushPlayers).erase session.playerId
          dirtyPlayers := server.dirtyPlayers.erase session.playerId }
  | unpersisted {peer : PeerId} {reason : DisconnectReason} {session : Session F}
      (found : server.sessions.get? peer = some session) (failing : moment.fails 0 = true) :
      Effect server moment (.disconnected peer reason)
        { departed server peer session.playerId with
          flushPlayers := insert session.playerId server.flushPlayers
          flushPaused := true }

/-- Datagrams of a peer without a session are dropped. -/
theorem effect_of_request {moment : Moment} {peer : PeerId} {after : Server F} (bytes : WireProtocol.Bytes)
    (idle : server.sessions.get? peer = none → after = server)
    (busy : ∀ session, server.sessions.get? peer = some session → RequestEffect server moment peer session after) :
    Effect server moment (.data peer bytes) after := by
  cases found : server.sessions.get? peer with
  | none =>
      rw [idle found]
      exact .ignored (by simp)
  | some session => exact .request found (busy session found)

theorem handleDataAt_effect (inv : Inv pending server) (moment : Moment) (peer : PeerId)
    (bytes : WireProtocol.Bytes) :
    Effect server moment (.data peer bytes) (server.handleDataAt moment peer bytes).1 := by
  unfold handleDataAt
  split <;> rename_i decoded
  · exact .ignored (by simp)
  · exact .hello decoded (onHelloAt_effect inv moment _)
  · exact effect_of_request bytes (fun vacant => by simp [onClientState, vacant]) fun session found =>
      onClientState_effect moment _ found
  · exact effect_of_request bytes (fun vacant => by simp [onEcon, vacant]) fun session found =>
      .served (onEcon_served moment _ found)
  · exact effect_of_request bytes (fun vacant => by simp [onTrade, vacant]) fun session found =>
      .served (onTrade_served moment _ found)
  · exact effect_of_request bytes (fun vacant => by simp [onMoor, vacant]) fun session found =>
      .served (onMoor_served moment _ found)
  · exact effect_of_request bytes (fun vacant => by simp [onChat, vacant]) fun session found =>
      onChat_effect moment _ found

omit [Codec F] in
theorem onDisconnect_absent (moment : Moment) {peer : PeerId} (vacant : server.sessions.get? peer = none) :
    server.onDisconnect moment peer =
      ({ server with helloLimiter := server.helloLimiter.clear (UInt64.ofNat peer) }, .ok ()) := by
  simp [onDisconnect, unregisterSession, vacant]

omit [Codec F] in
theorem onDisconnect_present (inv : Inv pending server) (moment : Moment) {peer : PeerId} {session : Session F}
    (found : server.sessions.get? peer = some session) :
    server.onDisconnect moment peer =
      (departed server peer session.playerId).persistDeparture moment session.playerId := by
  have keeps : KeepsIndex server
      { server with helloLimiter := server.helloLimiter.clear (UInt64.ofNat peer) } :=
    .of_sessions_eq rfl rfl
  have gone := unregisterSession_eq (keeps.agree inv.agree) found
  unfold onDisconnect
  simp only [gone]
  rfl

/-- Everything one handled event can do. -/
theorem handleEvent_effect (inv : Inv pending server) (moment : Moment) (event : Event) :
    Effect server moment event (server.handleEvent moment event).1 := by
  cases event with
  | connected peer => exact .ignored (by simp)
  | data peer bytes => exact handleDataAt_effect inv moment peer bytes
  | disconnected peer reason =>
      show Effect server moment _ (server.onDisconnect moment peer).1
      cases found : server.sessions.get? peer with
      | none =>
          rw [onDisconnect_absent moment found]
          exact .absent found
      | some session =>
          rw [onDisconnect_present inv moment found]
          unfold persistDeparture
          cases failing : moment.fails 0 with
          | true => exact .unpersisted found failing
          | false => exact .persisted found failing

/-! The same, for readers of the session state alone. -/

/-- All but the tables, the throttles, the sequence number and the outbox. -/
def calmFrame (server : Server F) : Server F := helloFrame (requestFrame server)

inductive Outcome (server : Server F) (moment : Moment) : Event → Server F → Prop
  | calm {event : Event} {after : Server F} (frame : calmFrame after = calmFrame server)
      (posts : Posts [.reply, .hello] server after)
      (kept : ∀ peer reason, event = .disconnected peer reason → server.sessions.get? peer = none) :
      Outcome server moment event after
  | moved {peer : PeerId} {bytes : WireProtocol.Bytes} {session : Session F}
      (found : server.sessions.get? peer = some session) (motion : Motion F) (state : ClientState F)
      (cell : Cell) (placed : cell = server.world.grid.cellOf motion.pos.1 motion.pos.2.2) :
      Outcome server moment (.data peer bytes)
        { server with
          clientStateLimiter := (server.clientStateLimiter.allow session.playerId moment.admissionMs).1
          world := server.world.place session.playerId motion.pos.1 motion.pos.2.2
          sessions := server.sessions.insert peer
            (movedSession session motion state (session.sub.recenter cell).1 cell)
          dirtyPlayers := insert session.playerId server.dirtyPlayers
          aoiRecipients :=
            if (session.sub.recenter cell).2.isEmpty then server.aoiRecipients
            else insert peer server.aoiRecipients }
  | spoke {peer : PeerId} {bytes : WireProtocol.Bytes} {session : Session F} {envelope : Envelope F}
      {cell : Cell} {audience : Audience} {nextAudience queued : Nat}
      (found : server.sessions.get? peer = some session) (here : session.cell = some cell)
      (about : topicOf envelope.payload = .chat) (captured : CapturedFrom server audience) :
      Outcome server moment (.data peer bytes)
        { server with
          chatLimiter := (server.chatLimiter.allow session.playerId moment.admissionMs).1
          seq := server.seq + 1
          fanoutAudienceCache := some audience
          nextAudience
          chatFanoutBytes := queued
          chatFanout := server.chatFanout ++ [{ envelope, senderCell := some cell, audience }] }
  | joined {peer : PeerId} {bytes : WireProtocol.Bytes} {base middle numbered : Server F} {player : UInt64}
      {identityHash name : String} {generation : UInt64} {reply : ServerHello F}
      (vacant : server.sessions.get? peer = none)
      (frame : calmFrame { base with identityPlayers := server.identityPlayers } = calmFrame server)
      (posts : base.sent = server.sent) (superseded : Superseded base player middle)
      (numbering : Numbered (placedAtOrigin middle player) numbered generation) :
      Outcome server moment (.data peer bytes)
        (entered numbered peer (withGeneration generation (firstSession server player identityHash name)) reply)
  | left {peer : PeerId} {reason : DisconnectReason} {session : Session F} {db : Db F}
      {flushPlayers dirtyPlayers : Finset UInt64} {flushPaused : Bool}
      (found : server.sessions.get? peer = some session) :
      Outcome server moment (.disconnected peer reason)
        { departed server peer session.playerId with db, flushPlayers, dirtyPlayers, flushPaused }

omit [Codec F] in
theorem posts_widen {topics wider : List Topic} {after : Server F} (posts : Posts topics server after)
    (within : ∀ topic ∈ topics, topic ∈ wider) : Posts wider server after := by
  obtain ⟨new, grown, about⟩ := posts
  exact ⟨new, grown, fun post member => within _ (about post member)⟩

omit [Codec F] in
theorem charged_calm {moment : Moment} {peer : PeerId} {hello : ClientHello} {charged : Server F}
    (charges : Charges server moment peer hello charged) :
    calmFrame charged = calmFrame server ∧ charged.sent = server.sent := by
  cases charges with
  | hello => exact ⟨rfl, rfl⟩
  | source presented => exact ⟨rfl, rfl⟩
  | identity presented fresh =>
      unfold identityCharged
      constructor
      · split <;> simp only [calmFrame, requestFrame, helloFrame, sourceCharged, helloCharged]
      · split <;> rfl

omit [Codec F] in
theorem enrolled_calm (server : Server F) (moment : Moment) (peer : PeerId) (ip : IpAddr)
    (identityHash : String) (player : UInt64) (db : Db F) :
    calmFrame { enrolled server moment peer ip identityHash player db with
        identityPlayers := server.identityPlayers } = calmFrame server ∧
      (enrolled server moment peer ip identityHash player db).sent = server.sent := by
  unfold enrolled identityCharged
  constructor
  · split <;> simp only [calmFrame, requestFrame, helloFrame, sourceCharged, helloCharged]
  · split <;> rfl

theorem Effect.outcome {moment : Moment} {event : Event} {after : Server F}
    (effect : Effect server moment event after) : Outcome server moment event after := by
  cases effect with
  | ignored other => exact .calm rfl (posts_of_sent_eq rfl) fun peer reason same => absurd same (other peer reason)
  | request found effect =>
      cases effect with
      | served served =>
          exact .calm (congrArg helloFrame served.frame) (posts_widen served.posts (by simp)) (by simp)
      | moved motion state cell placed => exact .moved found motion state cell placed
      | spoke here about captured => exact .spoke found here about captured
  | hello decoded effect =>
      cases effect with
      | silent charges storage =>
          obtain ⟨frame, sent⟩ := charged_calm charges
          exact .calm frame (posts_of_sent_eq sent) (by simp)
      | answered charges other =>
          obtain ⟨frame, sent⟩ := charged_calm charges
          refine .calm frame ?_ (by simp)
          exact (posts_of_sent_eq sent).trans (posts_post _ _ (by simp [helloReply, topicOf]))
      | full gated unknown crowded =>
          obtain ⟨frame, sent⟩ := charged_calm (.identity gated.presented gated.fresh)
          refine .calm frame ?_ (by simp)
          exact (posts_of_sent_eq sent).trans (posts_post _ _ (by simp [helloReply, topicOf]))
      | faulted gated admitted fault =>
          obtain ⟨frame, sent⟩ := charged_calm (.identity gated.presented gated.fresh)
          exact .calm frame (posts_of_sent_eq sent) (by simp)
      | repeated found greets =>
          refine .calm ?_ (posts_post (helloCharged server moment _) _ (by simp [topicOf])) (by simp)
          simp only [calmFrame, requestFrame, helloFrame, Server.post, helloCharged]
      | joined gated admitted consistent superseded numbering greets =>
          obtain ⟨frame, sent⟩ := enrolled_calm server moment _ _ _ _ _
          exact .joined gated.presented.vacant frame sent superseded numbering
  | absent vacant => exact .calm rfl (posts_of_sent_eq rfl) (by rintro _ _ ⟨⟩; exact vacant)
  | persisted found stored => exact .left found
  | unpersisted found failing => exact .left found

omit [Codec F] in
/-- What neither a state message nor a renumbering changes about a session, no event changes. -/
theorem Outcome.kept_session {moment : Moment} {event : Event} {after : Server F} {peer : PeerId}
    {session later : Session F} {Seen : Type} (view : Session F → Seen)
    (moved : ∀ session motion state sub cell, view (movedSession session motion state sub cell) = view session)
    (renumbered : ∀ session generation, view (withGeneration generation session) = view session)
    (outcome : Outcome server moment event after) (found : server.sessions.get? peer = some session)
    (kept : after.sessions.get? peer = some later) : view later = view session := by
  cases outcome with
  | calm frame posts =>
      have sessions : after.sessions = server.sessions := (congrArg Server.sessions frame :)
      rw [sessions, found, Option.some.injEq] at kept
      rw [kept]
  | @moved other bytes mover present motion state cell placed =>
      simp only [FiniteMap.get?_insert] at kept
      split at kept <;> rename_i own
      · cases kept
        rw [own, present] at found
        cases found
        exact moved _ _ _ _ _
      · rw [found] at kept
        cases kept
        rfl
  | spoke =>
      rw [show _ = server.sessions.get? peer from rfl, found, Option.some.injEq] at kept
      rw [kept]
  | @joined other bytes base middle numbered player identityHash name generation reply vacant frame posts
      superseded numbering =>
      have sessions : base.sessions = server.sessions := (congrArg Server.sessions frame :)
      rcases entered_sessions other _ reply superseded numbering kept with ⟨rfl, -⟩ | ⟨-, old, present, -, same⟩
      · rw [vacant] at found
        cases found
      · rw [sessions, found] at present
        cases present
        calc view later = view (unnumbered later) := (renumbered later 0).symm
          _ = view (unnumbered session) := congrArg view same
          _ = view session := renumbered session 0
  | @left other reason gone db flushPlayers dirtyPlayers flushPaused present =>
      simp only [departed, dropped, FiniteMap.get?_erase] at kept
      split at kept
      · cases kept
      · rw [found] at kept
        cases kept
        rfl

theorem handleEvent_outcome (inv : Inv pending server) (moment : Moment) (event : Event) :
    Outcome server moment event (server.handleEvent moment event).1 :=
  (handleEvent_effect inv moment event).outcome

end Events
end SailwindOnline.Effects
