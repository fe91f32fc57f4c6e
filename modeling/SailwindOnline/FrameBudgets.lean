import SailwindOnline.MainLoop
import SailwindOnline.PollBudgets
import SailwindOnline.RequestLog

/-!
What one frame of the loop posts. A datagram read is answered by one envelope at
most, to its sender, and each of the frame's ticks posts one kind of message
within a budget of its own, so the server's output keeps pace with its frames
and not with the traffic or the players.
-/

namespace SailwindOnline.FrameBudgets
open Persistence Server Traces Effects TickEffects SessionRuns MainLoop PollBudgets HostPoll RequestLog

/-! Lists of posts. -/
section Lists
variable {F : Type} {topics : List Topic} {peers front back : List PeerId} {posts early late : List (PeerId × Envelope F)}

def About (topics : List Topic) (posts : List (PeerId × Envelope F)) : Prop :=
  ∀ post ∈ posts, topicOf post.2.payload ∈ topics

/-- One envelope at most for each entry of `peers`, in the order of the entries. -/
def Reaches (peers : List PeerId) (posts : List (PeerId × Envelope F)) : Prop := (posts.map Prod.fst).Sublist peers

theorem Reaches.none (peers : List PeerId) : Reaches peers ([] : List (PeerId × Envelope F)) := List.nil_sublist peers

theorem Reaches.append (first : Reaches front early) (second : Reaches back late) :
    Reaches (front ++ back) (early ++ late) := by
  rw [Reaches, List.map_append]
  exact List.Sublist.append first second

theorem Reaches.length_le (reaches : Reaches peers posts) : posts.length ≤ peers.length := by
  rw [← List.length_map (f := Prod.fst)]
  exact List.Sublist.length_le reaches

theorem About.append (first : About topics early) (second : About topics late) : About topics (early ++ late) := by
  intro post member
  rcases List.mem_append.mp member with old | new
  · exact first post old
  · exact second post new

theorem orderedPeersAfter_length (peers : Finset PeerId) (cursor : Option PeerId) (limit : Nat) :
    (orderedPeersAfter peers cursor limit).length ≤ limit := by
  rw [orderedPeersAfter, OrderedSet.orderedAfter_eq_take, List.length_take]
  omega

theorem orderedPeersAfter_nodup (peers : Finset PeerId) (cursor : Option PeerId) (limit : Nat) :
    (orderedPeersAfter peers cursor limit).Nodup := by
  rw [orderedPeersAfter, OrderedSet.orderedAfter_eq_take]
  exact (OrderedSet.circle_nodup peers cursor).sublist (List.take_sublist _ _)

end Lists

section Posting
variable {F : Type} [Platform F] {server middle after : Server F} {good other joint : List (PeerId × Envelope F) → Prop}

/-- Nothing posted is taken back, and what is added to it is `good`. -/
def Adds (good : List (PeerId × Envelope F) → Prop) (server after : Server F) : Prop :=
  ∃ posts, after.sent = server.sent ++ posts ∧ good posts

def PostsAtMost (limit : Nat) : Server F → Server F → Prop := Adds fun posts => posts.length ≤ limit

namespace Adds

theorem of_sent (none : good []) (same : after.sent = server.sent) : Adds good server after :=
  ⟨[], by simp [same], none⟩

theorem after_quiet (quiet : middle.sent = server.sent) (adds : Adds good middle after) : Adds good server after := by
  unfold Adds
  rwa [← quiet]

theorem then_quiet (adds : Adds good server middle) (quiet : after.sent = middle.sent) : Adds good server after := by
  unfold Adds
  rwa [quiet]

/-- What is added is one list, whichever fact speaks of it. -/
theorem and (adds : Adds good server after) (again : Adds other server after) :
    Adds (fun posts => good posts ∧ other posts) server after := by
  obtain ⟨posts, grown, fine⟩ := adds
  obtain ⟨same, grown_again, fine_again⟩ := again
  obtain rfl := List.append_cancel_left (grown.symm.trans grown_again)
  exact ⟨posts, grown, fine, fine_again⟩

theorem append (first : Adds good server middle) (second : Adds other middle after)
    (joined : ∀ early late, good early → other late → joint (early ++ late)) : Adds joint server after := by
  obtain ⟨early, grown, fine⟩ := first
  obtain ⟨late, grown_again, fine_again⟩ := second
  refine ⟨early ++ late, ?_, joined early late fine fine_again⟩
  rw [grown_again, grown, List.append_assoc]

/-- A pass over recipients posts one envelope at most to each. -/
theorem foldl {visit : Server F → PeerId → Server F}
    (one : ∀ server peer, Adds (Reaches [peer]) server (visit server peer)) (recipients : List PeerId) (server : Server F) :
    Adds (Reaches recipients) server (recipients.foldl visit server) := by
  induction recipients generalizing server with
  | nil => exact .of_sent (Reaches.none []) rfl
  | cons peer rest ih => exact (one server peer).append (ih (visit server peer)) fun _ _ => Reaches.append

end Adds

namespace PostsAtMost

theorem of_sent {limit : Nat} (same : after.sent = server.sent) : PostsAtMost limit server after :=
  Adds.of_sent (Nat.zero_le limit) same

theorem trans {early late : Nat} (first : PostsAtMost early server middle) (second : PostsAtMost late middle after) :
    PostsAtMost (early + late) server after := by
  refine Adds.append first second fun front back few few_more => ?_
  rw [List.length_append]
  exact Nat.add_le_add few few_more

theorem more {limit wider : Nat} (posts : PostsAtMost limit server after) (within : limit ≤ wider) :
    PostsAtMost wider server after := by
  obtain ⟨new, grown, few⟩ := posts
  exact ⟨new, grown, few.trans within⟩

end PostsAtMost
end Posting

/-! The ticks of a frame. -/
section Ticks
variable {F : Type} [Platform F] [Codec F] {server after : Server F}

theorem postBounded_reaches (server : Server F) (peer : PeerId) (payload : ServerMessage F) :
    Adds (Reaches [peer]) server (server.postBounded peer payload).1 := by
  unfold postBounded
  split
  · exact .of_sent (Reaches.none _) rfl
  · exact ⟨[_], rfl, List.Sublist.refl [peer]⟩

theorem sendCellSnapshot_reaches (server : Server F) (peer : PeerId) (cell : World.Cell) (sessions : List (Session F))
    (moorings : List (MooringSnap F)) :
    Adds (Reaches [peer]) server (server.sendCellSnapshot peer cell sessions moorings) := by
  have posted := postBounded_reaches server peer (.cellSnapshot cell (playerSnaps sessions) (boatSnaps sessions) moorings)
  unfold sendCellSnapshot
  split <;> rename_i sending <;> rw [sending] at posted
  · exact posted
  · exact posted.then_quiet rfl

omit [Codec F] in
theorem nextAoiChunk_sent (server : Server F) (peer : PeerId) : (server.nextAoiChunk peer).1.sent = server.sent := by
  unfold nextAoiChunk
  split
  · rfl
  · simp only
    split <;> rfl

omit [Codec F] in
theorem prepareCellHydration_sent (server : Server F) (peer : PeerId) :
    (server.prepareCellHydration peer).1.sent = server.sent := by
  unfold prepareCellHydration
  split <;> rfl

/-- One item of interest work posts an update, a cell snapshot, or nothing. -/
theorem processOneAoiWork_reaches (server : Server F) (peer : PeerId) (fails : Bool) :
    Adds (Reaches [peer]) server (server.processOneAoiWork peer fails).1 := by
  have chunked := nextAoiChunk_sent server peer
  unfold processOneAoiWork
  split <;> rename_i chunking <;> rw [chunking] at chunked
  · exact (postBounded_reaches _ peer _).after_quiet chunked
  · rename_i settled
    have prepared := (prepareCellHydration_sent settled peer).trans chunked
    split <;> rename_i preparing <;> rw [preparing] at prepared
    · exact .of_sent (Reaches.none _) prepared
    · split
      · unfold hydratePlayers
        simp only
        split
        · exact .of_sent (Reaches.none _) prepared
        · exact (sendCellSnapshot_reaches _ peer _ _ _).after_quiet prepared
      · split
        · exact .of_sent (Reaches.none _) prepared
        · unfold completeHydration
          split
          · exact .of_sent (Reaches.none _) prepared
          · exact ((postBounded_reaches _ peer _).after_quiet prepared).then_quiet rfl
        · unfold hydrateMooring
          simp only
          split
          · exact (sendCellSnapshot_reaches _ peer _ _ _).after_quiet prepared
          · exact .of_sent (Reaches.none _) prepared

theorem serveAoiRecipient_reaches (fails : PeerId → Bool) (server : Server F) (peer : PeerId) :
    Adds (Reaches [peer]) server (serveAoiRecipient fails server peer) := by
  have worked := processOneAoiWork_reaches { server with aoiRecipients := server.aoiRecipients.erase peer } peer (fails peer)
  unfold serveAoiRecipient
  simp only
  split
  · exact .of_sent (Reaches.none _) rfl
  · split
    · unfold scheduleAoi
      split <;> exact worked
    · exact worked

theorem processAoiWork_reaches (server : Server F) (fails : PeerId → Bool) :
    Adds (Reaches (orderedPeersAfter server.aoiRecipients server.aoiRecipientCursor aoiWorkItemsPerTick)) server
      (server.processAoiWork fails) := by
  unfold processAoiWork
  simp only
  exact (Adds.foldl (serveAoiRecipient_reaches fails) _ _).after_quiet rfl

theorem visitSnapshotRecipient_reaches (server : Server F) (peer : PeerId) :
    Adds (Reaches [peer]) server (server.visitSnapshotRecipient peer) := by
  unfold visitSnapshotRecipient
  split
  · exact .of_sent (Reaches.none _) rfl
  · split
    · exact .of_sent (Reaches.none _) rfl
    · split
      · exact .of_sent (Reaches.none _) rfl
      · simp only
        split
        · exact .of_sent (Reaches.none _) rfl
        · unfold sendSnapshot
          split
          · exact .of_sent (Reaches.none _) rfl
          · exact (postBounded_reaches _ peer _).after_quiet rfl

theorem broadcastSnapshots_reaches (server : Server F) :
    Adds (Reaches (orderedPeersAfter server.snapshotRecipients server.snapshotRecipientCursor snapshotPacketsPerTick))
      server server.broadcastSnapshots := by
  unfold broadcastSnapshots
  simp only
  exact (Adds.foldl visitSnapshotRecipient_reaches _ _).after_quiet rfl

omit [Codec F] in
/-- Each envelope is paid for by one of the sends that the budget had left. -/
theorem fanoutRecipients_posts (recipients : List FanoutRecipient) (server : Server F) (job : FanoutJob F)
    (budget : FanoutBudget) :
    ∃ spent, PostsAtMost spent server (server.fanoutRecipients job recipients budget).1 ∧
      (server.fanoutRecipients job recipients budget).2.2.sends + spent = budget.sends := by
  induction recipients generalizing server job budget with
  | nil => exact ⟨0, .of_sent rfl, rfl⟩
  | cons recipient rest ih =>
      unfold fanoutRecipients
      split <;> rename_i room
      · exact ⟨0, .of_sent rfl, rfl⟩
      · simp only
        split
        · obtain ⟨spent, posts, paid⟩ := ih
            { server with sent := server.sent ++ [(recipient.peer, job.envelope)] }
            { job with nextRecipient := job.nextRecipient + 1 }
            { scans := budget.scans - 1, sends := budget.sends - 1 }
          refine ⟨1 + spent, PostsAtMost.trans ⟨[_], rfl, Nat.le_refl 1⟩ posts, ?_⟩
          simp only at paid
          omega
        · exact ih server _ _

omit [Codec F] in
theorem takeFanoutJob_sent (server : Server F) (fromClock : Bool) :
    (server.takeFanoutJob fromClock).1.sent = server.sent := by
  unfold takeFanoutJob
  split <;> rfl

theorem finishFanoutJob_sent (server : Server F) (fromClock : Bool) (job : FanoutJob F) :
    (server.finishFanoutJob fromClock job).sent = server.sent := by
  unfold finishFanoutJob
  split <;> rfl

omit [Codec F] in
theorem returnFanoutJob_sent (server : Server F) (fromClock : Bool) (job : FanoutJob F) :
    (server.returnFanoutJob fromClock job).sent = server.sent := by
  unfold returnFanoutJob
  split <;> rfl

theorem fanoutTurns_posts (turns : Nat) (server : Server F) (budget : FanoutBudget) :
    PostsAtMost budget.sends server (fanoutTurns turns server budget) := by
  induction turns generalizing server budget with
  | zero => exact .of_sent rfl
  | succ turns ih =>
      unfold fanoutTurns
      split
      · exact .of_sent rfl
      · have kept := takeFanoutJob_sent server
          (server.clockFanout.isSome && (server.fanoutPreferClock || server.chatFanout.isEmpty))
        simp only
        split <;> rename_i taking <;> rw [taking] at kept
        · split
          · exact .of_sent kept
          · exact Adds.after_quiet kept (ih _ budget)
        · rename_i holder job
          obtain ⟨spent, posts, paid⟩ :=
            fanoutRecipients_posts (job.audience.recipients.drop job.nextRecipient) holder job budget
          split
          · -- The job is done, and what is left of the budget goes to the next one.
            rw [← paid, Nat.add_comm]
            apply Adds.after_quiet kept
            exact PostsAtMost.trans (Adds.then_quiet posts (finishFanoutJob_sent _ _ _)) (ih _ _)
          · apply PostsAtMost.more _ (by omega : spent ≤ budget.sends)
            exact Adds.after_quiet kept (Adds.then_quiet posts (returnFanoutJob_sent _ _ _))

theorem processFanoutWork_posts (server : Server F) : PostsAtMost fanoutSendsPerTick server server.processFanoutWork :=
  fanoutTurns_posts _ server _

end Ticks

/-! The events of a frame. -/
section Events
variable {F : Type} [Platform F] [Codec F] {server after : Server F} {pending : List Event} {peer : PeerId}

def speaker : Event → Option PeerId
  | .data peer _ => some peer
  | _ => none

theorem speakers_length (events : List (Event × SocketAddr)) :
    ((events.map Prod.fst).filterMap speaker).length = events.countP isData := by
  rw [List.length_filterMap_eq_countP, List.countP_map]
  congr 1
  funext event
  rcases event with ⟨_ | _ | _, _⟩ <;> rfl

def answerTopics : List Topic := [.hello, .reply]

/-- An answer to each of `peers` at most. -/
def Answers (peers : List PeerId) (posts : List (PeerId × Envelope F)) : Prop := Reaches peers posts ∧ About answerTopics posts

omit [Platform F] [Codec F] in
theorem Answers.none (peers : List PeerId) : Answers peers ([] : List (PeerId × Envelope F)) :=
  ⟨Reaches.none peers, nofun⟩

omit [Platform F] [Codec F] in
theorem Answers.one {seq : UInt32} {message : ServerMessage F} (about : topicOf message ∈ answerTopics) :
    Answers [peer] [(peer, ⟨seq, message⟩)] := by
  refine ⟨List.Sublist.refl [peer], ?_⟩
  intro post member
  rwa [List.mem_singleton.mp member]

omit [Codec F] in
theorem of_postsOne (said : PostsOne .hello peer server after) : Adds (Answers [peer]) server after := by
  rcases said with quiet | ⟨seq, message, about, grown⟩
  · exact .of_sent (Answers.none _) quiet
  · exact ⟨_, grown, Answers.one (by simp [about, answerTopics])⟩

omit [Codec F] in
theorem of_answered {Ack : Type} {message : Ack → ServerMessage F} {answer : Ack → Db F → Prop}
    (reply : ∀ ack, topicOf (message ack) = .reply) (answered : Answered server peer message answer after) :
    Adds (Answers [peer]) server after := by
  cases answered with
  | silent tables quiet => exact .of_sent (Answers.none _) quiet
  | told answers posted => exact ⟨_, posted, Answers.one (by simp [reply, answerTopics])⟩

theorem handleDataAt_answers (inv : Inv pending server) (moment : Moment) (peer : PeerId) (bytes : WireProtocol.Bytes) :
    Adds (Answers [peer]) server (server.handleDataAt moment peer bytes).1 := by
  cases decoded : Codec.decode (F := F) bytes with
  | none =>
      simp only [handleDataAt, decoded]
      exact .of_sent (Answers.none _) rfl
  | some message =>
      simp only [handleDataAt, decoded]
      cases message with
      | hello hello => exact of_postsOne (hello_postsOne (onHelloAt_effect inv moment hello))
      | state state => exact .of_sent (Answers.none _) (onClientState_sent state)
      | chat chat => exact .of_sent (Answers.none _) (onChat_sent chat)
      | econ txn => exact of_answered (fun _ => rfl) (onEcon_answer txn)
      | trade request => exact of_answered (fun _ => rfl) (onTrade_answer request)
      | moor request => exact of_answered (fun _ => rfl) (onMoor_answer request)

/-- Only a message that arrived is answered, and once at most. -/
theorem handleEvent_answers (inv : Inv pending server) (moment : Moment) (event : Event) :
    Adds (Answers ([event].filterMap speaker)) server (server.handleEvent moment event).1 := by
  cases event with
  | connected peer => exact .of_sent (Answers.none _) rfl
  | data peer bytes => exact handleDataAt_answers inv moment peer bytes
  | disconnected peer reason => exact .of_sent (Answers.none _) (onDisconnect_sent inv)

/-- The events of a poll are answered in their order, and no handler ends the loop. -/
theorem handleEvents_answers {db : Db F} (before : Reachable db server pending) (moment : Nat → Moment) (n : Nat) :
    ∃ after, handleEvents moment n pending server = (after, .ok ()) ∧
      Adds (Answers (pending.filterMap speaker)) server after ∧ Reachable db after [] := by
  induction pending generalizing server n with
  | nil => exact ⟨server, rfl, .of_sent (Answers.none _) rfl, before⟩
  | cons event rest ih =>
      obtain ⟨after, handled, later, reached⟩ := ih (before.handle (moment n)) (n + 1)
      have first := handleEvent_answers before.inv (moment n) event
      rw [← List.singleton_append, List.filterMap_append]
      refine ⟨after, (handleEvents_cons moment n (handleEvent_calm before.inv (moment n) event)).trans handled, ?_, reached⟩
      exact first.append later fun _ _ early late => ⟨Reaches.append early.1 late.1, About.append early.2 late.2⟩

end Events

/-! Frames. -/
section Kinds
variable {F : Type} {posts early late : List (PeerId × Envelope F)}

def answerBudget : List Topic × Nat := (answerTopics, maxPollPackets)

def interestBudget : List Topic × Nat := ([.interest, .cell], aoiWorkItemsPerTick)

def snapshotBudget : List Topic × Nat := ([.snapshot], snapshotPacketsPerTick)

def fanoutBudget : List Topic × Nat := (fanoutTopics, fanoutSendsPerTick)

/-- The kinds of output in the order of a frame, with what one frame may post of each. -/
def frameBudget : List (List Topic × Nat) := [answerBudget, interestBudget, snapshotBudget, fanoutBudget]

def framePostLimit : Nat := (frameBudget.map Prod.snd).sum

def ofKind (kind : List Topic) (posts : List (PeerId × Envelope F)) : Nat :=
  posts.countP fun post => topicOf post.2.payload ∈ kind

structure KeepsBudget (frames : Nat) (posts : List (PeerId × Envelope F)) : Prop where
  kinds : ∀ budget ∈ frameBudget, ofKind budget.1 posts ≤ frames * budget.2
  total : posts.length ≤ frames * framePostLimit

theorem KeepsBudget.none : KeepsBudget 0 ([] : List (PeerId × Envelope F)) :=
  ⟨fun budget _ => by simp [ofKind], by simp⟩

theorem KeepsBudget.append {frames more : Nat} (first : KeepsBudget frames early) (second : KeepsBudget more late) :
    KeepsBudget (frames + more) (early ++ late) := by
  constructor
  · intro budget member
    rw [ofKind, List.countP_append, Nat.add_mul]
    exact Nat.add_le_add (first.kinds budget member) (second.kinds budget member)
  · rw [List.length_append, Nat.add_mul]
    exact Nat.add_le_add first.total second.total

def Spends (budget : List Topic × Nat) (posts : List (PeerId × Envelope F)) : Prop :=
  About budget.1 posts ∧ posts.length ≤ budget.2

theorem kinds_apart : ∀ mine ∈ frameBudget, ∀ other ∈ frameBudget, other ≠ mine → ∀ topic ∈ mine.1, topic ∉ other.1 := by
  decide

/-- The output of one stage of a frame counts for its own kind only. -/
theorem Spends.share {mine other : List Topic × Nat} (spends : Spends mine posts) (listed : mine ∈ frameBudget)
    (member : other ∈ frameBudget) : ofKind other.1 posts ≤ if other = mine then other.2 else 0 := by
  split <;> rename_i same
  · subst same
    exact List.countP_le_length.trans spends.2
  · rw [ofKind, Nat.le_zero, List.countP_eq_zero]
    intro post held counted
    exact kinds_apart mine listed other member same _ (spends.1 post held) (of_decide_eq_true counted)

theorem shares_sum : ∀ budget ∈ frameBudget, (if budget = answerBudget then budget.2 else 0) +
    (if budget = interestBudget then budget.2 else 0) + (if budget = snapshotBudget then budget.2 else 0) +
      (if budget = fanoutBudget then budget.2 else 0) = budget.2 := by
  decide

end Kinds

section Frames
variable {F : Type} [Platform F] [Codec F] {db : Db F} {trace : List (Stage F)}

/-- What a frame posts, in order: answers to the events of its poll, interest work, snapshots, and what is fanned out. -/
structure FramePosts (heard : List Event) (state next : LoopState F)
    (answers interest snapshots fanned : List (PeerId × Envelope F)) : Prop where
  posted : next.server.sent = state.server.sent ++ answers ++ interest ++ snapshots ++ fanned
  answered : Spends answerBudget answers ∧ Reaches (heard.filterMap speaker) answers
  informed : Spends interestBudget interest ∧ (interest.map Prod.fst).Nodup
  shown : Spends snapshotBudget snapshots ∧ (snapshots.map Prod.fst).Nodup
  spread : Spends fanoutBudget fanned

omit [Codec F] in
theorem FramePosts.keepsBudget {heard : List Event} {state next : LoopState F}
    {answers interest snapshots fanned : List (PeerId × Envelope F)}
    (posts : FramePosts heard state next answers interest snapshots fanned) :
    Adds (KeepsBudget 1) state.server next.server := by
  refine ⟨answers ++ interest ++ snapshots ++ fanned, ?_, ?_, ?_⟩
  · rw [posts.posted]
    simp only [List.append_assoc]
  · -- Of the four lists only one is about the kind of this budget.
    intro budget member
    have answered := posts.answered.1.share (by simp [frameBudget]) member
    have informed := posts.informed.1.share (by simp [frameBudget]) member
    have shown := posts.shown.1.share (by simp [frameBudget]) member
    have spread := posts.spread.share (by simp [frameBudget]) member
    have shares := Nat.add_le_add (Nat.add_le_add (Nat.add_le_add answered informed) shown) spread
    rw [shares_sum budget member] at shares
    simpa only [ofKind, List.countP_append, Nat.one_mul] using shares
  · have lengths := Nat.add_le_add (Nat.add_le_add (Nat.add_le_add posts.answered.1.2 posts.informed.1.2) posts.shown.1.2)
      posts.spread.2
    simpa [framePostLimit, frameBudget, Nat.add_assoc] using lengths

omit [Codec F] in
theorem sent_of_posts {server after : Server F} (posts : Posts [] server after) : after.sent = server.sent := by
  obtain ⟨new, grown, about⟩ := posts
  have none : new = [] := List.eq_nil_iff_forall_not_mem.mpr fun post member => List.not_mem_nil (about post member)
  rw [grown, none, List.append_nil]

/-- What closes a frame posts nothing. -/
theorem work_sent (state : LoopState F) (input : FrameInput) (server : Server F) :
    (state.work input server).server.sent =
      ((server.processAoiWork input.aoiFails).broadcastSnapshots.processFanoutWork).sent := by
  have flushed := sent_of_posts (processDirtyFlushAt_effect
    ((server.processAoiWork input.aoiFails).broadcastSnapshots.processFanoutWork) input.flushFails input.flushMs).posts
  have clock := congrArg Server.sent (broadcastClock_frame (((server.processAoiWork
    input.aoiFails).broadcastSnapshots.processFanoutWork).processDirtyFlushAt input.flushFails input.flushMs).1 input.clockMs)
  -- The flush writes to the database, the clock and the next flush only queue.
  unfold LoopState.work
  cases state.clockDue <;> cases state.flushDue input.start
  · exact flushed
  · exact flushed
  · exact clock.trans flushed
  · exact clock.trans flushed

/-- The ticks of a frame, on the server that has handled its events. -/
theorem work_posts (state : LoopState F) {server : Server F} (reached : Reachable db server []) (input : FrameInput) :
    ∃ interest snapshots fanned, (state.work input server).server.sent = server.sent ++ interest ++ snapshots ++ fanned ∧
      (Spends interestBudget interest ∧ (interest.map Prod.fst).Nodup) ∧
      (Spends snapshotBudget snapshots ∧ (snapshots.map Prod.fst).Nodup) ∧ Spends fanoutBudget fanned := by
  have informed := reached.tick (.aoi input.aoiFails)
  have shown := informed.tick .snapshots
  obtain ⟨interest, told, interest_about, told_each⟩ :=
    Adds.and (processAoiWork_effect server input.aoiFails).posts (processAoiWork_reaches server input.aoiFails)
  obtain ⟨snapshots, showing, snapshots_about, shown_each⟩ :=
    Adds.and (broadcastSnapshots_effect (server.processAoiWork input.aoiFails)).posts (broadcastSnapshots_reaches _)
  obtain ⟨fanned, spread, fanned_kept⟩ :=
    Adds.and ((processFanoutWork_run (server.processAoiWork input.aoiFails).broadcastSnapshots).posts
      (reachable_jobsAbout shown)).1 (processFanoutWork_posts _)
  refine ⟨interest, snapshots, fanned, ?_, ⟨⟨interest_about, ?_⟩, ?_⟩, ⟨⟨snapshots_about, ?_⟩, ?_⟩, fanned_kept⟩
  · rw [work_sent, spread, showing, told]
  · exact told_each.length_le.trans (orderedPeersAfter_length _ _ _)
  · exact (orderedPeersAfter_nodup _ _ _).sublist told_each
  · exact shown_each.length_le.trans (orderedPeersAfter_length _ _ _)
  · exact (orderedPeersAfter_nodup _ _ _).sublist shown_each

theorem frame_posts {state : LoopState F} (reached : Reachable db state.server []) (input : FrameInput) :
    ∃ poll next answers interest snapshots fanned,
      state.server.host.pollWithWork input.start input.script = .ok poll ∧ state.frame input = (next, .ok ()) ∧
        FramePosts (poll.events.map Prod.fst) state next answers interest snapshots fanned := by
  obtain ⟨poll, polled, -⟩ := pollWithWork_advances reached.inv.hosted.indexed input.start input.script
  obtain ⟨within, counted, -⟩ := poll_accounts reached.inv.hosted.indexed polled
  obtain ⟨server, handled, ⟨answers, answered, addressed, answering⟩, settled⟩ :=
    handleEvents_answers (reached.poll input.start input.script polled) input.moment 0
  obtain ⟨interest, snapshots, fanned, worked, informed, shown, spread⟩ := work_posts state settled input
  refine ⟨poll, state.work input server, answers, interest, snapshots, fanned, polled, ?_, ?_, ⟨⟨answering, ?_⟩, addressed⟩,
    informed, shown, spread⟩
  · unfold LoopState.frame
    simp only [polled, handled]
  · rw [worked, answered]
  · calc answers.length ≤ ((poll.events.map Prod.fst).filterMap speaker).length := addressed.length_le
      _ = poll.events.countP isData := speakers_length poll.events
      _ ≤ poll.work.packets := counted.words
      _ ≤ maxPollPackets := within.packets

theorem loop_posts {state : LoopState F} (run : Run db trace state.server []) (inputs : List FrameInput) :
    (state.loop inputs).2 = .ok () ∧
      Adds (KeepsBudget inputs.length) state.server (state.loop inputs).1.server := by
  induction inputs generalizing state trace with
  | nil => exact ⟨rfl, .of_sent KeepsBudget.none rfl⟩
  | cons input rest ih =>
      obtain ⟨poll, next, answers, interest, snapshots, fanned, -, framed, posts⟩ := frame_posts run.reachable input
      obtain ⟨same, events, framed_again, ⟨stages, longer, -⟩, -⟩ := frame_run run input
      cases framed.symm.trans framed_again
      obtain ⟨returns, later⟩ := ih longer
      have step : state.loop (input :: rest) = next.loop rest := by rw [LoopState.loop, framed]
      rw [step, List.length_cons, Nat.add_comm]
      exact ⟨returns, posts.keepsBudget.append later fun _ _ => KeepsBudget.append⟩

/-- However many clients there are and whatever they send, a frame posts at most its budget of each kind, and
`n` frames at most `n` times as much. -/
theorem loop_output_bounded {cfg : ValidConfig F} {server : Server F} {epochMs : Int64} {weatherSeed : UInt64}
    (started : Instant) (past : List FrameInput) (opened : Server.new cfg db epochMs weatherSeed = .ok server) :
    (∀ input, ∃ poll answers interest snapshots fanned,
      ((⟨server, 0, started⟩ : LoopState F).loop past).1.server.host.pollWithWork input.start input.script = .ok poll ∧
      FramePosts (poll.events.map Prod.fst) ((⟨server, 0, started⟩ : LoopState F).loop past).1
        ((⟨server, 0, started⟩ : LoopState F).loop (past ++ [input])).1 answers interest snapshots fanned) ∧
    ∀ future : List FrameInput, Adds (KeepsBudget future.length)
      ((⟨server, 0, started⟩ : LoopState F).loop past).1.server
      ((⟨server, 0, started⟩ : LoopState F).loop (past ++ future)).1.server := by
  obtain ⟨returns, -, -, blocks, -, ⟨stages, run, -⟩, -⟩ := loop_loops started past opened
  constructor
  · intro input
    obtain ⟨poll, next, answers, interest, snapshots, fanned, polled, framed, posts⟩ := frame_posts run.reachable input
    refine ⟨poll, answers, interest, snapshots, fanned, polled, ?_⟩
    rw [loop_append _ past [input] returns, LoopState.loop, framed]
    exact posts
  · intro future
    rw [loop_append _ past future returns]
    exact (loop_posts run future).2

end Frames

/-! A frame in which ten clients join, report the same place, and one of them speaks. -/
section Fleet

local instance : Codec Int := fleetCodec

def fleetFrame : FrameInput :=
  { idleFrame 0 (fleetScript ++ (fleetClients.map fun client => datagramFrom (UInt32.ofNat client) [0, 201]) ++
      [datagramFrom 3 [0, 200]]) with
    moment := fun n => calmAt (Int64.ofNat (1000 + 1000 * n)) }

/-- The frame uses up its budget of interest work, and the last two clients wait for the next one. -/
theorem loop_output_bounded_fleet :
    (∃ poll answers interest snapshots fanned, fleetOpened.host.pollWithWork 0 fleetFrame.script = .ok poll ∧
      FramePosts (poll.events.map Prod.fst) ⟨fleetOpened, 0, 0⟩ ((⟨fleetOpened, 0, 0⟩ : LoopState Int).loop [fleetFrame]).1
        answers interest snapshots fanned) ∧
    ((⟨fleetOpened, 0, 0⟩ : LoopState Int).loop [fleetFrame]).1.server.sent.map
        (fun post => (post.1, topicOf post.2.payload)) =
      fleetClients.map (·, .hello) ++ (fleetClients.take 8).map (·, .interest) ++ fleetClients.map (·, .snapshot) ++
        fleetClients.map (·, .chat) := by
  have opened : Server.new fleetConfig emptyDb 0 0 = .ok fleetOpened := rfl
  refine ⟨(loop_output_bounded 0 [] opened).1 fleetFrame, ?_⟩
  decide +kernel

end Fleet
end SailwindOnline.FrameBudgets
