import SailwindOnline.ChatLatency
import SailwindOnline.RequestLog

/-!
Who said what. A chat line on its way was taken from a datagram of its speaker's
own connection, under the speaker's own id and name and word for word, and is
posted only to sessions whose interest covers the cell it was spoken in.
-/

namespace SailwindOnline.ChatProvenance
open World (Cell)
open Persistence Server Traces Effects TickEffects SessionRuns RequestLog Lifetimes

section Speech
variable {F : Type} [Platform F] [Codec F]

/-- `speech` handles the chat line that `envelope` carries: a session said it in `senderCell`, within the limits. -/
structure Utters (speech : Stage F) (envelope : Envelope F) (senderCell : Option Cell) : Prop where
  spoken : ∃ moment peer chat session cell, Hears speech moment peer (.chat chat) ∧
    speech.before.sessions.get? peer = some session ∧ session.cell = some cell ∧ senderCell = some cell ∧
    envelope.payload = .chatBroadcast session.playerId session.displayName (chat.text.getD "") chat.channel
      moment.uptimeMs ∧
    stringWithinLimit (chat.text.getD "") speech.before.cfg.maxWireStringLenUsize = true ∧
    (speech.before.chatLimiter.allow session.playerId moment.admissionMs).2 = true

def Uttered (trace : List (Stage F)) (job : FanoutJob F) : Prop :=
  topicOf job.envelope.payload = .chat → ∃ speech ∈ trace, Utters speech job.envelope job.senderCell

theorem Uttered.later {trace : List (Stage F)} {job : FanoutJob F} (uttered : Uttered trace job) (more : List (Stage F)) :
    Uttered (trace ++ more) job := by
  intro chatting
  obtain ⟨speech, member, utters⟩ := uttered chatting
  exact ⟨speech, List.mem_append_left more member, utters⟩

end Speech

/-! What an event queues. -/
section Events
variable {F : Type} [Platform F] [Codec F] {server : Server F} {moment : Moment} {peer : PeerId} {pending : List Event}
  {good : FanoutJob F → Prop}

theorem onChat_jobs (chat : ChatSend) (every : EveryJob good server)
    (spoken : ∀ session cell seq audience, server.sessions.get? peer = some session → session.cell = some cell →
      stringWithinLimit (chat.text.getD "") server.cfg.maxWireStringLenUsize = true →
      (server.chatLimiter.allow session.playerId moment.admissionMs).2 = true →
      good { envelope := ⟨seq, .chatBroadcast session.playerId session.displayName (chat.text.getD "") chat.channel
              moment.uptimeMs⟩
             senderCell := some cell, audience }) :
    EveryJob good (server.onChat moment peer chat) := by
  unfold onChat
  split
  · exact every
  · rename_i session found
    split
    · exact every
    · rename_i cell here
      simp only
      split <;> rename_i short
      · exact every
      · split
        · exact every
        · split <;> rename_i admitted
          · exact every.of_same rfl rfl
          · unfold queueChat
            split
            · exact every.of_same rfl rfl
            · rcases captureFanoutRecipients_spec { server with
                  chatLimiter := (server.chatLimiter.allow session.playerId moment.admissionMs).1
                  seq := server.seq + 1 } with nobody | ⟨audience, nextAudience, -, captured⟩
              · simp only [nobody]
                exact every.of_same rfl rfl
              · simp only [captured]
                constructor
                · intro job member
                  rcases List.mem_append.mp member with earlier | new
                  · exact every.1 job earlier
                  · rw [List.mem_singleton.mp new]
                    exact spoken session cell _ audience found here (by simpa using short) (by simpa using admitted)
                · exact every.2

omit [Codec F] in
theorem onClientState_jobs (state : ClientState F) :
    (server.onClientState moment peer state).chatFanout = server.chatFanout ∧
      (server.onClientState moment peer state).clockFanout = server.clockFanout := by
  unfold onClientState
  split
  · exact ⟨rfl, rfl⟩
  · simp only
    split
    · exact ⟨rfl, rfl⟩
    · split
      · exact ⟨rfl, rfl⟩
      · unfold emitAoi scheduleAoi
        split
        · exact ⟨rfl, rfl⟩
        · split <;> exact ⟨rfl, rfl⟩

omit [Codec F] in
/-- A hello queues nothing; where it renumbers the sessions it throws every queued job away. -/
theorem hello_jobs {hello : ClientHello} {handled : Handled F} (effect : HelloEffect server moment peer hello handled)
    (every : EveryJob good server) : EveryJob good handled.1 := by
  have calm : ∀ {after : Server F}, calmFrame after = calmFrame server → EveryJob good after := fun frame =>
    every.of_same (congrArg Server.chatFanout frame :) (congrArg Server.clockFanout frame :)
  cases effect with
  | silent charges storage => exact calm (charged_calm charges).1
  | answered charges other => exact calm (charged_calm charges).1
  | full gated unknown crowded => exact calm (charged_calm (.identity gated.presented gated.fresh)).1
  | faulted gated admitted fault => exact calm (charged_calm (.identity gated.presented gated.fresh)).1
  | repeated found greets => exact every.of_same rfl rfl
  | @joined identityHash name ip row db middle numbered generation reply gated admitted consistent
        superseded numbering greets =>
      have frame := (enrolled_calm server moment peer ip identityHash row.id.toUInt64 db).1
      have base : EveryJob good (enrolled server moment peer ip identityHash row.id.toUInt64 db) :=
        every.of_same (congrArg Server.chatFanout frame :) (congrArg Server.clockFanout frame :)
      cases superseded <;> cases numbering
      · exact base.of_same rfl rfl
      · exact ⟨by rintro job ⟨⟩, by rintro job ⟨⟩⟩
      · exact base.of_same rfl rfl
      · exact ⟨by rintro job ⟨⟩, by rintro job ⟨⟩⟩

theorem handleDataAt_jobs (inv : Inv pending server) (moment : Moment) (peer : PeerId) (bytes : WireProtocol.Bytes)
    (every : EveryJob good server)
    (spoken : ∀ chat session cell seq audience, Codec.decode (F := F) bytes = some (.chat chat) →
      server.sessions.get? peer = some session → session.cell = some cell →
      stringWithinLimit (chat.text.getD "") server.cfg.maxWireStringLenUsize = true →
      (server.chatLimiter.allow session.playerId moment.admissionMs).2 = true →
      good { envelope := ⟨seq, .chatBroadcast session.playerId session.displayName (chat.text.getD "") chat.channel
              moment.uptimeMs⟩
             senderCell := some cell, audience }) :
    EveryJob good (server.handleDataAt moment peer bytes).1 := by
  have served : ∀ {session after}, Served server session after → EveryJob good after := fun served =>
    every.of_same (congrArg Server.chatFanout served.frame :) (congrArg Server.clockFanout served.frame :)
  cases decoded : Codec.decode (F := F) bytes with
  | none =>
      simp only [handleDataAt, decoded]
      exact every
  | some message =>
      simp only [handleDataAt, decoded]
      cases message with
      | hello hello => exact hello_jobs (onHelloAt_effect inv moment hello) every
      | state state => exact every.of_same (onClientState_jobs state).1 (onClientState_jobs state).2
      | chat chat => exact onChat_jobs chat every (spoken chat · · · · decoded)
      | econ txn =>
          cases found : server.sessions.get? peer with
          | none =>
              simp only [onEcon, found]
              exact every
          | some session => exact served (onEcon_served moment txn found)
      | trade request =>
          cases found : server.sessions.get? peer with
          | none =>
              simp only [onTrade, found]
              exact every
          | some session => exact served (onTrade_served moment request found)
      | moor request =>
          cases found : server.sessions.get? peer with
          | none =>
              simp only [onMoor, found]
              exact every
          | some session => exact served (onMoor_served moment request found)

omit [Codec F] in
theorem disconnected_jobs {reason : DisconnectReason} {after : Server F}
    (outcome : Outcome server moment (.disconnected peer reason) after) (every : EveryJob good server) :
    EveryJob good after := by
  cases outcome with
  | calm frame posts => exact every.of_same (congrArg Server.chatFanout frame :) (congrArg Server.clockFanout frame :)
  | left found => exact every.of_same rfl rfl

omit [Codec F] in
theorem outcome_posts {event : Event} {after : Server F} (outcome : Outcome server moment event after) :
    Posts [.reply, .hello] server after := by
  cases outcome with
  | calm frame posts kept => exact posts
  | moved found motion state cell placed => exact posts_of_sent_eq rfl
  | spoke found here about captured => exact posts_of_sent_eq rfl
  | @joined peer bytes base middle numbered player identityHash name generation reply vacant frame quiet superseded numbering =>
      have posted := entered_sent peer
        (withGeneration generation (firstSession server player identityHash name)) reply superseded numbering
      rw [quiet] at posted
      refine ⟨_, posted, ?_⟩
      intro post member
      rw [List.mem_singleton.mp member]
      simp [topicOf]
  | left found => exact posts_of_sent_eq rfl

end Events

/-! What the fanout posts. -/
section Fanout
variable {F : Type} [Platform F] [Codec F] {server after : Server F} {good : FanoutJob F → Prop}

/-- A post of the fanout: it carries a queued job to a session in whose interest the job was spoken. -/
def Delivers (good : FanoutJob F → Prop) (server : Server F) (post : PeerId × Envelope F) : Prop :=
  ∃ job session, good job ∧ job.envelope = post.2 ∧ server.sessions.get? post.1 = some session ∧
    ∀ cell, job.senderCell = some cell → session.sub.contains cell = true

omit [Codec F] in
theorem shouldSend_session {job : FanoutJob F} {recipient : FanoutRecipient}
    (wanted : server.shouldSend job recipient = true) :
    ∃ session, server.sessions.get? recipient.peer = some session ∧
      ∀ cell, job.senderCell = some cell → session.sub.contains cell = true := by
  unfold shouldSend at wanted
  split at wanted
  · cases wanted
  · rename_i session found
    refine ⟨session, found, ?_⟩
    intro cell spoken
    rw [spoken] at wanted
    simp only [Bool.and_eq_true] at wanted
    exact wanted.2

theorem FanoutStep.delivered {note : FanoutNote} (step : FanoutStep server note after) (every : EveryJob good server) :
    ∃ posts, after.sent = server.sent ++ posts ∧ ∀ post ∈ posts, Delivers good server post := by
  cases step with
  | @examined taken fromClock job recipient inHand next =>
      subst inHand
      have own : good job := (returnFanoutJob_jobs taken fromClock job).elim (every.1 job) (every.2 job)
      have same : (taken.returnFanoutJob fromClock job).sessions = taken.sessions := by cases fromClock <;> rfl
      cases wanted : taken.shouldSend job recipient with
      | true =>
          obtain ⟨session, found, near⟩ := shouldSend_session wanted
          refine ⟨[(recipient.peer, job.envelope)], by cases fromClock <;> rfl, ?_⟩
          intro post member
          rw [List.mem_singleton.mp member]
          exact ⟨job, session, own, rfl, same ▸ found, near⟩
      | false => exact ⟨[], by cases fromClock <;> simp [returnFanoutJob], by simp⟩
  | @finished taken fromClock job inHand only complete =>
      subst inHand
      exact ⟨[], by cases fromClock <;> simp [returnFanoutJob, finishFanoutJob], by simp⟩

theorem FanoutRun.delivered {notes : List FanoutNote} (run : FanoutRun server notes after)
    (advances : ∀ job next, good job → good { job with nextRecipient := next }) (every : EveryJob good server) :
    ∃ posts, after.sent = server.sent ++ posts ∧ ∀ post ∈ posts, Delivers good server post := by
  induction run with
  | done => exact ⟨[], by simp, by simp⟩
  | @step server middle after note notes first later ih =>
      have same : middle.sessions = server.sessions := (congrArg Server.sessions first.frame :)
      obtain ⟨early, grown, delivered⟩ := FanoutStep.delivered first every
      obtain ⟨late, grown_again, delivered_again⟩ := ih (first.everyJob advances every)
      refine ⟨early ++ late, ?_, ?_⟩
      · rw [grown_again, grown, List.append_assoc]
      · intro post member
        rcases List.mem_append.mp member with old | new
        · exact delivered post old
        · obtain ⟨job, session, own, carried, found, near⟩ := delivered_again post new
          exact ⟨job, session, own, carried, same ▸ found, near⟩

end Fanout

/-! Runs. -/
section Runs
variable {F : Type} [Platform F] [Codec F] {server : Server F} {pending : List Event} {db : Db F} {trace : List (Stage F)}

theorem stage_uttered {stage : Stage F} {waiting : List Event} (inv : Inv waiting stage.before) (lawful : stage.Lawful)
    (every : EveryJob (Uttered trace) stage.before) : EveryJob (Uttered (trace ++ [stage])) stage.after := by
  obtain ⟨before, action, after⟩ := stage
  have kept : EveryJob (Uttered (trace ++ [⟨before, action, after⟩])) before :=
    ⟨fun job member => (every.1 job member).later _, fun job held => (every.2 job held).later _⟩
  cases action with
  | poll now script =>
      obtain ⟨state, -, same⟩ := lawful
      replace same : after = { before with host := state.host } := same
      rw [same] at kept ⊢
      exact kept.of_same rfl rfl
  | handle moment event =>
      replace lawful : after = (before.handleEvent moment event).1 := lawful
      cases event with
      | connected peer =>
          have same : after = before := lawful
          rw [same] at kept ⊢
          exact kept
      | data peer bytes =>
          have jobs := handleDataAt_jobs inv moment peer bytes kept ?_
          · rw [lawful] at jobs ⊢
            exact jobs
          · intro chat session cell seq audience decoded found here short admitted _
            exact ⟨_, List.mem_append_right _ List.mem_cons_self,
              ⟨moment, peer, chat, session, cell, ⟨bytes, rfl, decoded⟩, found, here, rfl, rfl, short, admitted⟩⟩
      | disconnected peer reason =>
          have jobs := disconnected_jobs (handleEvent_outcome inv moment (.disconnected peer reason)) kept
          rw [lawful] at jobs ⊢
          exact jobs
  | tick tick =>
      replace lawful : after = tick.run before := lawful
      have jobs := everyJob_tick tick (fun job next uttered => uttered) ?_ kept
      · rw [lawful] at jobs ⊢
        exact jobs
      · intro envelope audience clocking chatting
        rw [clocking] at chatting
        cases chatting

theorem run_uttered (run : Run db trace server pending) : EveryJob (Uttered trace) server := by
  induction trace using List.reverseRecOn generalizing server pending with
  | nil =>
      obtain ⟨-, cfg, epochMs, weatherSeed, started⟩ := run_nil run
      obtain ⟨identityPlayers, -, rfl⟩ := new_opened started
      exact ⟨by rintro job ⟨⟩, by rintro job ⟨⟩⟩
  | append_singleton trace stage ih =>
      obtain ⟨⟨waiting, earlier⟩, lawful, rfl⟩ := run.unsnoc
      exact stage_uttered earlier.inv lawful (ih earlier)

/-- Over every run, whoever is posted a chat line has its speaker's cell in view, and the line was said before, over the
speaker's own connection, in these words, under the id and the name of its session, within the limits. -/
theorem chat_as_spoken {early later : List (Stage F)} {stage : Stage F}
    (run : Run db (early ++ stage :: later) server pending) :
    ∀ post ∈ stage.posted, topicOf post.2.payload = .chat →
      ∃ speech ∈ early, ∃ cell listener, Utters speech post.2 (some cell) ∧
        stage.before.sessions.get? post.1 = some listener ∧ listener.sub.contains cell = true := by
  obtain ⟨rest, upto⟩ := run.upto
  obtain ⟨⟨waiting, before⟩, lawful, -⟩ := upto.unsnoc
  have jobs := run_uttered before
  obtain ⟨server, action, after⟩ := stage
  have silent : ∀ {topics : List Topic}, Posts topics server after → Topic.chat ∉ topics →
      ∀ post ∈ (⟨server, action, after⟩ : Stage F).posted, topicOf post.2.payload ≠ .chat := by
    intro topics posts other post member chatting
    obtain ⟨new, grown, about⟩ := posts
    rw [Stage.posted_eq grown] at member
    exact other (chatting ▸ about post member)
  intro post member chatting
  cases action with
  | poll now script =>
      obtain ⟨state, -, same⟩ := lawful
      replace same : after = { server with host := state.host } := same
      subst same
      exact absurd chatting (silent (posts_of_sent_eq rfl : Posts [] _ _) (by decide) post member)
  | handle moment event =>
      replace lawful : after = (server.handleEvent moment event).1 := lawful
      have posts := outcome_posts (handleEvent_outcome before.inv moment event)
      rw [← lawful] at posts
      exact absurd chatting (silent posts (by decide) post member)
  | tick tick =>
      replace lawful : after = tick.run server := lawful
      subst lawful
      cases tick with
      | fanout =>
          obtain ⟨posts, grown, delivered⟩ :=
            FanoutRun.delivered (processFanoutWork_run server) (fun job next uttered => uttered) jobs
          rw [Stage.posted_eq grown] at member
          obtain ⟨job, listener, uttered, carried, found, near⟩ := delivered post member
          obtain ⟨speech, listed, utters⟩ := uttered (carried ▸ chatting)
          obtain ⟨moment, peer, chat, session, cell, said⟩ := utters.spoken
          have spoken : job.senderCell = some cell := said.2.2.2.1
          rw [carried, spoken] at utters
          exact ⟨speech, listed, cell, listener, utters, found, near cell spoken⟩
      | aoi fails => exact absurd chatting (silent (processAoiWork_effect server fails).posts (by decide) post member)
      | snapshots => exact absurd chatting (silent (broadcastSnapshots_effect server).posts (by decide) post member)
      | dirtyFlush fails now =>
          exact absurd chatting (silent (processDirtyFlushAt_effect server fails now).posts (by decide) post member)
      | beginFlush => exact absurd chatting (silent (posts_of_sent_eq rfl : Posts [] _ _) (by decide) post member)
      | clock clockMs =>
          have quiet := (congrArg Server.sent (broadcastClock_frame server clockMs) :)
          exact absurd chatting (silent (posts_of_sent_eq quiet : Posts [] _ _) (by decide) post member)

end Runs

/-! Two clients in one cell, one of them chatting. -/
section Chatter
open ChatLatency

attribute [local instance] chatterCodec

def fannedOut : Stage Int := ⟨chatterServer, .tick .fanout, Tick.fanout.run chatterServer⟩

theorem chat_as_spoken_chatter : ∃ post ∈ fannedOut.posted, ∃ speech cell listener,
    Utters speech post.2 (some cell) ∧ fannedOut.before.sessions.get? post.1 = some listener ∧
      listener.sub.contains cell = true := by
  have waiting : Run emptyDb _ (scriptedServer chatterScript) (chatterEvents ++ []) :=
    scripted_run chatterScript (by decide +kernel)
  have chatted : Run emptyDb _ chatterServer [] := handleAll_run chatterEvents 1000 waiting
  have heard : ∃ post, fannedOut.posted.head? = some post ∧ topicOf post.2.payload = .chat := by
    have topics : (fannedOut.posted.head?.map fun post => topicOf post.2.payload) = some .chat := by decide +kernel
    exact Option.map_eq_some_iff.mp topics
  obtain ⟨post, first, chatting⟩ := heard
  have member := List.mem_of_mem_head? first
  obtain ⟨speech, -, spoken⟩ := chat_as_spoken (chatted.tick .fanout) post member chatting
  exact ⟨post, member, speech, spoken⟩

end Chatter
end SailwindOnline.ChatProvenance
