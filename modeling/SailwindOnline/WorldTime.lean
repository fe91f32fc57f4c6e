import SailwindOnline.Lifetimes

/-!
One world time for everybody. Each greeting and each clock broadcast is computed
from the epoch of the server's file, so all clients of all processes on one file
are told the same function of real time, the same weather seed and the same day.
-/

namespace SailwindOnline.WorldTime
open World (Subscription)
open Persistence DecimalText Server Traces Effects TickEffects SessionRuns SessionIndex DatabaseFile Lifetimes

/-! Greetings. -/
section Greetings
variable {F : Type} [Platform F] {moment : Moment} {server middle after : Server F} {peer : PeerId}

/-- All that a greeting tells of the server. -/
def helloView (server : Server F) : ValidConfig F × F × Int64 × UInt64 × UInt32 :=
  (server.cfg, server.world.grid.cellSizeM, stampOf server)

/-- `message` is a greeting of `server`. -/
def Greeting (server : Server F) (moment : Moment) (message : ServerMessage F) : Prop :=
  ∃ accepted reason player gold, message = server.helloReply moment accepted reason player gold

theorem helloReply_congr (same : helloView after = helloView server) (accepted : Bool) (reason : String)
    (player : UInt64) (gold : Int64) :
    after.helloReply moment accepted reason player gold = server.helloReply moment accepted reason player gold := by
  simp only [helloView, stampOf, Prod.mk.injEq] at same
  obtain ⟨cfg, cellSize, epoch, seed, day⟩ := same
  unfold helloReply caps
  rw [cfg, cellSize, epoch, seed, day]

/-- Only greetings of `server` were posted, and what they tell is the same afterwards. -/
structure Speaks (moment : Moment) (server after : Server F) : Prop where
  view : helloView after = helloView server
  said : ∃ posts, after.sent = server.sent ++ posts ∧ ∀ post ∈ posts, Greeting server moment post.2.payload

namespace Speaks

theorem quiet (view : helloView after = helloView server) (sent : after.sent = server.sent) :
    Speaks moment server after :=
  ⟨view, [], by simp [sent], by simp⟩

theorem refl (server : Server F) : Speaks moment server server := quiet rfl rfl

theorem trans (first : Speaks moment server middle) (second : Speaks moment middle after) :
    Speaks moment server after := by
  obtain ⟨early, grown, greeted⟩ := first.said
  obtain ⟨late, grownAgain, greetedAgain⟩ := second.said
  refine ⟨second.view.trans first.view, early ++ late, ?_, ?_⟩
  · rw [grownAgain, grown, List.append_assoc]
  · intro post member
    rcases List.mem_append.mp member with old | new
    · exact greeted post old
    · obtain ⟨accepted, reason, player, gold, shown⟩ := greetedAgain post new
      exact ⟨accepted, reason, player, gold, shown.trans (helloReply_congr first.view _ _ _ _)⟩

theorem greet (server : Server F) (peer : PeerId) (accepted : Bool) (reason : String) (player : UInt64)
    (gold : Int64) : Speaks moment server (server.post peer (server.helloReply moment accepted reason player gold)) := by
  refine ⟨rfl, _, rfl, ?_⟩
  intro post member
  rw [List.mem_singleton.mp member]
  exact ⟨accepted, reason, player, gold, rfl⟩

theorem reject (server : Server F) (peer : PeerId) (reason : String) :
    Speaks moment server (server.rejectHello moment peer reason).1 :=
  greet server peer false reason 0 0

end Speaks

theorem allocateSessionGeneration_speaks (server : Server F) :
    Speaks moment server server.allocateSessionGeneration.1 := by
  have rekeyed : Speaks moment server (if server.nextSessionGeneration = maxU64 then
      server.rekeyLiveSessionGenerations else (server, .ok ())).1 := by
    split
    · unfold rekeyLiveSessionGenerations
      split <;> exact .quiet rfl rfl
    · exact .refl _
  unfold allocateSessionGeneration
  dsimp only
  split <;> rename_i done
  · rw [done] at rekeyed
    exact rekeyed
  · rw [done] at rekeyed
    split
    · exact rekeyed
    · exact rekeyed.trans (.quiet rfl rfl)

theorem registerSession_speaks (server : Server F) (peer : PeerId) (session : Session F) :
    Speaks moment server (server.registerSession peer session).1 := by
  have allocated : Speaks moment server _ := allocateSessionGeneration_speaks server
  unfold registerSession
  split
  · exact .refl _
  split
  · exact .refl _
  split <;> rename_i done
  · rw [done] at allocated
    exact allocated
  · rw [done] at allocated
    refine allocated.trans ?_
    unfold scheduleAoi
    split <;> exact .quiet rfl rfl

theorem supersede_speaks (server : Server F) (peer : PeerId) (player : UInt64) :
    Speaks moment server (server.supersede peer player).1 := by
  unfold supersede
  split
  · exact .refl _
  split
  · exact .refl _
  rename_i prior _ _
  have evicted : Speaks moment server (server.evictTransport prior).1 := by
    unfold evictTransport
    split
    · exact .refl _
    · split <;> exact .quiet rfl rfl
  split <;> rename_i done
  · rw [done] at evicted
    exact evicted
  · rw [done] at evicted
    refine evicted.trans (.quiet ?_ ?_)
    all_goals
      unfold unregisterSession
      split <;> rfl

theorem joinPlayer_speaks (server : Server F) (peer : PeerId) (player : UInt64) (identityHash name : String)
    (gold : Int64) : Speaks moment server (server.joinPlayer moment peer player identityHash name gold).1 := by
  have superseded : Speaks moment server _ := supersede_speaks server peer player
  unfold joinPlayer
  split <;> rename_i done
  · rw [done] at superseded
    exact superseded
  rename_i settled
  rw [done] at superseded
  refine superseded.trans ?_
  unfold openSession
  dsimp only
  have placed : Speaks moment settled { settled with
      world := settled.world.placeInCell player (settled.world.grid.cellOf Platform.zero Platform.zero) } :=
    .quiet (by simp only [helloView, stampOf, World.placeInCell_grid]) rfl
  have registered : Speaks moment settled _ := placed.trans (registerSession_speaks _ peer
    (newSession player identityHash name (({ radius := settled.cfg.aoiRadiusI32 } : Subscription).recenter
      (settled.world.grid.cellOf Platform.zero Platform.zero)).1
      (settled.world.grid.cellOf Platform.zero Platform.zero)))
  split <;> rename_i opened
  · rw [opened] at registered
    exact registered
  · rw [opened] at registered
    refine registered.trans ((Speaks.greet _ peer true "" player gold).trans ?_)
    unfold emitAoi scheduleAoi
    split
    · exact .refl _
    · split <;> exact .quiet rfl rfl

theorem admitPlayer_speaks (server : Server F) (peer : PeerId) (identityHash name : String)
    (known : Option UInt64) : Speaks moment server (server.admitPlayer moment peer identityHash name known).1 := by
  unfold admitPlayer
  split
  · exact .refl _
  · refine Speaks.trans ?_ (.reject _ _ _)
    exact .quiet rfl rfl
  · rename_i player db _
    have stored : Speaks moment server { server with db } := .quiet rfl rfl
    dsimp only
    split
    · exact stored
    split
    · split
      · exact stored
      · exact stored.trans (joinPlayer_speaks _ _ _ _ _ _)
    · split
      · exact stored
      · refine Speaks.trans ?_ (joinPlayer_speaks _ _ _ _ _ _)
        exact .quiet rfl rfl

theorem onHelloAt_speaks (server : Server F) (moment : Moment) (peer : PeerId) (hello : ClientHello) :
    Speaks moment server (server.onHelloAt moment peer hello).1 := by
  have charged : Speaks moment server
      { server with helloLimiter := (server.helloLimiter.allow (UInt64.ofNat peer) moment.admissionMs).1 } :=
    .quiet rfl rfl
  unfold onHelloAt
  dsimp only
  split
  · exact charged
  split
  · exact charged.trans (.reject _ _ _)
  split
  · exact charged.trans (.reject _ _ _)
  split
  · refine charged.trans ?_
    unfold repeatHello
    split
    · exact .reject _ _ _
    split
    · exact .refl _
    · exact .greet _ _ _ _ _ _
  split
  · exact charged
  · refine charged.trans ?_
    unfold admitHello
    dsimp only
    split
    · refine Speaks.trans ?_ (.reject _ _ _)
      exact .quiet rfl rfl
    split
    all_goals
      split
      · refine Speaks.trans ?_ (.reject _ _ _)
        exact .quiet rfl rfl
      · refine Speaks.trans ?_ (admitPlayer_speaks _ _ _ _ _)
        exact .quiet rfl rfl

end Greetings

/-! What is told of the time. -/
section Telling
variable {F : Type} [Platform F] {readings : List Int64} {server after : Server F}

/-- Clocks in `message` are the server's epoch against one of its readings of the system clock. -/
def Tells (stamp : Int64 × UInt64 × UInt32) (readings : List Int64) : ServerMessage F → Prop
  | .serverHello reply => (∃ now ∈ readings, reply.clock = Platform.clockFromEpoch stamp.1 now) ∧
      reply.weatherSeed = stamp.2.1 ∧ reply.weatherEpochDay = stamp.2.2
  | .worldClock clock => ∃ now ∈ readings, clock = Platform.clockFromEpoch stamp.1 now
  | _ => True

theorem Tells.more {stamp : Int64 × UInt64 × UInt32} {further : List Int64} {message : ServerMessage F}
    (within : readings ⊆ further) (tells : Tells stamp readings message) : Tells stamp further message := by
  cases message with
  | serverHello reply =>
      obtain ⟨⟨now, read, shown⟩, weather⟩ := tells
      exact ⟨⟨now, within read, shown⟩, weather⟩
  | worldClock clock =>
      obtain ⟨now, read, shown⟩ := tells
      exact ⟨now, within read, shown⟩
  | _ => trivial

theorem tells_of_topic {stamp : Int64 × UInt64 × UInt32} {message : ServerMessage F}
    (greets : topicOf message ≠ .hello) (clocks : topicOf message ≠ .clock) : Tells stamp readings message := by
  cases message with
  | serverHello reply => exact absurd rfl greets
  | worldClock clock => exact absurd rfl clocks
  | _ => trivial

theorem Greeting.tells {moment : Moment} {message : ServerMessage F} (greeting : Greeting server moment message)
    (read : moment.clockMs ∈ readings) : Tells (stampOf server) readings message := by
  obtain ⟨accepted, reason, player, gold, rfl⟩ := greeting
  exact ⟨⟨moment.clockMs, read, rfl⟩, rfl, rfl⟩

/-- Every new datagram tells the time of `stamp`. -/
def Posted (stamp : Int64 × UInt64 × UInt32) (readings : List Int64) (server after : Server F) : Prop :=
  ∃ posts, after.sent = server.sent ++ posts ∧ ∀ post ∈ posts, Tells stamp readings post.2.payload

theorem posted_of_topics {stamp : Int64 × UInt64 × UInt32} {topics : List Topic} (posts : Posts topics server after)
    (greets : Topic.hello ∉ topics) (clocks : Topic.clock ∉ topics) : Posted stamp readings server after := by
  obtain ⟨new, grown, about⟩ := posts
  refine ⟨new, grown, fun post member => ?_⟩
  have listed := about post member
  exact tells_of_topic (fun same => greets (same ▸ listed)) (fun same => clocks (same ▸ listed))

def JobsTell (readings : List Int64) (server : Server F) : Prop :=
  EveryJob (fun job => Tells (stampOf server) readings job.envelope.payload) server

end Telling

section Stages
variable {F : Type} [Platform F] [Codec F] {readings : List Int64} {server after : Server F} {pending : List Event}
  {db : Db F} {trace : List (Stage F)}

/-- Only hellos are greeted. -/
theorem event_posted (inv : Inv pending server) {moment : Moment} (event : Event)
    (read : moment.clockMs ∈ readings) :
    Posted (stampOf server) readings server (server.handleEvent moment event).1 := by
  have effect := handleEvent_effect inv moment event
  cases event with
  | connected peer => exact ⟨[], by simp [handleEvent], by simp⟩
  | data peer bytes =>
      by_cases heard : ∃ hello, Codec.decode (F := F) bytes = some (.hello hello)
      · obtain ⟨hello, decoded⟩ := heard
        have handled : (server.handleEvent moment (.data peer bytes)).1 = (server.onHelloAt moment peer hello).1 := by
          simp only [handleEvent, handleDataAt, decoded]
        rw [handled]
        obtain ⟨posts, grown, greeted⟩ := (onHelloAt_speaks server moment peer hello).said
        exact ⟨posts, grown, fun post member => (greeted post member).tells read⟩
      · generalize (server.handleEvent moment (.data peer bytes)).1 = after at effect ⊢
        cases effect with
        | ignored other => exact ⟨[], by simp, by simp⟩
        | hello decoded effect => exact absurd ⟨_, decoded⟩ heard
        | request found effect =>
            cases effect with
            | served served => exact posted_of_topics served.posts (by decide) (by decide)
            | moved motion state cell placed => exact ⟨[], by simp, by simp⟩
            | spoke here about captured => exact ⟨[], by simp, by simp⟩
  | disconnected peer reason =>
      generalize (server.handleEvent moment (.disconnected peer reason)).1 = after at effect ⊢
      cases effect with
      | ignored other => exact ⟨[], by simp, by simp⟩
      | absent vacant => exact ⟨[], by simp, by simp⟩
      | persisted found stored => exact ⟨[], by simp [departed, dropped], by simp⟩
      | unpersisted found failing => exact ⟨[], by simp [departed, dropped], by simp⟩

/-- The fanout posts what its jobs carry. -/
theorem FanoutStep.carried {good : Envelope F → Prop} {note : FanoutNote} (step : FanoutStep server note after)
    (every : EveryJob (fun job => good job.envelope) server) :
    ∃ posts, after.sent = server.sent ++ posts ∧ ∀ post ∈ posts, good post.2 := by
  cases step with
  | @examined taken fromClock job recipient inHand next =>
      subst inHand
      have own : good job.envelope := (returnFanoutJob_jobs taken fromClock job).elim (every.1 job) (every.2 job)
      cases wanted : taken.shouldSend job recipient with
      | true => exact ⟨[(recipient.peer, job.envelope)], by cases fromClock <;> rfl, by simpa using own⟩
      | false => exact ⟨[], by cases fromClock <;> simp [returnFanoutJob], by simp⟩
  | @finished taken fromClock job inHand only complete =>
      subst inHand
      exact ⟨[], by cases fromClock <;> simp [returnFanoutJob, finishFanoutJob], by simp⟩

theorem FanoutRun.carried (good : Envelope F → Prop) {notes : List FanoutNote} (run : FanoutRun server notes after)
    (every : EveryJob (fun job => good job.envelope) server) :
    ∃ posts, after.sent = server.sent ++ posts ∧ ∀ post ∈ posts, good post.2 := by
  induction run with
  | done => exact ⟨[], by simp, by simp⟩
  | step first _ ih =>
      obtain ⟨early, grown, carried⟩ := FanoutStep.carried first every
      obtain ⟨late, grownAgain, carriedAgain⟩ := ih (first.everyJob (fun _ _ => id) every)
      refine ⟨early ++ late, by rw [grownAgain, grown, List.append_assoc], ?_⟩
      intro post member
      rcases List.mem_append.mp member with old | new
      · exact carried post old
      · exact carriedAgain post new

theorem tick_posted (tick : Tick) (tell : JobsTell readings server) :
    Posted (stampOf server) readings server (tick.run server) := by
  cases tick with
  | aoi fails => exact posted_of_topics (processAoiWork_effect server fails).posts (by decide) (by decide)
  | snapshots => exact posted_of_topics (broadcastSnapshots_effect server).posts (by decide) (by decide)
  | fanout =>
      exact FanoutRun.carried (fun envelope => Tells (stampOf server) readings envelope.payload)
        (processFanoutWork_run server) tell
  | dirtyFlush fails now => exact posted_of_topics (processDirtyFlushAt_effect server fails now).posts (by decide) (by decide)
  | beginFlush => exact ⟨[], by simp [Tick.run, beginDirtyFlush], by simp⟩
  | clock clockMs =>
      have sent : (server.broadcastClock clockMs).sent = server.sent :=
        (congrArg Server.sent (broadcastClock_frame server clockMs) :)
      exact ⟨[], by simp [Tick.run, sent], by simp⟩

/-- A queued clock is read when it is queued. -/
theorem tick_jobs (tick : Tick) (read : ∀ clockMs, tick = .clock clockMs → clockMs ∈ readings)
    (tell : JobsTell readings server) : JobsTell readings (tick.run server) := by
  have stamp := tick_stamp server tick
  unfold JobsTell
  rw [stamp]
  cases tick with
  | clock clockMs =>
      have now := read clockMs rfl
      show EveryJob _ (server.broadcastClock clockMs)
      unfold broadcastClock
      rcases captureFanoutRecipients_spec { server with seq := server.seq + 1, clockFanout := none } with
        nobody | ⟨audience, nextAudience, -, captured⟩
      · simp only [nobody]
        exact ⟨tell.1, by rintro job ⟨⟩⟩
      · simp only [captured]
        refine ⟨tell.1, ?_⟩
        rintro job ⟨⟩
        exact ⟨clockMs, now, rfl⟩
  | aoi fails =>
      have frame := (processAoiWork_effect server fails).frame
      exact tell.of_same (congrArg Server.chatFanout frame :) (congrArg Server.clockFanout frame :)
  | snapshots =>
      have frame := (broadcastSnapshots_effect server).frame
      exact tell.of_same (congrArg Server.chatFanout frame :) (congrArg Server.clockFanout frame :)
  | fanout => exact (processFanoutWork_run server).everyJob (fun _ _ => id) tell
  | dirtyFlush fails now =>
      have frame := (processDirtyFlushAt_effect server fails now).frame
      exact tell.of_same (congrArg Server.chatFanout frame :) (congrArg Server.clockFanout frame :)
  | beginFlush => exact tell.of_same rfl rfl

/-- The system clock as one stage reads it. -/
def Stage.reads (stage : Stage F) : List Int64 :=
  match stage.action with
  | .poll .. => []
  | .handle moment _ => [moment.clockMs]
  | .tick (.clock clockMs) => [clockMs]
  | .tick _ => []

def clockReadings (trace : List (Stage F)) : List Int64 := trace.flatMap Stage.reads

omit [Codec F] in
theorem clockReadings_snoc (trace : List (Stage F)) (stage : Stage F) :
    clockReadings (trace ++ [stage]) = clockReadings trace ++ Stage.reads stage := by
  simp [clockReadings]

/-- The last stage posts, and queues, times it has read. -/
theorem stage_tells {stage : Stage F} (run : Run db (trace ++ [stage]) server pending)
    (tell : JobsTell (clockReadings trace) stage.before) :
    Posted (stampOf stage.before) (clockReadings (trace ++ [stage])) stage.before stage.after ∧
      JobsTell (clockReadings (trace ++ [stage])) stage.after := by
  obtain ⟨⟨waiting, earlier⟩, lawful, -⟩ := run.unsnoc
  obtain ⟨before, action, after⟩ := stage
  rw [clockReadings_snoc]
  have widened : JobsTell (clockReadings trace ++ Stage.reads ⟨before, action, after⟩) before :=
    ⟨fun job member => (tell.1 job member).more (List.subset_append_left _ _),
      fun job held => (tell.2 job held).more (List.subset_append_left _ _)⟩
  cases action with
  | poll now script =>
      obtain ⟨state, -, same⟩ := lawful
      replace same : after = { before with host := state.host } := same
      rw [same] at widened ⊢
      exact ⟨⟨[], by simp, by simp⟩, widened⟩
  | handle moment event =>
      replace lawful : after = (before.handleEvent moment event).1 := lawful
      have read : moment.clockMs ∈ clockReadings trace ++ Stage.reads ⟨before, .handle moment event, after⟩ := by
        simp [Stage.reads]
      have outcome := handleEvent_outcome earlier.inv moment event
      have posted := event_posted earlier.inv event read
      rw [← lawful] at outcome posted
      refine ⟨posted, ?_⟩
      unfold JobsTell
      rw [outcome_stamp outcome]
      refine outcome_everyJob (fun _ _ _ _ _ _ _ chatting => ?_) outcome widened
      exact tells_of_topic (by simp [chatting]) (by simp [chatting])
  | tick tick =>
      replace lawful : after = tick.run before := lawful
      have posted := tick_posted tick widened
      rw [← lawful] at posted
      refine ⟨posted, ?_⟩
      have jobs := tick_jobs tick ?_ widened
      · rwa [← lawful] at jobs
      · rintro clockMs rfl
        simp [Stage.reads]

theorem run_jobsTell (run : Run db trace server pending) : JobsTell (clockReadings trace) server := by
  induction trace using List.reverseRecOn generalizing server pending with
  | nil =>
      obtain ⟨-, cfg, epochMs, weatherSeed, started⟩ := run_nil run
      obtain ⟨identityPlayers, -, rfl⟩ := new_opened started
      exact ⟨by rintro job ⟨⟩, by rintro job ⟨⟩⟩
  | append_singleton trace stage ih =>
      obtain ⟨⟨waiting, earlier⟩, -, rfl⟩ := run.unsnoc
      exact (stage_tells run (ih earlier)).2

end Stages

/-! Every process of one file. -/
section Processes
variable {F : Type} [Platform F] [Codec F] {lives : List (Life F)} {file : DbFile F}

/-- All clients of all processes are told the time of one epoch, as it stood at a clock reading of their process, and
one weather. -/
theorem one_world_time (history : History lives file) :
    ∃ epochMs weatherSeed, ∀ life ∈ lives, ∀ early stage later, life.trace = early ++ stage :: later →
      ∀ post ∈ stage.posted, Tells (epochMs, weatherSeed, (Platform.clockFromEpoch (F := F) epochMs epochMs).day)
        (clockReadings (early ++ [stage])) post.2.payload := by
  have chronicle := history_chronicle history
  have stamps : ∀ life ∈ lives, ∀ server ∈ life.servers, Recorded file server := fun life member server seen =>
    chronicle.recorded server (List.mem_flatMap.mpr ⟨life, member, seen⟩)
  have told : ∀ life ∈ lives, ∀ early stage later, life.trace = early ++ stage :: later →
      ∀ post ∈ stage.posted, Tells (stampOf life.opened) (clockReadings (early ++ [stage])) post.2.payload := by
    intro life member early stage later split post posted
    obtain ⟨db, server, pending, run, begins⟩ := history_run history life member
    rw [split] at run begins
    obtain ⟨rest, upto⟩ := run.upto
    obtain ⟨⟨waiting, before⟩, -, -⟩ := upto.unsnoc
    have stamp := run_stamps before (begins_upto begins)
    obtain ⟨⟨posts, grown, tells⟩, -⟩ := stage_tells upto (run_jobsTell before)
    rw [Stage.posted_eq grown] at posted
    exact stamp ▸ tells post posted
  cases lives with
  | nil => exact ⟨0, 0, by simp⟩
  | cons first rest =>
      have origin := stamps first List.mem_cons_self first.opened List.mem_cons_self
      refine ⟨first.opened.epochMs, first.opened.weatherSeed, fun life member early stage later split post posted => ?_⟩
      have own := stamps life member life.opened List.mem_cons_self
      have shown := told life member early stage later split post posted
      have epoch := showI64_injective (Option.some.inj (own.epoch.symm.trans origin.epoch))
      have seed := showU64_injective (Option.some.inj (own.seed.symm.trans origin.seed))
      rw [stampOf, own.reflects.day, epoch, seed] at shown
      exact shown

/-- The second process greets nobody; the first told its two players the epoch of the file. -/
theorem one_world_time_relaunched : ∃ epochMs weatherSeed, ∀ early stage later,
    joinStages = early ++ stage :: later → ∀ post ∈ stage.posted,
      Tells (epochMs, weatherSeed, (Platform.clockFromEpoch (F := Int) epochMs epochMs).day)
        (clockReadings (early ++ [stage])) post.2.payload := by
  obtain ⟨epochMs, weatherSeed, tells⟩ := one_world_time relaunched
  exact ⟨epochMs, weatherSeed, tells ⟨freshServer, joinStages, joinedServer⟩ (by simp [relaunchLives])⟩

end Processes
end SailwindOnline.WorldTime
