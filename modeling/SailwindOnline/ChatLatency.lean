import SailwindOnline.FanoutBounds
import SailwindOnline.Lifetimes

/-!
How long a chat line waits. A call of the fanout has budget for the largest
audience, so it ends the job it begins with, and the clock is preferred to the
chat queue at most once between two lines: however often the clock is broadcast,
two calls end one line, and lines leave in the order they came.
-/

namespace SailwindOnline.ChatLatency
open Server SessionIndex SessionRuns OrderedSet Effects TickEffects Traces Fanout FanoutBounds Lifetimes

/-! A queue that is served from the front. -/
section Serving
variable {Item : Type} {before middle after first second queued more done : List Item}

/-- `queued` came in at the end, `done` left at the front. -/
def Serves (before queued done after : List Item) : Prop := before ++ queued = done ++ after

theorem Serves.trans (early : Serves before queued first middle) (late : Serves middle more second after) :
    Serves before (queued ++ more) (first ++ second) after := by
  unfold Serves at *
  calc before ++ (queued ++ more) = (before ++ queued) ++ more := (List.append_assoc ..).symm
    _ = first ++ (middle ++ more) := by rw [early, List.append_assoc]
    _ = (first ++ second) ++ after := by rw [late, List.append_assoc]

end Serving

/-! One call. -/
section Calls
variable {F : Type} [Platform F] [Codec F] {server after : Server F} {notes : List FanoutNote}

/-- What a chat job is about, whomever it has reached. -/
def lineOf (job : FanoutJob F) := (job.envelope, job.senderCell, job.audience)

def lines (server : Server F) := server.chatFanout.map lineOf

def chatDone : FanoutNote → Bool
  | .finished false => true
  | _ => false

def clockDone : FanoutNote → Bool
  | .finished true => true
  | _ => false

/-- One when it is the clock's turn. -/
def clockTurn (server : Server F) : Nat := if server.fanoutPreferClock then 1 else 0

omit [Codec F] in
theorem clockTurn_le (server : Server F) : clockTurn server ≤ 1 := by
  unfold clockTurn
  split <;> omega

/-- A line leaves for each chat job finished. -/
theorem fanoutRun_lines (run : FanoutRun server notes after) :
    ∃ done, Serves (lines server) [] done (lines after) ∧ done.length = notes.countP chatDone := by
  induction run with
  | done => exact ⟨[], by simp [Serves], rfl⟩
  | step first _ ih =>
      obtain ⟨done, serves, counted⟩ := ih
      cases first with
      | @examined taken fromClock job recipient inHand next =>
          subst inHand
          refine ⟨done, ?_, by simpa [chatDone] using counted⟩
          cases fromClock <;> exact serves
      | @finished taken fromClock job inHand only complete =>
          subst inHand
          cases fromClock with
          | true => exact ⟨done, serves, by simpa [chatDone] using counted⟩
          | false =>
              refine ⟨lineOf job :: done, ?_, by rw [List.countP_cons_of_pos rfl, List.length_cons, counted]⟩
              have rest : lines taken ++ [] = done ++ lines _ := serves
              show (lineOf job :: lines taken) ++ [] = lineOf job :: done ++ lines _
              rw [List.cons_append, rest, List.cons_append]

/-- While no line leaves, a finished clock passes the turn to the chat. -/
theorem fanoutRun_turn (run : FanoutRun server notes after) (idle : notes.countP chatDone = 0) :
    after.fanoutPreferClock = (if notes.any clockDone then false else server.fanoutPreferClock) := by
  induction run with
  | done => rfl
  | step first _ ih =>
      cases first with
      | @examined taken fromClock job recipient inHand next =>
          subst inHand
          rw [ih (by simpa [chatDone] using idle)]
          cases fromClock <;> rfl
      | @finished taken fromClock job inHand only complete =>
          subst inHand
          cases fromClock with
          | true =>
              rw [ih (by simpa [chatDone] using idle)]
              simp [clockDone, finishFanoutJob]
          | false => simp [chatDone] at idle

omit [Codec F] in
/-- With budget for them all, all recipients are examined. -/
theorem fanoutRecipients_whole (rest : List FanoutRecipient) (server : Server F) (job : FanoutJob F)
    (budget : FanoutBudget) (scans : rest.length ≤ budget.scans) (sends : rest.length ≤ budget.sends) :
    (server.fanoutRecipients job rest budget).2.1.nextRecipient = job.nextRecipient + rest.length ∧
      (server.fanoutRecipients job rest budget).2.1.audience = job.audience := by
  induction rest generalizing server job budget with
  | nil => exact ⟨rfl, rfl⟩
  | cons recipient rest ih =>
      rw [List.length_cons] at scans sends
      have step : (job.nextRecipient + 1) + rest.length = job.nextRecipient + (recipient :: rest).length := by
        rw [List.length_cons]
        omega
      unfold fanoutRecipients
      rw [if_neg (by omega), ← step]
      simp only
      split
      · exact ih _ { job with nextRecipient := job.nextRecipient + 1 } ⟨budget.scans - 1, budget.sends - 1⟩
          (Nat.le_sub_one_of_lt scans) (Nat.le_sub_one_of_lt sends)
      · exact ih _ { job with nextRecipient := job.nextRecipient + 1 } ⟨budget.scans - 1, budget.sends⟩
          (Nat.le_sub_one_of_lt scans) (Nat.le_of_succ_le sends)

/-- A call on a queue with lines ends the job it begins with. -/
theorem fanoutNotes_first (bounded : Bounded server) (waiting : lines server ≠ []) :
    1 ≤ (fanoutNotes server).countP chatDone ∨
      (server.fanoutPreferClock = true ∧ (fanoutNotes server).any clockDone = true) := by
  have queued : server.chatFanout ≠ [] := by
    intro empty
    exact waiting (by rw [lines, empty]; rfl)
  unfold fanoutNotes turnNotes
  rw [if_neg (by decide)]
  dsimp only
  generalize turn : (server.clockFanout.isSome && (server.fanoutPreferClock || server.chatFanout.isEmpty)) = fromClock
  rcases took : server.takeFanoutJob fromClock with ⟨taken, _ | job⟩
  · rw [← turn] at took
    exact absurd (takeFanoutJob_none took).2.1 queued
  have held : job ∈ laneOf server fromClock := by
    rw [takeFanoutJob_some took]
    exact job_returned fromClock taken job
  have small : job.audience.recipients.length ≤ maxTransportPeersCeiling := by
    apply bounded.audiences
    rw [retained_mem]
    cases fromClock with
    | true => exact Or.inr (Or.inr ⟨job, Option.mem_toList.mp held, rfl⟩)
    | false => exact Or.inr (Or.inl ⟨job, held, rfl⟩)
  -- the budget of a call is the ceiling of an audience
  have left : (job.audience.recipients.drop job.nextRecipient).length ≤ maxTransportPeersCeiling := by
    rw [List.length_drop]
    omega
  obtain ⟨next, same⟩ := fanoutRecipients_whole (job.audience.recipients.drop job.nextRecipient) taken job
    ⟨fanoutRecipientScansPerTick, fanoutSendsPerTick⟩ left left
  have begun := bounded.progress fromClock job held
  rw [List.length_drop, Nat.add_sub_cancel' begun] at next
  have ended : (taken.fanoutRecipients job (job.audience.recipients.drop job.nextRecipient)
      ⟨fanoutRecipientScansPerTick, fanoutSendsPerTick⟩).2.1.nextRecipient =
      (taken.fanoutRecipients job (job.audience.recipients.drop job.nextRecipient)
        ⟨fanoutRecipientScansPerTick, fanoutSendsPerTick⟩).2.1.audience.recipients.length := by
    rw [next, same]
  dsimp only
  rw [if_pos ended]
  cases fromClock with
  | false =>
      left
      rw [List.countP_append, List.countP_cons_of_pos rfl]
      omega
  | true =>
      right
      constructor
      · have filled : server.chatFanout.isEmpty = false := by simpa using queued
        rw [filled, Bool.or_false] at turn
        exact (Bool.and_eq_true_iff.mp turn).2
      · rw [List.any_append, List.any_cons]
        simp [clockDone]

/-- What a call pays for: two turns a line that leaves, or the turn of the clock. -/
theorem fanout_paid (bounded : Bounded server) (waiting : lines server ≠ []) :
    1 + clockTurn server.processFanoutWork ≤ 2 * (fanoutNotes server).countP chatDone + clockTurn server := by
  have after := clockTurn_le server.processFanoutWork
  by_cases idle : (fanoutNotes server).countP chatDone = 0
  · rcases fanoutNotes_first bounded waiting with line | ⟨before, clock⟩
    · omega
    · have passed := fanoutRun_turn (processFanoutWork_run server) idle
      rw [clock] at passed
      simp only [clockTurn, passed, before, if_true, Bool.false_eq_true, if_false]
      omega
  · omega

end Calls

/-! Whole runs. -/
section Runs
variable {F : Type} [Platform F] [Codec F] {db : Persistence.Db F} {trace : List (Stage F)} {stage : Stage F}
  {started server after : Server F} {pending : List Event}

/-- The lines that have left in one stage. -/
def linesDone (stage : Stage F) : Nat :=
  match stage.action with
  | .tick .fanout => (fanoutNotes stage.before).countP chatDone
  | _ => 0

def isFanout (stage : Stage F) : Bool :=
  match stage.action with
  | .tick .fanout => true
  | _ => false

omit [Codec F] in
theorem outcome_lines {moment : Moment} {event : Event} (outcome : Outcome server moment event after)
    (room : server.nextSessionGeneration ≠ maxU64) :
    ∃ queued, Serves (lines server) queued [] (lines after) ∧ clockTurn after = clockTurn server := by
  have still : after.chatFanout = server.chatFanout → after.fanoutPreferClock = server.fanoutPreferClock →
      ∃ queued, Serves (lines server) queued [] (lines after) ∧ clockTurn after = clockTurn server := by
    intro same turn
    exact ⟨[], by simp [Serves, lines, same], by simp only [clockTurn, turn]⟩
  cases outcome with
  | calm frame posts kept =>
      exact still (congrArg Server.chatFanout frame :) (congrArg Server.fanoutPreferClock frame :)
  | moved found motion state cell placed => exact still rfl rfl
  | @spoke peer bytes session envelope cell audience nextAudience queued found here about captured =>
      exact ⟨[lineOf { envelope, senderCell := some cell, audience }], by simp [Serves, lines], rfl⟩
  | @joined peer bytes base middle numbered player identityHash name generation reply vacant frame posts superseded
      numbering =>
      have chat : base.chatFanout = server.chatFanout := (congrArg Server.chatFanout frame :)
      have turn : base.fanoutPreferClock = server.fanoutPreferClock := (congrArg Server.fanoutPreferClock frame :)
      have count : base.nextSessionGeneration = server.nextSessionGeneration :=
        (congrArg Server.nextSessionGeneration frame :)
      rw [← count] at room
      cases superseded with
      | absent unowned =>
          cases numbering with
          | counted _ => exact still chat turn
          | renumbered spent => exact absurd spent room
      | evicted owned found own addrs =>
          cases numbering with
          | counted _ => exact still chat turn
          | renumbered spent => exact absurd spent room
  | left found => exact still rfl rfl

/-- In one stage lines come in at the end and leave at the front, and a call pays for its turn. -/
theorem stage_serves (inv : Inv pending stage.before) (bounded : Bounded stage.before) (lawful : stage.Lawful)
    (room : stage.before.nextSessionGeneration ≠ maxU64) :
    ∃ queued done, Serves (lines stage.before) queued done (lines stage.after) ∧ done.length = linesDone stage ∧
      (lines stage.before ≠ [] → (if isFanout stage then 1 else 0) + clockTurn stage.after ≤
        2 * linesDone stage + clockTurn stage.before) := by
  obtain ⟨before, action, after, rfl, move⟩ := lawful_move inv lawful
  -- the stages that serve nothing
  have idle : (∀ tick, action = .tick tick → tick ≠ .fanout) →
      (∃ queued, Serves (lines before) queued [] (lines after) ∧ clockTurn after = clockTurn before) →
      ∃ queued done, Serves (lines before) queued done (lines after) ∧ done.length = linesDone ⟨before, action, after⟩ ∧
        (lines before ≠ [] → (if isFanout ⟨before, action, after⟩ then 1 else 0) + clockTurn after ≤
          2 * linesDone ⟨before, action, after⟩ + clockTurn before) := by
    rintro other ⟨queued, serves, turn⟩
    have quiet : isFanout ⟨before, action, after⟩ = false ∧ linesDone ⟨before, action, after⟩ = 0 := by
      cases action with
      | tick tick =>
          cases tick with
          | fanout => exact absurd rfl (other _ rfl)
          | _ => exact ⟨rfl, rfl⟩
      | _ => exact ⟨rfl, rfl⟩
    refine ⟨queued, [], serves, by rw [quiet.2]; rfl, fun _ => ?_⟩
    rw [quiet.1, quiet.2, turn]
    simp
  have same : after.chatFanout = before.chatFanout → after.fanoutPreferClock = before.fanoutPreferClock →
      ∃ queued, Serves (lines before) queued [] (lines after) ∧ clockTurn after = clockTurn before := by
    intro chat turn
    exact ⟨[], by simp [Serves, lines, chat], by simp only [clockTurn, turn]⟩
  cases move with
  | poll host => exact idle (by simp) (same rfl rfl)
  | handle outcome => exact idle (by simp) (outcome_lines outcome room)
  | tick tick =>
      cases tick with
      | fanout =>
          obtain ⟨done, serves, counted⟩ := fanoutRun_lines (processFanoutWork_run before)
          exact ⟨[], done, serves, counted, fun waiting => fanout_paid bounded waiting⟩
      | aoi fails =>
          have frame := (processAoiWork_effect before fails).frame
          exact idle (by simp) (same (congrArg Server.chatFanout frame :) (congrArg Server.fanoutPreferClock frame :))
      | snapshots =>
          have frame := (broadcastSnapshots_effect before).frame
          exact idle (by simp) (same (congrArg Server.chatFanout frame :) (congrArg Server.fanoutPreferClock frame :))
      | dirtyFlush fails now =>
          have frame := (processDirtyFlushAt_effect before fails now).frame
          exact idle (by simp) (same (congrArg Server.chatFanout frame :) (congrArg Server.fanoutPreferClock frame :))
      | beginFlush => exact idle (by simp) (same rfl rfl)
      | clock clockMs =>
          have frame := broadcastClock_frame before clockMs
          exact idle (by simp) (same (congrArg Server.chatFanout frame :) (congrArg Server.fanoutPreferClock frame :))

def linesDoneIn (trace : List (Stage F)) : Nat := (trace.map linesDone).sum

def fanoutCalls (trace : List (Stage F)) : Nat := trace.countP isFanout

/-- Until the lines of `started` are gone, every two calls end one of them. -/
theorem run_serves {early later : List (Stage F)} (run : Run db (early ++ later) server pending)
    (begins : Begins started later server) (room : ∀ stage ∈ later, stage.before.nextSessionGeneration ≠ maxU64) :
    ∃ queued done, Serves (lines started) queued done (lines server) ∧ done.length = linesDoneIn later ∧
      ((lines started).length ≤ done.length ∨
        fanoutCalls later + clockTurn server ≤ 2 * done.length + clockTurn started) := by
  induction later using List.reverseRecOn generalizing server pending with
  | nil =>
      cases Option.some.inj begins
      exact ⟨[], [], by simp [Serves], rfl, Or.inr (by simp [fanoutCalls])⟩
  | append_singleton later stage ih =>
      rw [← List.append_assoc] at run
      obtain ⟨⟨waiting, earlier⟩, lawful, rfl⟩ := run.unsnoc
      obtain ⟨queued, done, serves, counted, paid⟩ := ih earlier (begins_snoc.mp begins)
        fun stage member => room stage (List.mem_append_left _ member)
      obtain ⟨more, further, next, fell, price⟩ := stage_serves earlier.inv (reachable_bounded earlier.reachable) lawful
        (room stage (by simp))
      refine ⟨queued ++ more, done ++ further, serves.trans next, ?_, ?_⟩
      · rw [List.length_append, counted, fell, linesDoneIn, linesDoneIn, List.map_append, List.sum_append]
        simp
      · rw [List.length_append]
        rcases paid with gone | paid
        · exact Or.inl (by omega)
        by_cases empty : lines stage.before = []
        · -- nothing waits, so all of `started` is gone
          left
          have whole := congrArg List.length serves
          rw [empty, List.append_nil, List.length_append] at whole
          omega
        · right
          have cost := price empty
          have calls : fanoutCalls (later ++ [stage]) = fanoutCalls later + if isFanout stage then 1 else 0 := by
            rw [fanoutCalls, List.countP_append, List.countP_singleton, fanoutCalls]
          rw [calls, fell]
          omega

/-- However often the clock is broadcast and whatever else is said meanwhile, chat lines leave in the order they came,
and one with `ahead` lines before it has left after `2 * ahead + 2` calls. -/
theorem chat_latency {early later : List (Stage F)} (run : Run db (early ++ later) server pending)
    (begins : Begins started later server) (room : ∀ stage ∈ later, stage.before.nextSessionGeneration ≠ maxU64) :
    ∃ queued done, Serves (lines started) queued done (lines server) ∧ done.length = linesDoneIn later ∧
      ∀ ahead, ahead < (lines started).length → 2 * ahead + 2 ≤ fanoutCalls later → ahead < done.length := by
  obtain ⟨queued, done, serves, counted, paid⟩ := run_serves run begins room
  refine ⟨queued, done, serves, counted, ?_⟩
  intro ahead waiting called
  have turn := clockTurn_le started
  omega

end Runs

/-! Two lines wait, and the clock is broadcast before each call. -/
section Chatter
open Persistence

local instance chatterCodec : Codec Int where
  encode _ := []
  decode bytes :=
    if bytes = [1] then some (.hello (helloOf "first"))
    else if bytes = [2] then some (.hello (helloOf "second"))
    else if bytes = [3] then some (.chat ⟨some "ahoy", 0⟩)
    else none

def chatterScript : List SocketTurn := joinScript ++ [datagramFrom 1 [0, 3], datagramFrom 1 [0, 3]]

def chatterEvents : List Event := joinEvents ++ [.data 1 [3], .data 1 [3]]

def chatterServer : Server Int := handleAll (scriptedServer chatterScript) 1000 chatterEvents

def calledTwice (server : Server Int) : Server Int :=
  Tick.fanout.run ((Tick.clock 7).run (Tick.fanout.run ((Tick.clock 6).run server)))

def callStages (server : Server Int) : List (Stage Int) :=
  let clocked := (Tick.clock 6).run server
  let called := Tick.fanout.run clocked
  let again := (Tick.clock 7).run called
  [⟨server, .tick (.clock 6), clocked⟩, ⟨clocked, .tick .fanout, called⟩, ⟨called, .tick (.clock 7), again⟩,
    ⟨again, .tick .fanout, Tick.fanout.run again⟩]

theorem calledTwice_run {db : Db Int} {trace : List (Stage Int)} {server : Server Int} (run : Run db trace server []) :
    Run db (trace ++ callStages server) (calledTwice server) [] := by
  have first : Run db _ (Tick.fanout.run ((Tick.clock 6).run server)) [] := .tick .fanout (.tick (.clock 6) run)
  have second : Run db _ (calledTwice server) [] := .tick .fanout (.tick (.clock 7) first)
  simpa only [callStages, List.append_assoc, List.cons_append, List.nil_append] using second

theorem chat_latency_chatter : (lines chatterServer).length = 2 ∧ 1 ≤ linesDoneIn (callStages chatterServer) := by
  have waiting : Run emptyDb _ (scriptedServer chatterScript) (chatterEvents ++ []) :=
    scripted_run chatterScript (by decide +kernel)
  have chatted : Run emptyDb _ chatterServer [] := handleAll_run chatterEvents 1000 waiting
  have length : (lines chatterServer).length = 2 := by decide +kernel
  have run := calledTwice_run chatted
  have room : ∀ stage ∈ callStages chatterServer, stage.before.nextSessionGeneration ≠ maxU64 := by decide +kernel
  obtain ⟨queued, done, -, counted, left⟩ := chat_latency run rfl room
  have gone : 0 < done.length := left 0 (by rw [length]; decide) (by decide)
  exact ⟨length, counted ▸ gone⟩

end Chatter
end SailwindOnline.ChatLatency
