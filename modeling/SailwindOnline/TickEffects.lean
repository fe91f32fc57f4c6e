import SailwindOnline.Effects
import SailwindOnline.Traces

/-!
Everything the fixed-tick work can do to a server, said once. Each kind of work
reaches its own fields of the server and of the sessions, and sends messages on
its own topics; the rest is framed.
-/

namespace SailwindOnline.TickEffects
open World (Cell)
open Server SessionIndex Persistence PlayerTable Effects

section Frames
variable {F : Type} [Platform F] {rest : Server F → Server F} {view : Session F → Session F}
  {topics : List Topic} {server middle after : Server F}

/-- `after` differs from `server` only where `rest` and `view` do not look, and in new datagrams. -/
structure Touches (rest : Server F → Server F) (view : Session F → Session F) (topics : List Topic)
    (server after : Server F) : Prop where
  frame : rest after = rest server
  sessions : ∀ peer, (after.sessions.get? peer).map view = (server.sessions.get? peer).map view
  posts : Posts topics server after

namespace Touches

theorem refl (server : Server F) : Touches rest view topics server server :=
  ⟨rfl, fun _ => rfl, posts_of_sent_eq rfl⟩

theorem trans (first : Touches rest view topics server middle) (second : Touches rest view topics middle after) :
    Touches rest view topics server after :=
  ⟨second.frame.trans first.frame, fun peer => (second.sessions peer).trans (first.sessions peer),
    first.posts.trans second.posts⟩

theorem foldl {Item : Type} {step : Server F → Item → Server F}
    (each : ∀ server item, Touches rest view topics server (step server item)) (items : List Item)
    (server : Server F) : Touches rest view topics server (items.foldl step server) := by
  induction items generalizing server with
  | nil => exact .refl server
  | cons item later ih => exact (each server item).trans (ih _)

theorem modifySession (peer : PeerId) (change : Session F → Session F)
    (hidden : rest (server.modifySession peer change) = rest server)
    (kept : ∀ session, view (change session) = view session) :
    Touches rest view topics server (server.modifySession peer change) := by
  refine ⟨hidden, ?_, posts_of_sent_eq rfl⟩
  intro other
  simp only [Server.modifySession, FiniteMap.get?_modify]
  split <;> rename_i own
  · rw [own, Option.map_map]
    congr 1
    funext session
    exact kept session
  · rfl

theorem postBounded [Codec F] (peer : PeerId) {payload : ServerMessage F}
    (hidden : ∀ seq sent, rest { server with seq, sent } = rest server)
    (about : topicOf payload ∈ topics) :
    Touches rest view topics server (server.postBounded peer payload).1 := by
  refine ⟨?_, ?_, posts_postBounded server peer about⟩ <;> unfold Server.postBounded <;> split
  · exact hidden _ _
  · exact hidden _ _
  · exact fun _ => rfl
  · exact fun _ => rfl

end Touches
end Frames

/-! Snapshots. -/
section Snapshots
variable {F : Type} [Platform F] [Codec F]

def snapshotFrame (server : Server F) : Server F :=
  { server with
    sessions := FiniteMap.empty
    snapshotTick := 0
    snapshotRecipientCursor := none
    seq := 0
    sent := [] }

def withoutSnapshots (session : Session F) : Session F :=
  { session with snapshotCursor := none, snapshotRemaining := 0, snapshotLastVisitTick := 0 }

abbrev SnapshotEffect (server after : Server F) : Prop :=
  Touches snapshotFrame withoutSnapshots [.snapshot] server after

theorem sendSnapshot_effect (server : Server F) (peer : PeerId) (sessions : List (Session F)) :
    SnapshotEffect server (server.sendSnapshot peer sessions) := by
  unfold sendSnapshot
  split
  · exact .refl _
  · exact .postBounded _ (fun _ _ => rfl) (by simp [topicOf])

theorem visitSnapshotRecipient_effect (server : Server F) (peer : PeerId) :
    SnapshotEffect server (server.visitSnapshotRecipient peer) := by
  have visited : SnapshotEffect server (server.modifySession peer (visitedAt server.snapshotTick)) :=
    .modifySession _ _ rfl fun _ => rfl
  have aimed : ∀ (server : Server F) cursor remaining,
      SnapshotEffect server (server.modifySession peer (withSnapshotCursor cursor remaining)) :=
    fun _ _ _ => .modifySession _ _ rfl fun _ => rfl
  unfold visitSnapshotRecipient
  split
  · exact .refl server
  split
  · exact .refl server
  split
  · exact .refl server
  simp only
  split
  · exact visited.trans (aimed _ _ _)
  · exact (visited.trans (aimed _ _ _)).trans (sendSnapshot_effect _ _ _)

theorem broadcastSnapshots_effect (server : Server F) : SnapshotEffect server server.broadcastSnapshots := by
  unfold broadcastSnapshots
  refine Touches.trans ?_ (Touches.foldl visitSnapshotRecipient_effect _ _)
  exact ⟨rfl, fun _ => rfl, posts_of_sent_eq rfl⟩

end Snapshots

/-! Interest and hydration. -/
section Interest
variable {F : Type} [Platform F] [Codec F]

def aoiFrame (server : Server F) : Server F :=
  { server with
    sessions := FiniteMap.empty
    aoiRecipients := ∅
    aoiRecipientCursor := none
    seq := 0
    sent := [] }

def withoutInterest (session : Session F) : Session F :=
  { session with publishedCells := ∅, hydrationCells := ∅, hydrationCursor := none, activeHydration := none }

abbrev AoiEffect (server after : Server F) : Prop :=
  Touches aoiFrame withoutInterest [.interest, .cell] server after

omit [Codec F] in
theorem nextAoiChunk_effect (server : Server F) (peer : PeerId) :
    AoiEffect server (server.nextAoiChunk peer).1 := by
  unfold nextAoiChunk
  split
  · exact .refl server
  simp only
  split
  · exact .refl server
  · exact .modifySession _ _ rfl fun _ => rfl

omit [Codec F] in
theorem prepareCellHydration_effect (server : Server F) (peer : PeerId) :
    AoiEffect server (server.prepareCellHydration peer).1 := by
  unfold prepareCellHydration
  cases found : server.sessions.get? peer with
  | none => exact .refl server
  | some session =>
      refine ⟨rfl, ?_, posts_of_sent_eq rfl⟩
      intro other
      simp only [Server.modifySession, FiniteMap.get?_modify]
      split <;> rename_i own
      · rw [own, found, Option.map_some, Option.map_some, Option.map_some]
        unfold prepareHydration
        split
        · rfl
        · split <;> rfl
      · rfl

theorem sendCellSnapshot_effect (server : Server F) (peer : PeerId) (cell : Cell)
    (sessions : List (Session F)) (moorings : List (MooringSnap F)) :
    AoiEffect server (server.sendCellSnapshot peer cell sessions moorings) := by
  have posted : AoiEffect server (server.postBounded peer
      (.cellSnapshot cell (playerSnaps sessions) (boatSnaps sessions) moorings)).1 :=
    .postBounded _ (fun _ _ => rfl) (by simp [topicOf])
  unfold sendCellSnapshot
  split <;> rename_i sending
  · rw [sending] at posted
    exact posted
  · rw [sending] at posted
    exact posted.trans (.modifySession _ _ rfl fun _ => rfl)

theorem processOneAoiWork_effect (server : Server F) (peer : PeerId) (fails : Bool) :
    AoiEffect server (server.processOneAoiWork peer fails).1 := by
  have chunked := nextAoiChunk_effect server peer
  have hydrated : ∀ (server : Server F) change, AoiEffect server (server.modifyHydration peer change) :=
    fun _ _ => .modifySession _ _ rfl fun _ => rfl
  unfold processOneAoiWork
  split <;> rename_i chunking
  · rw [chunking] at chunked
    exact chunked.trans (.postBounded _ (fun _ _ => rfl) (by simp [topicOf]))
  · rename_i settled
    rw [chunking] at chunked
    have prepared := prepareCellHydration_effect settled peer
    refine chunked.trans ?_
    split <;> rename_i preparing <;> rw [preparing] at prepared
    · exact prepared
    refine prepared.trans ?_
    split
    · unfold hydratePlayers
      simp only
      split
      · exact hydrated _ _
      · exact Touches.trans (hydrated _ _) (sendCellSnapshot_effect _ _ _ _ _)
    split
    · exact .refl _
    · unfold completeHydration
      refine Touches.trans ?_ (.modifySession peer _ rfl fun _ => rfl)
      split
      · exact .refl _
      · exact .postBounded _ (fun _ _ => rfl) (by simp [topicOf])
    · unfold hydrateMooring
      simp only
      split
      · exact Touches.trans (hydrated _ _) (sendCellSnapshot_effect _ _ _ _ _)
      · exact hydrated _ _

theorem serveAoiRecipient_effect (fails : PeerId → Bool) (server : Server F) (peer : PeerId) :
    AoiEffect server (serveAoiRecipient fails server peer) := by
  have taken : AoiEffect server { server with aoiRecipients := server.aoiRecipients.erase peer } :=
    ⟨rfl, fun _ => rfl, posts_of_sent_eq rfl⟩
  have worked := processOneAoiWork_effect
    { server with aoiRecipients := server.aoiRecipients.erase peer } peer (fails peer)
  unfold serveAoiRecipient
  refine taken.trans ?_
  simp only
  split
  · exact .refl _
  split
  · refine worked.trans ?_
    unfold scheduleAoi
    split
    · exact ⟨rfl, fun _ => rfl, posts_of_sent_eq rfl⟩
    · exact .refl _
  · exact worked

theorem processAoiWork_effect (server : Server F) (fails : PeerId → Bool) :
    AoiEffect server (server.processAoiWork fails) := by
  unfold processAoiWork
  refine Touches.trans ?_ (Touches.foldl (serveAoiRecipient_effect fails) _ _)
  exact ⟨rfl, fun _ => rfl, posts_of_sent_eq rfl⟩

end Interest

/-! Fanout, one examined recipient or one finished job at a time. -/
section Fanout
variable {F : Type} [Platform F] [Codec F]

inductive FanoutNote where
  | examined (fromClock : Bool) (recipient : FanoutRecipient) (delivered : Bool)
  | finished (fromClock : Bool)

/-- The job in hand is counted as the first of its queue. -/
inductive FanoutStep (server : Server F) : FanoutNote → Server F → Prop
  | examined {taken : Server F} {fromClock : Bool} {job : FanoutJob F} {recipient : FanoutRecipient}
      (inHand : server = taken.returnFanoutJob fromClock job)
      (next : job.audience.recipients[job.nextRecipient]? = some recipient) :
      FanoutStep server (.examined fromClock recipient (taken.shouldSend job recipient))
        (({ taken with
            sent := if taken.shouldSend job recipient then taken.sent ++ [(recipient.peer, job.envelope)]
              else taken.sent }).returnFanoutJob fromClock { job with nextRecipient := job.nextRecipient + 1 })
  | finished {taken : Server F} {fromClock : Bool} {job : FanoutJob F}
      (inHand : server = taken.returnFanoutJob fromClock job)
      (only : fromClock = true → taken.clockFanout = none)
      (complete : job.nextRecipient = job.audience.recipients.length) :
      FanoutStep server (.finished fromClock) (taken.finishFanoutJob fromClock job)

inductive FanoutRun : Server F → List FanoutNote → Server F → Prop
  | done {server : Server F} : FanoutRun server [] server
  | step {server middle after : Server F} {note : FanoutNote} {notes : List FanoutNote}
      (first : FanoutStep server note middle) (later : FanoutRun middle notes after) :
      FanoutRun server (note :: notes) after

theorem FanoutRun.trans {server middle after : Server F} {early late : List FanoutNote}
    (first : FanoutRun server early middle) (second : FanoutRun middle late after) :
    FanoutRun server (early ++ late) after := by
  induction first with
  | done => exact second
  | step head _ ih => exact .step head (ih second)

/-- What `fanoutRecipients` examines. -/
def recipientNotes (server : Server F) (fromClock : Bool) (job : FanoutJob F) :
    List FanoutRecipient → FanoutBudget → List FanoutNote
  | [], _ => []
  | recipient :: rest, budget =>
    if budget.scans = 0 ∨ budget.sends = 0 then []
    else
      .examined fromClock recipient (server.shouldSend job recipient) ::
        recipientNotes server fromClock job rest
          { scans := budget.scans - 1
            sends := if server.shouldSend job recipient then budget.sends - 1 else budget.sends }

/-- What `fanoutTurns` examines and finishes. -/
def turnNotes : Nat → Server F → FanoutBudget → List FanoutNote
  | 0, _, _ => []
  | turns + 1, server, budget =>
    if budget.scans = 0 ∨ budget.sends = 0 then []
    else
      let fromClock := server.clockFanout.isSome && (server.fanoutPreferClock || server.chatFanout.isEmpty)
      match server.takeFanoutJob fromClock with
      | (_, none) => []
      | (server, some job) =>
        recipientNotes server fromClock job (job.audience.recipients.drop job.nextRecipient) budget ++
          match server.fanoutRecipients job (job.audience.recipients.drop job.nextRecipient) budget with
          | (server, job, budget) =>
            if job.nextRecipient = job.audience.recipients.length then
              .finished fromClock :: turnNotes turns (server.finishFanoutJob fromClock job) budget
            else []

def fanoutNotes (server : Server F) : List FanoutNote :=
  turnNotes (server.chatFanout.length + 3) server
    { scans := fanoutRecipientScansPerTick, sends := fanoutSendsPerTick }

omit [Codec F] in
theorem recipientNotes_congr (server other : Server F) (job later : FanoutJob F) (fromClock : Bool)
    (rest : List FanoutRecipient) (budget : FanoutBudget)
    (same : ∀ recipient, other.shouldSend later recipient = server.shouldSend job recipient) :
    recipientNotes server fromClock job rest budget = recipientNotes other fromClock later rest budget := by
  induction rest generalizing budget with
  | nil => rfl
  | cons recipient rest ih =>
      unfold recipientNotes
      rw [same, ih]

theorem fanoutRecipients_run (fromClock : Bool) (rest : List FanoutRecipient) (server : Server F)
    (job : FanoutJob F) (budget : FanoutBudget) (aligned : job.audience.recipients.drop job.nextRecipient = rest) :
    FanoutRun (server.returnFanoutJob fromClock job) (recipientNotes server fromClock job rest budget)
      ((server.fanoutRecipients job rest budget).1.returnFanoutJob fromClock
        (server.fanoutRecipients job rest budget).2.1) := by
  induction rest generalizing server job budget with
  | nil => exact .done
  | cons recipient rest ih =>
      have next : job.audience.recipients[job.nextRecipient]? = some recipient := by
        rw [← List.head?_drop, aligned]
        rfl
      have later : job.audience.recipients.drop (job.nextRecipient + 1) = rest := by
        rw [← List.tail_drop, aligned]
        rfl
      unfold fanoutRecipients recipientNotes
      split
      · exact .done
      · have first : FanoutStep (server.returnFanoutJob fromClock job) _ _ := .examined rfl next
        refine .step first ?_
        cases wanted : server.shouldSend job recipient with
        | true =>
            have moved : server.shouldSend { job with nextRecipient := job.nextRecipient + 1 } recipient =
                true := wanted
            simp only [moved, if_true]
            rw [recipientNotes_congr server
              { server with sent := server.sent ++ [(recipient.peer, job.envelope)] } job
              { job with nextRecipient := job.nextRecipient + 1 } fromClock rest _ fun _ => rfl]
            exact ih _ _ _ later
        | false =>
            have moved : server.shouldSend { job with nextRecipient := job.nextRecipient + 1 } recipient =
                false := wanted
            simp only [moved, Bool.false_eq_true, if_false]
            rw [recipientNotes_congr server server job
              { job with nextRecipient := job.nextRecipient + 1 } fromClock rest _ fun _ => rfl]
            exact ih _ _ _ later

omit [Codec F] in
theorem fanoutRecipients_clock (rest : List FanoutRecipient) (server : Server F) (job : FanoutJob F)
    (budget : FanoutBudget) : (server.fanoutRecipients job rest budget).1.clockFanout = server.clockFanout := by
  induction rest generalizing server job budget with
  | nil => rfl
  | cons recipient rest ih =>
      unfold fanoutRecipients
      split
      · rfl
      · simp only
        split <;> rw [ih]

omit [Codec F] in
theorem takeFanoutJob_only {server taken : Server F} {fromClock : Bool} {held : Option (FanoutJob F)}
    (took : server.takeFanoutJob fromClock = (taken, held)) : fromClock = true → taken.clockFanout = none := by
  rintro rfl
  unfold takeFanoutJob at took
  simp only [if_true, Prod.mk.injEq] at took
  rw [← took.1]

omit [Codec F] in
theorem takeFanoutJob_some {server taken : Server F} {fromClock : Bool} {job : FanoutJob F}
    (took : server.takeFanoutJob fromClock = (taken, some job)) :
    server = taken.returnFanoutJob fromClock job := by
  unfold takeFanoutJob at took
  unfold returnFanoutJob
  cases fromClock with
  | true =>
      simp only [if_true, Prod.mk.injEq] at took ⊢
      obtain ⟨rfl, held⟩ := took
      simp [← held]
  | false =>
      simp only [Bool.false_eq_true, if_false, Prod.mk.injEq] at took ⊢
      obtain ⟨rfl, held⟩ := took
      cases queue : server.chatFanout with
      | nil => simp [queue] at held
      | cons head rest =>
          rw [queue, List.head?_cons, Option.some.injEq] at held
          subst held
          have back : server = { server with chatFanout := head :: rest } := by
            rw [← queue]
          exact back

omit [Codec F] in
/-- The queue that is preferred is never the empty one while the other holds a job. -/
theorem takeFanoutJob_none {server taken : Server F}
    (took : server.takeFanoutJob (server.clockFanout.isSome &&
      (server.fanoutPreferClock || server.chatFanout.isEmpty)) = (taken, none)) :
    server.clockFanout = none ∧ server.chatFanout = [] ∧ taken = server := by
  unfold takeFanoutJob at took
  cases clock : server.clockFanout with
  | some job =>
      cases chat : server.chatFanout with
      | nil => simp [clock, chat] at took
      | cons head rest => cases prefer : server.fanoutPreferClock <;> simp [clock, chat, prefer] at took
  | none =>
      cases chat : server.chatFanout with
      | nil =>
          simp only [clock, chat, Option.isSome_none, Bool.false_and, Bool.false_eq_true, if_false,
            List.tail_nil, Prod.mk.injEq] at took
          refine ⟨rfl, rfl, took.1.symm.trans ?_⟩
          rw [← clock, ← chat]
      | cons head rest => simp [clock, chat] at took

/-- One call of the fanout is a run of single steps, with the notes it leaves. -/
theorem fanoutTurns_run (turns : Nat) (server : Server F) (budget : FanoutBudget) :
    FanoutRun server (turnNotes turns server budget) (fanoutTurns turns server budget) := by
  induction turns generalizing server budget with
  | zero => exact .done
  | succ turns ih =>
      unfold fanoutTurns turnNotes
      split
      · exact .done
      dsimp only
      rcases took : server.takeFanoutJob
        (server.clockFanout.isSome && (server.fanoutPreferClock || server.chatFanout.isEmpty)) with ⟨taken, _ | job⟩
      · obtain ⟨clock, chat, same⟩ := takeFanoutJob_none took
        subst same
        simp only [clock, chat, Option.isNone_none, List.isEmpty_nil, Bool.and_self, if_true]
        exact .done
      · have back := takeFanoutJob_some took
        have examined := fanoutRecipients_run
          (server.clockFanout.isSome && (server.fanoutPreferClock || server.chatFanout.isEmpty)) _
          taken job budget rfl
        rw [← back] at examined
        dsimp only
        refine examined.trans ?_
        split
        · rename_i complete
          refine .step (.finished rfl (fun clocked => ?_) complete) (ih _ _)
          rw [fanoutRecipients_clock]
          exact takeFanoutJob_only took clocked
        · exact .done

omit [Codec F] in
theorem fanoutRecipients_chat (rest : List FanoutRecipient) (server : Server F) (job : FanoutJob F)
    (budget : FanoutBudget) : (server.fanoutRecipients job rest budget).1.chatFanout = server.chatFanout := by
  induction rest generalizing server job budget with
  | nil => rfl
  | cons recipient rest ih =>
      unfold fanoutRecipients
      split
      · rfl
      · simp only
        split <;> rw [ih]

/-- The jobs a tick could still take up. -/
def jobsWaiting (server : Server F) : Nat := server.chatFanout.length + server.clockFanout.toList.length

omit [Codec F] in
theorem jobsWaiting_take {server taken : Server F} {fromClock : Bool} {job : FanoutJob F}
    (took : server.takeFanoutJob fromClock = (taken, some job)) : jobsWaiting server = jobsWaiting taken + 1 := by
  unfold takeFanoutJob at took
  cases fromClock with
  | true =>
      simp only [if_true, Prod.mk.injEq] at took
      obtain ⟨rfl, held⟩ := took
      simp [jobsWaiting, held]
  | false =>
      simp only [Bool.false_eq_true, if_false, Prod.mk.injEq] at took
      obtain ⟨rfl, held⟩ := took
      obtain ⟨rest, queue⟩ := List.head?_eq_some_iff.mp held
      simp only [jobsWaiting, queue, List.tail_cons, List.length_cons]
      omega

/-- Turns never run out: a tick ends for want of jobs or of budget. -/
theorem fanoutTurns_enough {turns : Nat} {server : Server F} (budget : FanoutBudget)
    (enough : jobsWaiting server < turns) :
    fanoutTurns (turns + 1) server budget = fanoutTurns turns server budget := by
  induction turns generalizing server budget with
  | zero => omega
  | succ turns ih =>
      rw [fanoutTurns, fanoutTurns.eq_def (turns + 1)]
      simp only
      split
      · rfl
      split <;> rename_i taken took
      · obtain ⟨clock, chat, same⟩ := takeFanoutJob_none took
        subst same
        simp [clock, chat]
      · rename_i job
        have fewer := jobsWaiting_take took
        split
        · refine ih _ ?_
          have same : ∀ (server : Server F) (fromClock : Bool) (job : FanoutJob F),
              jobsWaiting (server.finishFanoutJob fromClock job) = jobsWaiting server := by
            intro server fromClock job
            cases fromClock <;> rfl
          rw [same]
          simp only [jobsWaiting, fanoutRecipients_chat, fanoutRecipients_clock] at fewer ⊢
          simp only [jobsWaiting] at enough
          omega
        · rfl

theorem processFanoutWork_run (server : Server F) :
    FanoutRun server (fanoutNotes server) server.processFanoutWork :=
  fanoutTurns_run _ _ _

def fanoutFrame (server : Server F) : Server F :=
  { server with
    chatFanout := []
    chatFanoutBytes := 0
    clockFanout := none
    fanoutPreferClock := true
    sent := [] }

theorem FanoutStep.frame {server after : Server F} {note : FanoutNote} (step : FanoutStep server note after) :
    fanoutFrame after = fanoutFrame server := by
  cases step with
  | @examined taken fromClock job recipient inHand next =>
      subst inHand
      cases fromClock <;> rfl
  | @finished taken fromClock job inHand only complete =>
      subst inHand
      cases fromClock <;> rfl

theorem FanoutRun.frame {server after : Server F} {notes : List FanoutNote}
    (run : FanoutRun server notes after) : fanoutFrame after = fanoutFrame server := by
  induction run with
  | done => rfl
  | step first _ ih => exact ih.trans first.frame

omit [Codec F] in
theorem returnFanoutJob_jobs (server : Server F) (fromClock : Bool) (job : FanoutJob F) :
    job ∈ (server.returnFanoutJob fromClock job).chatFanout ∨
      (server.returnFanoutJob fromClock job).clockFanout = some job := by
  cases fromClock with
  | true => exact Or.inr rfl
  | false => exact Or.inl (List.mem_cons_self ..)

/-- Every queued job is `good`. -/
def EveryJob (good : FanoutJob F → Prop) (server : Server F) : Prop :=
  (∀ job ∈ server.chatFanout, good job) ∧ ∀ job, server.clockFanout = some job → good job

/-- Every queued job carries a message on one of `topics`. -/
def JobsAbout (topics : List Topic) (server : Server F) : Prop :=
  (∀ job ∈ server.chatFanout, topicOf job.envelope.payload ∈ topics) ∧
    ∀ job, server.clockFanout = some job → topicOf job.envelope.payload ∈ topics

omit [Codec F] in
theorem EveryJob.of_same {good : FanoutJob F → Prop} {server after : Server F} (every : EveryJob good server)
    (chat : after.chatFanout = server.chatFanout) (clock : after.clockFanout = server.clockFanout) :
    EveryJob good after :=
  ⟨chat ▸ every.1, clock ▸ every.2⟩

/-- Examining a recipient only moves a job on, and a finished job leaves its queue. -/
theorem FanoutStep.everyJob {good : FanoutJob F → Prop} {server after : Server F} {note : FanoutNote}
    (advances : ∀ job next, good job → good { job with nextRecipient := next })
    (step : FanoutStep server note after) (every : EveryJob good server) : EveryJob good after := by
  cases step with
  | @examined taken fromClock job recipient inHand next =>
      subst inHand
      have own : good job := (returnFanoutJob_jobs taken fromClock job).elim (every.1 job) (every.2 job)
      cases fromClock with
      | true => exact ⟨every.1, by rintro _ ⟨⟩; exact advances job _ own⟩
      | false =>
          refine ⟨?_, every.2⟩
          intro other member
          rcases List.mem_cons.mp member with rfl | later
          · exact advances job _ own
          · exact every.1 other (List.mem_cons_of_mem _ later)
  | @finished taken fromClock job inHand only complete =>
      subst inHand
      cases fromClock with
      | true =>
          refine ⟨every.1, ?_⟩
          intro other held
          have none_left : taken.clockFanout = some other := held
          rw [only rfl] at none_left
          cases none_left
      | false => exact ⟨fun other member => every.1 other (List.mem_cons_of_mem _ member), every.2⟩

theorem FanoutRun.everyJob {good : FanoutJob F → Prop} {server after : Server F} {notes : List FanoutNote}
    (advances : ∀ job next, good job → good { job with nextRecipient := next })
    (run : FanoutRun server notes after) (every : EveryJob good server) : EveryJob good after := by
  induction run with
  | done => exact every
  | step first _ ih => exact ih (first.everyJob advances every)

theorem FanoutStep.posts {topics : List Topic} {server after : Server F} {note : FanoutNote}
    (step : FanoutStep server note after) (about : JobsAbout topics server) : Posts topics server after := by
  cases step with
  | @examined taken fromClock job recipient inHand next =>
      subst inHand
      have own : topicOf job.envelope.payload ∈ topics :=
        (returnFanoutJob_jobs taken fromClock job).elim (about.1 job) (about.2 job)
      cases fromClock <;> cases taken.shouldSend job recipient
      · exact posts_of_sent_eq rfl
      · exact ⟨[(recipient.peer, job.envelope)], rfl, by simpa using own⟩
      · exact posts_of_sent_eq rfl
      · exact ⟨[(recipient.peer, job.envelope)], rfl, by simpa using own⟩
  | @finished taken fromClock job inHand only complete =>
      subst inHand
      cases fromClock <;> exact posts_of_sent_eq rfl

theorem FanoutRun.posts {topics : List Topic} {server after : Server F} {notes : List FanoutNote}
    (run : FanoutRun server notes after) (about : JobsAbout topics server) :
    Posts topics server after ∧ JobsAbout topics after := by
  induction run with
  | done => exact ⟨posts_of_sent_eq rfl, about⟩
  | step first _ ih =>
      have still := first.everyJob (fun _ _ => id) about
      exact ⟨(first.posts about).trans (ih still).1, (ih still).2⟩

/-- A clock tick replaces the clock job, or drops it when no audience is captured. -/
inductive ClockEffect (server : Server F) : Server F → Prop
  | skipped : ClockEffect server { server with seq := server.seq + 1, clockFanout := none }
  | queued {envelope : Envelope F} {audience : Audience} {nextAudience : Nat}
      (about : topicOf envelope.payload = .clock) (captured : CapturedFrom server audience) :
      ClockEffect server
        { server with
          seq := server.seq + 1
          fanoutAudienceCache := some audience
          nextAudience
          clockFanout := some { envelope, senderCell := none, audience } }

omit [Codec F] in
theorem broadcastClock_effect (server : Server F) (clockMs : Int64) :
    ClockEffect server (server.broadcastClock clockMs) := by
  unfold broadcastClock
  rcases captureFanoutRecipients_spec { server with seq := server.seq + 1, clockFanout := none } with
    nobody | ⟨audience, nextAudience, source, captured⟩
  · simp only [nobody]
    exact .skipped
  · simp only [captured]
    exact .queued rfl source

/-- All but the queued clock, its sequence number and the audience it may capture. -/
def clockFrame (server : Server F) : Server F :=
  { server with
    seq := 0
    clockFanout := none
    fanoutAudienceCache := none
    nextAudience := 0 }

omit [Codec F] in
theorem broadcastClock_frame (server : Server F) (clockMs : Int64) :
    clockFrame (server.broadcastClock clockMs) = clockFrame server := by
  have effect := broadcastClock_effect server clockMs
  generalize server.broadcastClock clockMs = after at effect ⊢
  cases effect <;> rfl

end Fanout

/-! The dirty flush. -/
section Flush
variable {F : Type} [Platform F]

def flushFrame (server : Server F) : Server F :=
  { server with
    db := ⟨[], 0, [], FiniteMap.empty, [], []⟩
    sessions := FiniteMap.empty
    flushPlayers := ∅
    flushPaused := false }

def withoutDirty (session : Session F) : Session F := { session with dirty := false }

structure FlushEffect (server after : Server F) : Prop extends
    Touches flushFrame withoutDirty [] server after where
  identities : SameIdentities server.db after.db

theorem FlushEffect.trans {server middle after : Server F} (first : FlushEffect server middle)
    (second : FlushEffect middle after) : FlushEffect server after :=
  ⟨first.toTouches.trans second.toTouches, first.identities.trans second.identities⟩

theorem settleFlushed_effect (server : Server F) (player : UInt64) :
    FlushEffect server (server.settleFlushed player) := by
  unfold settleFlushed
  simp only
  split
  · exact ⟨.refl _, .refl _⟩
  · refine ⟨.modifySession _ _ rfl fun session => ?_, .refl _⟩
    split <;> rfl

theorem flushEach_effect (fails : UInt64 → Bool) (now : Int64) (players : List UInt64) (server : Server F) :
    FlushEffect server (flushEach fails now players server).1 := by
  induction players generalizing server with
  | nil => exact ⟨.refl _, .refl _⟩
  | cons player rest ih =>
      unfold flushEach
      split <;> rename_i touched
      · exact ⟨⟨rfl, fun _ => rfl, posts_of_sent_eq rfl⟩, .refl _⟩
      · cases attempt_eq_ok touched
        refine FlushEffect.trans (FlushEffect.trans ?_ (settleFlushed_effect _ player)) (ih _)
        exact ⟨⟨rfl, fun _ => rfl, posts_of_sent_eq rfl⟩, .touchLastSeen _ _ _⟩

theorem processDirtyFlushAt_effect (server : Server F) (fails : UInt64 → Bool) (now : Int64) :
    FlushEffect server (server.processDirtyFlushAt fails now).1 := by
  unfold processDirtyFlushAt
  split
  · exact ⟨.refl _, .refl _⟩
  · exact flushEach_effect _ _ _ _

end Flush

/-! What every queued job keeps; jobs carry chat and clocks only. -/
section Jobs
variable {F : Type} [Platform F] [Codec F]

omit [Codec F] in
/-- A server starts as `Server.opened` leaves it. -/
theorem new_opened {cfg : ValidConfig F} {db : Db F} {epochMs : Int64} {weatherSeed : UInt64}
    {server : Server F} (started : Server.new cfg db epochMs weatherSeed = .ok server) :
    ∃ identityPlayers, loadIdentityPlayers db = .ok identityPlayers ∧
      server = Server.opened cfg db identityPlayers epochMs weatherSeed := by
  unfold Server.new at started
  cases loaded : loadIdentityPlayers db with
  | error failure =>
      rw [loaded] at started
      cases started
  | ok identityPlayers =>
      rw [loaded] at started
      cases started
      exact ⟨identityPlayers, rfl, rfl⟩

omit [Codec F] in
/-- A chat line queues one job, spoken where its speaker is; no other event queues any. -/
theorem outcome_everyJob {good : FanoutJob F → Prop} {server after : Server F} {moment : Moment} {event : Event}
    (spoken : ∀ peer session cell envelope audience, server.sessions.get? peer = some session →
      session.cell = some cell → topicOf envelope.payload = .chat →
      good { envelope, senderCell := some cell, audience })
    (outcome : Outcome server moment event after) (every : EveryJob good server) : EveryJob good after := by
  cases outcome with
  | calm frame posts kept =>
      exact every.of_same (congrArg Server.chatFanout frame :) (congrArg Server.clockFanout frame :)
  | moved found motion state cell placed => exact every.of_same rfl rfl
  | spoke found here chatting captured =>
      refine ⟨?_, every.2⟩
      intro job member
      rcases List.mem_append.mp member with earlier | new
      · exact every.1 job earlier
      · rw [List.mem_singleton.mp new]
        exact spoken _ _ _ _ _ found here chatting
  | joined vacant frame posts superseded numbering =>
      have base := every.of_same (congrArg Server.chatFanout frame :) (congrArg Server.clockFanout frame :)
      -- Renumbering the sessions throws every queued job away.
      cases superseded <;> cases numbering
      · exact base.of_same rfl rfl
      · exact ⟨by rintro job ⟨⟩, by rintro job ⟨⟩⟩
      · exact base.of_same rfl rfl
      · exact ⟨by rintro job ⟨⟩, by rintro job ⟨⟩⟩
  | left found => exact every.of_same rfl rfl

/-- Tick work queues clocks only, and those come from nowhere. -/
theorem everyJob_tick {good : FanoutJob F → Prop} {server : Server F} (tick : SessionRuns.Tick)
    (advances : ∀ job next, good job → good { job with nextRecipient := next })
    (clocked : ∀ envelope audience, topicOf envelope.payload = .clock →
      good { envelope, senderCell := none, audience })
    (every : EveryJob good server) : EveryJob good (tick.run server) := by
  cases tick with
  | aoi fails =>
      have frame := (processAoiWork_effect server fails).frame
      exact every.of_same (congrArg Server.chatFanout frame :) (congrArg Server.clockFanout frame :)
  | snapshots =>
      have frame := (broadcastSnapshots_effect server).frame
      exact every.of_same (congrArg Server.chatFanout frame :) (congrArg Server.clockFanout frame :)
  | fanout => exact (processFanoutWork_run server).everyJob advances every
  | dirtyFlush fails now =>
      have frame := (processDirtyFlushAt_effect server fails now).frame
      exact every.of_same (congrArg Server.chatFanout frame :) (congrArg Server.clockFanout frame :)
  | beginFlush => exact every.of_same rfl rfl
  | clock clockMs =>
      have effect := broadcastClock_effect server clockMs
      show EveryJob good (server.broadcastClock clockMs)
      generalize server.broadcastClock clockMs = after at effect ⊢
      cases effect with
      | skipped => exact ⟨every.1, by rintro job ⟨⟩⟩
      | queued clocking captured =>
          refine ⟨every.1, ?_⟩
          rintro job ⟨⟩
          exact clocked _ _ clocking

def fanoutTopics : List Topic := [.chat, .clock]

omit [Codec F] in
theorem outcome_jobsAbout {server after : Server F} {moment : Moment} {event : Event}
    (outcome : Outcome server moment event after) (about : JobsAbout fanoutTopics server) :
    JobsAbout fanoutTopics after :=
  outcome_everyJob (fun _ _ _ _ _ _ _ chatting => by simp [chatting, fanoutTopics]) outcome about

theorem jobsAbout_tick {server : Server F} (tick : SessionRuns.Tick) (about : JobsAbout fanoutTopics server) :
    JobsAbout fanoutTopics (tick.run server) :=
  everyJob_tick tick (fun _ _ => id) (fun _ _ clocking => by simp [clocking, fanoutTopics]) about

theorem reachable_jobsAbout {db : Db F} {server : Server F} {pending : List Event}
    (reached : SessionRuns.Reachable db server pending) : JobsAbout fanoutTopics server := by
  induction reached with
  | start opened =>
      obtain ⟨identityPlayers, -, rfl⟩ := new_opened opened
      exact ⟨by rintro job ⟨⟩, by rintro job ⟨⟩⟩
  | poll now script _ polled ih => exact EveryJob.of_same ih rfl rfl
  | handle moment reached ih => exact outcome_jobsAbout (handleEvent_outcome reached.inv moment _) ih
  | tick tick _ ih => exact jobsAbout_tick tick ih

end Jobs

/-! The settings are those the server started with. -/
section Settings
variable {F : Type} [Platform F] {server after : Server F} {pending : List Event}

theorem outcome_cfg {moment : Moment} {event : Event} (outcome : Outcome server moment event after) :
    after.cfg = server.cfg := by
  cases outcome with
  | calm frame posts kept => exact (congrArg Server.cfg frame :)
  | moved found motion state cell placed => rfl
  | spoke found here about captured => rfl
  | @joined peer bytes base middle numbered player identityHash name generation reply vacant frame posts
      superseded numbering =>
      have kept := entered_frame peer (withGeneration generation (firstSession server player identityHash name))
        reply superseded numbering
      exact (congrArg Server.cfg kept :).trans (congrArg Server.cfg frame :)
  | left found => rfl

variable [Codec F]

/-- All that one stage of a run can be. -/
inductive StageMove (server : Server F) : Traces.Action → Server F → Prop
  | poll {now : Instant} {script : List SocketTurn} (host : Host) :
      StageMove server (.poll now script) { server with host }
  | handle {moment : Moment} {event : Event} {after : Server F} (outcome : Outcome server moment event after) :
      StageMove server (.handle moment event) after
  | tick (tick : SessionRuns.Tick) : StageMove server (.tick tick) (tick.run server)

theorem lawful_move {stage : Traces.Stage F} (inv : SessionRuns.Inv pending stage.before) (lawful : stage.Lawful) :
    ∃ before action after, stage = ⟨before, action, after⟩ ∧ StageMove before action after := by
  obtain ⟨before, action, after⟩ := stage
  refine ⟨before, action, after, rfl, ?_⟩
  cases action with
  | poll now script =>
      obtain ⟨state, -, same⟩ := lawful
      replace same : after = { before with host := state.host } := same
      exact same ▸ .poll state.host
  | handle moment event =>
      replace lawful : after = (before.handleEvent moment event).1 := lawful
      exact lawful ▸ .handle (handleEvent_outcome inv moment event)
  | tick tick =>
      replace lawful : after = tick.run before := lawful
      exact lawful ▸ .tick tick

/-- The last stage of a run. -/
theorem run_move {db : Db F} {trace : List (Traces.Stage F)} {stage : Traces.Stage F}
    (run : Traces.Run db (trace ++ [stage]) server pending) :
    ∃ before action after, stage = ⟨before, action, after⟩ ∧ StageMove before action after ∧ server = after ∧
      ∃ waiting, Traces.Run db trace before waiting := by
  obtain ⟨⟨waiting, earlier⟩, lawful, same⟩ := run.unsnoc
  obtain ⟨before, action, after, rfl, move⟩ := lawful_move earlier.inv lawful
  exact ⟨before, action, after, rfl, move, same, waiting, earlier⟩

theorem move_cfg {action : Traces.Action} (move : StageMove server action after) : after.cfg = server.cfg := by
  cases move with
  | poll => rfl
  | handle outcome => exact outcome_cfg outcome
  | tick tick => exact (SessionRuns.keeps_tick server tick).cfg

theorem lawful_cfg {stage : Traces.Stage F} (inv : SessionRuns.Inv pending stage.before) (lawful : stage.Lawful) :
    stage.after.cfg = stage.before.cfg := by
  obtain ⟨before, action, after, rfl, move⟩ := lawful_move inv lawful
  exact move_cfg move

/-- The stage inside a longer run, and what came before it. -/
theorem run_upto {db : Db F} {early later : List (Traces.Stage F)} {stage : Traces.Stage F}
    (run : Traces.Run db (early ++ stage :: later) server pending) :
    (∃ waiting, Traces.Run db early stage.before waiting) ∧ stage.Lawful ∧ server.cfg = stage.before.cfg := by
  induction later using List.reverseRecOn generalizing server pending with
  | nil =>
      obtain ⟨⟨waiting, shorter⟩, lawful, rfl⟩ := Traces.Run.unsnoc run
      exact ⟨⟨waiting, shorter⟩, lawful, lawful_cfg shorter.inv lawful⟩
  | append_singleton later last ih =>
      rw [← List.cons_append, ← List.append_assoc] at run
      obtain ⟨⟨waiting, shorter⟩, lawful, rfl⟩ := run.unsnoc
      obtain ⟨first, opening, cfg⟩ := ih shorter
      exact ⟨first, opening, (lawful_cfg shorter.inv lawful).trans cfg⟩

end Settings
end SailwindOnline.TickEffects
