import SailwindOnline.DeliveryRounds
import SailwindOnline.TickEffects
import SailwindOnline.Traces

/-!
Chat and clock fanout over whole runs. A history is read off the run: when each
session opened, which jobs each stage queued or forgot, and whom each tick
examined. Against it, generations tell sessions apart exactly as the moments
they opened do, across peer reuse, take-over and renumbering, so a job reaches
the sessions it was captured for and nobody else.
-/

namespace SailwindOnline.Fanout
open World (Cell)
open Server SessionIndex SessionRuns OrderedSet DeliveryRounds Effects TickEffects Traces Persistence

section Histories
variable {F : Type} [Platform F]

/-- What a job carries: its datagram, and for chat the cell it was spoken in. -/
abbrev Load (F : Type) := Envelope F × Option Cell

/-- The clock has a lane of its own, of at most one job. -/
abbrev Log (F : Type) := Mail PeerId (Load F) Bool

def laneOf (server : Server F) (clock : Bool) : List (FanoutJob F) :=
  if clock then server.clockFanout.toList else server.chatFanout

/-- The live sessions with their generations, in ascending order of their peers. -/
def liveRecipients (server : Server F) : List FanoutRecipient :=
  (ascending server.sessions.keys).filterMap fun peer =>
    (server.sessions.get? peer).map fun session => { peer, generation := session.generation }

/-- The jobs a stage put on a lane. -/
def queuedBy (stage : Stage F) (clock : Bool) : List (FanoutJob F) :=
  match stage.action with
  | .handle _ _ => (laneOf stage.after clock).drop (laneOf stage.before clock).length
  | .tick (.clock _) => if clock then laneOf stage.after true else []
  | _ => []

/-- Handled events finish no job and a clock tick replaces the last one: what is gone was forgotten. -/
def forgottenBy (stage : Stage F) (clock : Bool) : Bool :=
  match stage.action with
  | .handle _ _ => (laneOf stage.after clock).isEmpty
  | .tick (.clock _) => clock
  | _ => false

def captivesAt (log : Log F) (server : Server F) : List (Captive PeerId) :=
  (ascending server.sessions.keys).map fun peer => { peer, opened := log.opened peer }

/-- When the session `peer` has was opened. -/
def holderAt (log : Log F) (server : Server F) (peer : PeerId) : Option Nat :=
  (server.sessions.get? peer).map fun _ => log.opened peer

/-- Chat is heard where the sender's cell is in the subscription; the clock everywhere. -/
def inViewAt (server : Server F) (load : Load F) (peer : PeerId) : Bool :=
  match load.2 with
  | none => true
  | some cell => (server.sessions.get? peer).any fun session => session.sub.contains cell

def noteVisit (server : Server F) (log : Log F) : FanoutNote → Log F
  | .examined clock _ delivered => log.examine clock (holderAt log server) (inViewAt server) delivered
  | .finished clock => log.finish clock

def noteForgotten (stage : Stage F) (log : Log F) (clock : Bool) : Log F :=
  if forgottenBy stage clock then log.discard clock else log

def noteQueued (stage : Stage F) (log : Log F) (clock : Bool) : Log F :=
  (queuedBy stage clock).foldl
    (fun log job => log.capture clock (job.envelope, job.senderCell) (captivesAt log stage.before)) log

def opensBy (stage : Stage F) (peer : PeerId) : Bool :=
  (stage.before.sessions.get? peer).isNone && (stage.after.sessions.get? peer).isSome

variable [Codec F]

def visitsBy (stage : Stage F) : List FanoutNote :=
  match stage.action with
  | .tick .fanout => fanoutNotes stage.before
  | _ => []

def noteStage (log : Log F) (stage : Stage F) : Log F :=
  let log := noteForgotten stage (noteForgotten stage log false) true
  let log := noteQueued stage (noteQueued stage log false) true
  let log := (visitsBy stage).foldl (noteVisit stage.before) log
  log.advance (opensBy stage)

/-- The history of every fanout job of a run. -/
def logOf (trace : List (Stage F)) : Log F := observe noteStage {} trace

/-- The chat and clock datagrams a run handed to the transport. -/
def fanoutPosted (trace : List (Stage F)) : List (PeerId × Envelope F) :=
  (trace.flatMap Stage.posted).filter fun post => topicOf post.2.payload ∈ fanoutTopics

def wire (entry : Handed PeerId (Load F) Bool) : PeerId × Envelope F := (entry.visit.peer, entry.slip.load.1)

end Histories

/-! The server's jobs followed by the history. -/
section Following
variable {F : Type} [Platform F] {log : Log F} {server after : Server F}

/-- For a captured recipient, the generation matches while the session is the captured one. -/
structure Tracks (log : Log F) (server : Server F) (recipient : FanoutRecipient) (captive : Captive PeerId) :
    Prop where
  peer : captive.peer = recipient.peer
  numbered : recipient.generation ≤ server.nextSessionGeneration
  past : captive.opened < log.now
  same_iff : ∀ session, server.sessions.get? recipient.peer = some session →
    (session.generation = recipient.generation ↔ log.opened recipient.peer = captive.opened)

structure Follows (log : Log F) (server : Server F) (job : FanoutJob F) (parcel : Parcel PeerId (Load F) Bool) :
    Prop where
  load : parcel.load = (job.envelope, job.senderCell)
  progress : parcel.visits.length = job.nextRecipient
  audience : List.Forall₂ (Tracks log server) job.audience.recipients parcel.captives

structure LogInv (log : Log F) (server : Server F) : Prop where
  sound : log.Sound
  lanes : ∀ clock, List.Forall₂ (Follows log server) (laneOf server clock) (log.lanes clock)
  numbered : ∀ peer session, server.sessions.get? peer = some session →
    session.generation ≤ server.nextSessionGeneration
  opened : ∀ peer session, server.sessions.get? peer = some session → log.opened peer < log.now
  cached : ∀ audience, server.fanoutAudienceCache = some audience → audience.recipients = liveRecipients server

def generations (server : Server F) (peer : PeerId) : Option UInt64 :=
  (server.sessions.get? peer).map Session.generation

theorem generations_some {peer : PeerId} {session : Session F} (found : server.sessions.get? peer = some session) :
    generations server peer = some session.generation := by
  simp [generations, found]

theorem session_of_generations {peer : PeerId} {generation : UInt64}
    (known : generations server peer = some generation) :
    ∃ session, server.sessions.get? peer = some session ∧ session.generation = generation := by
  simpa [generations, Option.map_eq_some_iff] using known

theorem liveRecipients_congr (same : generations after = generations server) :
    liveRecipients after = liveRecipients server := by
  have keys : after.sessions.keys = server.sessions.keys := by
    ext peer
    have here := congrFun same peer
    rw [FiniteMap.mem_keys, FiniteMap.mem_keys]
    simpa [generations] using congrArg Option.isSome here
  have each : ∀ server : Server F, ∀ peer, (server.sessions.get? peer).map
      (fun session => ({ peer, generation := session.generation } : FanoutRecipient)) =
        (generations server peer).map fun generation => { peer, generation } := by
    intro server peer
    simp [generations, Function.comp_def]
  simp only [liveRecipients, keys, each, same]

/-- Sessions may leave; those that stay keep their generation. -/
structure Settles (server after : Server F) : Prop where
  lanes : ∀ clock, laneOf after clock = laneOf server clock
  kept : ∀ peer generation, generations after peer = some generation → generations server peer = some generation
  numbered : after.nextSessionGeneration = server.nextSessionGeneration
  cached : after.fanoutAudienceCache = none ∨
    after.fanoutAudienceCache = server.fanoutAudienceCache ∧ generations after = generations server

theorem Settles.of_same (chat : after.chatFanout = server.chatFanout) (clock : after.clockFanout = server.clockFanout)
    (sessions : generations after = generations server)
    (numbered : after.nextSessionGeneration = server.nextSessionGeneration)
    (cached : after.fanoutAudienceCache = server.fanoutAudienceCache) : Settles server after :=
  ⟨fun lane => by simp [laneOf, chat, clock], fun peer generation known => by rwa [← sessions], numbered,
    Or.inr ⟨cached, sessions⟩⟩

theorem Tracks.mono {later : Log F} {recipient : FanoutRecipient} {captive : Captive PeerId}
    (tracks : Tracks log server recipient captive) (now : log.now ≤ later.now)
    (opened : later.opened recipient.peer = log.opened recipient.peer)
    (numbered : server.nextSessionGeneration ≤ after.nextSessionGeneration)
    (kept : ∀ generation, generations after recipient.peer = some generation →
      generations server recipient.peer = some generation) :
    Tracks later after recipient captive where
  peer := tracks.peer
  numbered := tracks.numbered.trans numbered
  past := tracks.past.trans_le now
  same_iff session found := by
    obtain ⟨old, present, same⟩ := session_of_generations (kept _ (generations_some found))
    rw [opened, ← same]
    exact tracks.same_iff old present

theorem Follows.mono {later : Log F} {job : FanoutJob F} {parcel : Parcel PeerId (Load F) Bool}
    (follows : Follows log server job parcel)
    (tracks : ∀ recipient captive, Tracks log server recipient captive → Tracks later after recipient captive) :
    Follows later after job parcel :=
  ⟨follows.load, follows.progress, follows.audience.imp tracks⟩

theorem LogInv.settle (inv : LogInv log server) (settles : Settles server after) {opens : PeerId → Bool}
    (closed : ∀ peer, opens peer = false) : LogInv (log.advance opens) after where
  sound := inv.sound.advance opens
  lanes clock := by
    rw [settles.lanes]
    refine (inv.lanes clock).imp fun job parcel follows => follows.mono fun recipient captive tracks => ?_
    refine tracks.mono (Nat.le_succ _) ?_ settles.numbered.ge (settles.kept recipient.peer)
    simp [Mail.advance, closed]
  numbered peer session found := by
    obtain ⟨old, present, same⟩ := session_of_generations (settles.kept _ _ (generations_some found))
    rw [settles.numbered, ← same]
    exact inv.numbered peer old present
  opened peer session found := by
    obtain ⟨old, present, -⟩ := session_of_generations (settles.kept _ _ (generations_some found))
    simp only [Mail.advance, closed, Bool.false_eq_true, if_false]
    exact Nat.lt_succ_of_lt (inv.opened peer old present)
  cached audience held := by
    rcases settles.cached with cleared | ⟨cached, same⟩
    · rw [cleared] at held
      cases held
    · rw [liveRecipients_congr same]
      exact inv.cached audience (cached ▸ held)

/-- The job queued now is captured for the sessions now live. -/
theorem tracks_live {later : Log F} (inv : LogInv log server) (now : log.now ≤ later.now)
    (opened : later.opened = log.opened) (numbered : server.nextSessionGeneration ≤ after.nextSessionGeneration)
    (same : generations after = generations server) :
    List.Forall₂ (Tracks later after) (liveRecipients server) (captivesAt log server) := by
  have each : ∀ peers : List PeerId, (∀ peer ∈ peers, peer ∈ server.sessions.keys) →
      List.Forall₂ (Tracks later after)
        (peers.filterMap fun peer => (server.sessions.get? peer).map fun session =>
          ({ peer, generation := session.generation } : FanoutRecipient))
        (peers.map fun peer => ({ peer, opened := log.opened peer } : Captive PeerId)) := by
    intro peers
    induction peers with
    | nil => exact fun _ => .nil
    | cons peer rest ih =>
        intro live
        obtain ⟨session, found⟩ := (FiniteMap.mem_keys_iff_exists _ _).mp (live peer List.mem_cons_self)
        simp only [List.filterMap_cons, found, Option.map_some, List.map_cons]
        refine .cons ⟨rfl, ?_, ?_, ?_⟩ (ih fun other member => live other (List.mem_cons_of_mem _ member))
        · exact (inv.numbered peer session found).trans numbered
        · exact (inv.opened peer session found).trans_le now
        · intro current present
          have known := generations_some present
          rw [same, generations_some found, Option.some.injEq] at known
          simp [opened, known]
  exact each _ fun peer member => (mem_ascending _ _).mp member

theorem LogInv.capture (inv : LogInv log server) {clock : Bool} {job : FanoutJob F}
    (queued : laneOf after clock = laneOf server clock ++ [job])
    (other : laneOf after (!clock) = laneOf server (!clock)) (unvisited : job.nextRecipient = 0)
    (audience : job.audience.recipients = liveRecipients server)
    (same : generations after = generations server)
    (numbered : after.nextSessionGeneration = server.nextSessionGeneration)
    (cached : after.fanoutAudienceCache = some job.audience) :
    LogInv (log.capture clock (job.envelope, job.senderCell) (captivesAt log server)) after := by
  have follows : ∀ held parcel, Follows log server held parcel →
      Follows (log.capture clock (job.envelope, job.senderCell) (captivesAt log server)) after held parcel := by
    intro held parcel old
    refine old.mono fun recipient captive tracks => tracks.mono (Nat.le_succ _) rfl numbered.ge ?_
    rw [same]
    exact fun _ => id
  constructor
  case sound =>
    refine inv.sound.capture clock _ ?_ ?_
    · simpa [captivesAt, Function.comp_def] using ascending_nodup server.sessions.keys
    · intro captive member
      simp only [captivesAt, List.mem_map, mem_ascending] at member
      obtain ⟨peer, live, rfl⟩ := member
      obtain ⟨session, found⟩ := (FiniteMap.mem_keys_iff_exists _ _).mp live
      exact inv.opened peer session found
  case lanes =>
    intro lane
    by_cases own : lane = clock
    · subst own
      simp only [Mail.capture, Mail.setLane, Function.update_self, queued]
      refine List.rel_append ((inv.lanes lane).imp follows) (.cons ⟨rfl, unvisited.symm, ?_⟩ .nil)
      rw [audience]
      exact tracks_live inv (Nat.le_succ _) rfl numbered.ge same
    · have switched : lane = !clock := by cases lane <;> cases clock <;> simp_all
      simp only [Mail.capture, Mail.setLane, Function.update_of_ne own]
      rw [switched, other]
      exact (inv.lanes _).imp follows
  case numbered =>
    intro peer session found
    obtain ⟨old, present, same_generation⟩ :=
      session_of_generations (same ▸ generations_some found : generations server peer = _)
    rw [numbered, ← same_generation]
    exact inv.numbered peer old present
  case opened =>
    intro peer session found
    obtain ⟨old, present, -⟩ := session_of_generations (same ▸ generations_some found : generations server peer = _)
    exact Nat.lt_succ_of_lt (inv.opened peer old present)
  case cached =>
    intro held present
    rw [cached, Option.some.injEq] at present
    rw [← present, audience, liveRecipients_congr same]

/-- Work on the lanes alone. -/
theorem LogInv.relane (inv : LogInv log server) {later : Log F} (sound : later.Sound) (now : later.now = log.now)
    (opened : later.opened = log.opened) (same : generations after = generations server)
    (numbered : after.nextSessionGeneration = server.nextSessionGeneration)
    (cached : after.fanoutAudienceCache = server.fanoutAudienceCache)
    (lanes : ∀ clock, List.Forall₂ (Follows log server) (laneOf after clock) (later.lanes clock)) :
    LogInv later after where
  sound := sound
  lanes clock := by
    refine (lanes clock).imp fun job parcel follows => follows.mono fun recipient captive tracks => ?_
    exact tracks.mono now.ge (congrFun opened _) numbered.ge fun generation known => by rwa [← same]
  numbered peer session found := by
    obtain ⟨old, present, same_generation⟩ :=
      session_of_generations (same ▸ generations_some found : generations server peer = _)
    rw [numbered, ← same_generation]
    exact inv.numbered peer old present
  opened peer session found := by
    obtain ⟨old, present, -⟩ := session_of_generations (same ▸ generations_some found : generations server peer = _)
    rw [opened, now]
    exact inv.opened peer old present
  cached audience held := by
    rw [liveRecipients_congr same]
    exact inv.cached audience (cached ▸ held)

theorem LogInv.discard (inv : LogInv log server) {clock : Bool} (cleared : laneOf after clock = [])
    (other : laneOf after (!clock) = laneOf server (!clock)) (same : generations after = generations server)
    (numbered : after.nextSessionGeneration = server.nextSessionGeneration)
    (cached : after.fanoutAudienceCache = server.fanoutAudienceCache) : LogInv (log.discard clock) after := by
  refine inv.relane (inv.sound.discard clock) rfl rfl same numbered cached fun lane => ?_
  by_cases own : lane = clock
  · subst own
    simp only [Mail.discard, Mail.setLane, Function.update_self, cleared]
    exact .nil
  · have switched : lane = !clock := by cases lane <;> cases clock <;> simp_all
    simp only [Mail.discard, Mail.setLane, Function.update_of_ne own]
    rw [switched, other]
    exact inv.lanes _

/-- The new session takes a generation no queued job knows, at a moment none was captured at. -/
theorem LogInv.counted (inv : LogInv log server) {peer : PeerId} {opens : PeerId → Bool}
    (room : server.nextSessionGeneration ≠ maxU64)
    (lanes : ∀ clock, laneOf after clock = laneOf server clock)
    (opening : ∀ other, opens other = true ↔ other = peer)
    (own : generations after peer = some (server.nextSessionGeneration + 1))
    (kept : ∀ other generation, other ≠ peer → generations after other = some generation →
      generations server other = some generation)
    (numbered : after.nextSessionGeneration = server.nextSessionGeneration + 1)
    (cached : after.fanoutAudienceCache = none) : LogInv (log.advance opens) after := by
  have more : server.nextSessionGeneration < server.nextSessionGeneration + 1 :=
    UInt64.lt_add_one (fun last => room (last.trans (by decide)))
  have still : ∀ other, other ≠ peer → (log.advance opens).opened other = log.opened other := by
    intro other apart
    have closed : opens other = false := Bool.eq_false_iff.mpr fun opened => apart ((opening other).mp opened)
    simp [Mail.advance, closed]
  have stamped : (log.advance opens).opened peer = log.now := by
    simp [Mail.advance, (opening peer).mpr rfl]
  constructor
  case sound => exact inv.sound.advance opens
  case lanes =>
    intro clock
    rw [lanes]
    refine (inv.lanes clock).imp fun job parcel follows => follows.mono fun recipient captive tracks => ?_
    by_cases here : recipient.peer = peer
    · refine ⟨tracks.peer, ?_, Nat.lt_succ_of_lt tracks.past, ?_⟩
      · rw [numbered]
        exact tracks.numbered.trans more.le
      · intro session found
        have known := generations_some found
        rw [here, own, Option.some.injEq] at known
        rw [here, stamped, ← known]
        have past := tracks.past
        constructor
        · intro same
          exact absurd (same ▸ tracks.numbered) (not_le.mpr more)
        · intro same
          omega
    · exact tracks.mono (Nat.le_succ _) (still _ here) (numbered ▸ more.le) fun generation => kept _ generation here
  case numbered =>
    intro other session found
    have known := generations_some found
    rw [numbered]
    by_cases here : other = peer
    · rw [here, own, Option.some.injEq] at known
      exact known.ge
    · obtain ⟨old, present, same⟩ := session_of_generations (kept other _ here known)
      rw [← same]
      exact (inv.numbered other old present).trans more.le
  case opened =>
    intro other session found
    by_cases here : other = peer
    · rw [here, stamped]
      exact Nat.lt_succ_self _
    · obtain ⟨old, present, -⟩ := session_of_generations (kept other _ here (generations_some found))
      rw [still other here]
      exact Nat.lt_succ_of_lt (inv.opened other old present)
  case cached =>
    intro audience held
    rw [cached] at held
    cases held

/-- Renumbering forgets every job first, so no captured generation outlives it. -/
theorem LogInv.renumbered (inv : LogInv log server) {opens : PeerId → Bool} (lanes : ∀ clock, laneOf after clock = [])
    (numbered : ∀ peer session, after.sessions.get? peer = some session →
      session.generation ≤ after.nextSessionGeneration)
    (kept : ∀ peer, (after.sessions.get? peer).isSome → opens peer = true ∨ (server.sessions.get? peer).isSome)
    (cached : after.fanoutAudienceCache = none) :
    LogInv (((log.discard false).discard true).advance opens) after where
  sound := ((inv.sound.discard false).discard true).advance opens
  lanes clock := by
    rw [lanes clock]
    cases clock <;> exact .nil
  numbered := numbered
  opened peer session found := by
    show (if opens peer then log.now else log.opened peer) < log.now + 1
    rcases kept peer (by simp [found]) with opening | held
    · simp [opening]
    · obtain ⟨old, present⟩ := Option.isSome_iff_exists.mp held
      have earlier := inv.opened peer old present
      split <;> omega
  cached audience held := by
    rw [cached] at held
    cases held

/-! One tick of fanout. -/

/-- Deliveries entered in the history are the datagrams sent. -/
def Tells (log later : Log F) (server after : Server F) : Prop :=
  ∃ new, later.handed = log.handed ++ new ∧ after.sent = server.sent ++ new.map wire

theorem Tells.refl (log : Log F) (server : Server F) : Tells log log server server := ⟨[], by simp, by simp⟩

theorem Tells.trans {middle later : Log F} {half : Server F} (first : Tells log middle server half)
    (second : Tells middle later half after) : Tells log later server after := by
  obtain ⟨early, handed, sent⟩ := first
  obtain ⟨late, handedAgain, sentAgain⟩ := second
  exact ⟨early ++ late, by rw [handedAgain, handed, List.append_assoc],
    by rw [sentAgain, sent, List.map_append, List.append_assoc]⟩

theorem laneOf_return (server : Server F) (clock : Bool) (job : FanoutJob F) :
    laneOf (server.returnFanoutJob clock job) clock =
        job :: (if clock then [] else server.chatFanout) ∧
      laneOf (server.returnFanoutJob clock job) (!clock) = laneOf server (!clock) := by
  cases clock <;> exact ⟨rfl, rfl⟩

theorem shouldSend_iff (recipient : FanoutRecipient) (captive : Captive PeerId) (job : FanoutJob F)
    (tracks : Tracks log server recipient captive) :
    server.shouldSend job recipient = true ↔
      holderAt log server captive.peer = some captive.opened ∧
        inViewAt server (job.envelope, job.senderCell) captive.peer = true := by
  rw [tracks.peer]
  unfold shouldSend holderAt inViewAt
  cases found : server.sessions.get? recipient.peer with
  | none => simp
  | some session =>
      have same := tracks.same_iff session found
      cases job.senderCell with
      | none => simp [same]
      | some cell => simp [same]

/-- The captive whose turn it is stands for the recipient whose turn it is. -/
theorem Follows.turn {job : FanoutJob F} {parcel : Parcel PeerId (Load F) Bool} {recipient : FanoutRecipient}
    (follows : Follows log server job parcel)
    (next : job.audience.recipients[job.nextRecipient]? = some recipient) :
    ∃ captive, parcel.captives[parcel.visits.length]? = some captive ∧ Tracks log server recipient captive := by
  obtain ⟨-, each⟩ := List.forall₂_iff_get.mp follows.audience
  obtain ⟨inside, here⟩ := List.getElem?_eq_some_iff.mp next
  have within : parcel.visits.length < parcel.captives.length := by
    rw [follows.progress, ← follows.audience.length_eq]
    exact inside
  refine ⟨parcel.captives[parcel.visits.length], List.getElem?_eq_getElem within, ?_⟩
  have tracked := each job.nextRecipient inside (follows.audience.length_eq ▸ inside)
  simpa [here, follows.progress] using tracked

variable [Codec F]

theorem LogInv.fanoutStep (inv : LogInv log server) {base : Server F} {note : FanoutNote}
    (sessions : base.sessions = server.sessions) (step : FanoutStep server note after) :
    LogInv (noteVisit base log note) after ∧ Tells log (noteVisit base log note) server after := by
  cases step with
  | @examined taken clock job recipient inHand next =>
      have sight : server.shouldSend job recipient = taken.shouldSend job recipient := by
        subst inHand
        cases clock <;> rfl
      have lane := inv.lanes clock
      rw [inHand, (laneOf_return taken clock job).1, ← inHand] at lane
      obtain ⟨parcel, rest, follows, later, front⟩ := List.forall₂_cons_left_iff.mp lane
      obtain ⟨captive, turn, tracks⟩ := follows.turn next
      have seen : holderAt log base = holderAt log server ∧ inViewAt base = inViewAt server := by
        constructor <;> funext
        · simp [holderAt, sessions]
        · simp [inViewAt, sessions]
      have right := shouldSend_iff recipient captive job tracks
      rw [sight, ← follows.load] at right
      simp only [noteVisit, seen]
      have kept := inv.sound.examine front turn right
      rw [Mail.examine_front front turn] at kept ⊢
      constructor
      · refine inv.relane kept rfl rfl ?_ ?_ ?_ fun other => ?_
        · subst inHand
          cases clock <;> rfl
        · subst inHand
          cases clock <;> rfl
        · subst inHand
          cases clock <;> rfl
        · by_cases own : other = clock
          · subst own
            simp only [Mail.setLane, Function.update_self, (laneOf_return _ other _).1]
            refine .cons ⟨follows.load, ?_, follows.audience⟩ later
            simp [follows.progress]
          · have switched : other = !clock := by cases other <;> cases clock <;> simp_all
            simp only [Mail.setLane, Function.update_of_ne own]
            have untouched := inv.lanes other
            rw [switched, inHand, (laneOf_return _ clock _).2, ← inHand] at untouched
            rw [switched, (laneOf_return _ clock _).2]
            exact untouched
      · refine ⟨_, rfl, ?_⟩
        have load : parcel.load.1 = job.envelope := congrArg Prod.fst follows.load
        subst inHand
        cases clock <;> cases taken.shouldSend job recipient <;>
          simp [returnFanoutJob, wire, tracks.peer, load]
  | @finished taken clock job inHand only complete =>
      have lane := inv.lanes clock
      rw [inHand, (laneOf_return taken clock job).1, ← inHand] at lane
      obtain ⟨parcel, rest, follows, later, front⟩ := List.forall₂_cons_left_iff.mp lane
      have whole : parcel.visits.length = parcel.captives.length := by
        rw [follows.progress, complete, follows.audience.length_eq]
      have kept := inv.sound.finish front whole
      simp only [noteVisit]
      unfold Mail.finish at kept ⊢
      rw [front] at kept ⊢
      constructor
      · refine inv.relane kept rfl rfl ?_ ?_ ?_ fun other => ?_
        · subst inHand
          cases clock <;> rfl
        · subst inHand
          cases clock <;> rfl
        · subst inHand
          cases clock <;> rfl
        · by_cases own : other = clock
          · subst own
            simp only [Mail.setLane, Function.update_self]
            have left : laneOf (taken.finishFanoutJob other job) other =
                if other then [] else taken.chatFanout := by
              cases other with
              | false => rfl
              | true => simp [laneOf, finishFanoutJob, only rfl]
            rw [left]
            exact later
          · have switched : other = !clock := by cases other <;> cases clock <;> simp_all
            simp only [Mail.setLane, Function.update_of_ne own]
            have untouched := inv.lanes other
            rw [switched, inHand, (laneOf_return _ clock _).2, ← inHand] at untouched
            have same : laneOf (taken.finishFanoutJob clock job) (!clock) = laneOf taken (!clock) := by
              cases clock <;> rfl
            rw [switched, same]
            exact untouched
      · refine ⟨[], by simp [Mail.setLane], ?_⟩
        subst inHand
        cases clock <;> simp [returnFanoutJob, finishFanoutJob]

theorem LogInv.fanoutRun {base : Server F} {notes : List FanoutNote} (inv : LogInv log server)
    (sessions : base.sessions = server.sessions) (run : FanoutRun server notes after) :
    LogInv (notes.foldl (noteVisit base) log) after ∧
      Tells log (notes.foldl (noteVisit base) log) server after := by
  induction run generalizing log with
  | done => exact ⟨inv, .refl log _⟩
  | step first _ ih =>
      obtain ⟨next, told⟩ := inv.fanoutStep sessions first
      have unchanged := (congrArg Server.sessions first.frame :)
      obtain ⟨final, rest⟩ := ih next (sessions.trans unchanged.symm)
      exact ⟨final, told.trans rest⟩

end Following

/-! One stage of a run. -/
section Stages
variable {F : Type} [Platform F] [Codec F] {log : Log F} {server after : Server F}

/-- The history after a stage follows the server after it, and tells the datagrams it sent. -/
structure Noted (log : Log F) (stage : Stage F) : Prop where
  inv : LogInv (noteStage log stage) stage.after
  told : (noteStage log stage).handed.map wire =
    log.handed.map wire ++ stage.posted.filter fun post => topicOf post.2.payload ∈ fanoutTopics
  captured : ∀ clock, ∀ job ∈ queuedBy stage clock, job.audience.recipients = liveRecipients stage.before

omit [Codec F] in
theorem posted_other_topics {stage : Stage F} {topics : List Topic} (posts : Posts topics stage.before stage.after)
    (others : ∀ topic ∈ topics, topic ∉ fanoutTopics) :
    (stage.posted.filter fun post => topicOf post.2.payload ∈ fanoutTopics) = [] := by
  obtain ⟨new, grown, about⟩ := posts
  rw [Stage.posted_eq grown, List.filter_eq_nil_iff]
  intro post member
  simpa using others _ (about post member)

omit [Codec F] in
theorem opensBy_settled {stage : Stage F} (settles : Settles stage.before stage.after) (peer : PeerId) :
    opensBy stage peer = false := by
  unfold opensBy
  cases found : stage.after.sessions.get? peer with
  | none => simp
  | some session =>
      obtain ⟨old, present, -⟩ := session_of_generations (settles.kept peer _ (generations_some found))
      simp [present]

/-- Stages that leave the queues alone and open no session. -/
theorem noted_settled {stage : Stage F} {topics : List Topic} (inv : LogInv log stage.before)
    (settles : Settles stage.before stage.after) (posts : Posts topics stage.before stage.after)
    (others : ∀ topic ∈ topics, topic ∉ fanoutTopics)
    (shape : noteStage log stage = log.advance (opensBy stage)) (unqueued : ∀ clock, queuedBy stage clock = []) :
    Noted log stage where
  inv := shape ▸ inv.settle settles (opensBy_settled settles)
  told := by
    rw [shape, posted_other_topics posts others, List.append_nil]
    rfl
  captured clock job queued := by
    rw [unqueued] at queued
    cases queued

variable {moment : Moment} {event : Event}

omit [Codec F] in
theorem noteForgotten_kept {stage : Stage F} (inv : LogInv log stage.before) (clock : Bool)
    (kept : forgottenBy stage clock = true → laneOf stage.before clock = []) :
    noteForgotten stage log clock = log := by
  unfold noteForgotten
  split <;> rename_i forgotten
  · have lane := inv.lanes clock
    rw [kept forgotten, List.forall₂_nil_left_iff] at lane
    exact Mail.discard_empty lane
  · rfl

omit [Codec F] in
theorem queuedBy_same (moment : Moment) (event : Event) {clock : Bool}
    (lanes : laneOf after clock = laneOf server clock) :
    queuedBy ⟨server, .handle moment event, after⟩ clock = [] := by
  simp [queuedBy, lanes]

theorem noteStage_same (inv : LogInv log server) (lanes : ∀ clock, laneOf after clock = laneOf server clock) :
    noteStage log ⟨server, .handle moment event, after⟩ =
      log.advance (opensBy ⟨server, .handle moment event, after⟩) := by
  have kept : ∀ clock, noteForgotten ⟨server, .handle moment event, after⟩ log clock = log := by
    intro clock
    refine noteForgotten_kept inv clock fun forgotten => ?_
    simpa [forgottenBy, lanes] using forgotten
  simp only [noteStage, kept, noteQueued, queuedBy_same moment event (lanes _), visitsBy, List.foldl_nil]

theorem noted_handled {topics : List Topic} (inv : LogInv log server) (settles : Settles server after)
    (posts : Posts topics server after) (others : ∀ topic ∈ topics, topic ∉ fanoutTopics) :
    Noted log ⟨server, .handle moment event, after⟩ :=
  noted_settled inv settles posts others (noteStage_same inv settles.lanes) fun clock =>
    queuedBy_same moment event (settles.lanes clock)

omit [Codec F] in
theorem currentRecipients_live {pending : List Event} (server_inv : Inv pending server) :
    server.currentRecipients = liveRecipients server := by
  have few := server_inv.hosted.size_le
  unfold currentRecipients liveRecipients
  rw [server_inv.agree.recipients]
  refine List.take_of_length_le ((List.length_filterMap_le _ _).trans ?_)
  rwa [ascending_length]

omit [Codec F] in
/-- The cache, when there is one, still lists the live sessions. -/
theorem captured_live {pending : List Event} {audience : Audience} (server_inv : Inv pending server)
    (inv : LogInv log server) (captured : CapturedFrom server audience) :
    audience.recipients = liveRecipients server := by
  rcases captured with cached | ⟨-, current⟩
  · exact inv.cached audience cached
  · rw [current, currentRecipients_live server_inv]

theorem noted_spoke {pending : List Event} {envelope : Envelope F} {cell : Cell} {audience : Audience}
    (server_inv : Inv pending server) (inv : LogInv log server) (captured : CapturedFrom server audience)
    (queue : after.chatFanout = server.chatFanout ++ [{ envelope, senderCell := some cell, audience }])
    (clock : after.clockFanout = server.clockFanout) (sessions : after.sessions = server.sessions)
    (numbered : after.nextSessionGeneration = server.nextSessionGeneration)
    (cached : after.fanoutAudienceCache = some audience) (sent : after.sent = server.sent) :
    Noted log ⟨server, .handle moment event, after⟩ := by
  have same : generations after = generations server := by
    funext peer
    simp only [generations, sessions]
  have live := captured_live server_inv inv captured
  have queued : queuedBy ⟨server, .handle moment event, after⟩ false =
      [{ envelope, senderCell := some cell, audience }] := by
    simp [queuedBy, laneOf, queue]
  have others : queuedBy ⟨server, .handle moment event, after⟩ true = [] :=
    queuedBy_same moment event (by simp [laneOf, clock])
  have kept : ∀ lane, noteForgotten ⟨server, .handle moment event, after⟩ log lane = log := by
    intro lane
    refine noteForgotten_kept inv lane fun forgotten => ?_
    cases lane with
    | false => simp [forgottenBy, laneOf, queue] at forgotten
    | true => simpa [forgottenBy, laneOf, clock] using forgotten
  have shape : noteStage log ⟨server, .handle moment event, after⟩ =
      (log.capture false (envelope, some cell) (captivesAt log server)).advance
        (opensBy ⟨server, .handle moment event, after⟩) := by
    simp only [noteStage, kept, noteQueued, queued, others, visitsBy, List.foldl_cons, List.foldl_nil]
  have appended : laneOf after false = laneOf server false ++ [{ envelope, senderCell := some cell, audience }] :=
    queue
  have grown : LogInv (log.capture false (envelope, some cell) (captivesAt log server)) after :=
    inv.capture appended (by simp [laneOf, clock]) rfl live same numbered cached
  refine ⟨?_, ?_, ?_⟩
  · rw [shape]
    refine grown.settle (.of_same rfl rfl rfl rfl rfl) fun peer => ?_
    simp only [opensBy, sessions]
    cases server.sessions.get? peer <;> rfl
  · have silent : Posts [] server after := posts_of_sent_eq sent
    rw [shape, posted_other_topics silent (by simp), List.append_nil]
    rfl
  · intro lane job member
    cases lane with
    | false =>
        rw [queued, List.mem_singleton] at member
        exact member ▸ live
    | true =>
        rw [others] at member
        cases member

omit [Platform F] [Codec F] in
theorem rekeyed_generation (sessions : FiniteMap PeerId (Session F)) {peer : PeerId} {session : Session F}
    (found : (rekeyedSessions sessions).get? peer = some session) :
    ∃ index < sessions.size, session.generation = UInt64.ofNat (index + 1) := by
  -- Over any prefix of the renumbering: a peer has its number, or was not reached yet.
  have fold : ∀ (entries : List (PeerId × Nat)) (sessions : FiniteMap PeerId (Session F)),
      (entries.foldl (fun sessions entry => sessions.modify entry.1 fun session =>
        { session with generation := UInt64.ofNat (entry.2 + 1) }) sessions).get? peer = some session →
      (∃ index, (peer, index) ∈ entries ∧ session.generation = UInt64.ofNat (index + 1)) ∨
        peer ∉ entries.map Prod.fst ∧ sessions.get? peer = some session := by
    intro entries
    induction entries with
    | nil => exact fun sessions found => Or.inr ⟨by simp, found⟩
    | cons entry rest ih =>
        intro sessions found
        rcases ih _ found with ⟨index, member, same⟩ | ⟨absent, present⟩
        · exact Or.inl ⟨index, List.mem_cons_of_mem _ member, same⟩
        · rw [FiniteMap.get?_modify] at present
          split at present <;> rename_i own
          · obtain ⟨old, -, rfl⟩ := Option.map_eq_some_iff.mp present
            exact Or.inl ⟨entry.2, by simp [own], rfl⟩
          · refine Or.inr ⟨?_, present⟩
            simp only [List.map_cons, List.mem_cons, not_or]
            exact ⟨own, absent⟩
  rcases fold _ _ found with ⟨index, member, same⟩ | ⟨absent, present⟩
  · have within := (List.mem_zipIdx member).2.1
    rw [ascending_length] at within
    exact ⟨index, by simpa [FiniteMap.size] using within, same⟩
  · refine absurd ?_ absent
    have listed : peer ∈ ascending sessions.keys :=
      (mem_ascending _ _).mpr ((FiniteMap.mem_keys_iff_exists _ _).mpr ⟨session, present⟩)
    rwa [List.zipIdx_map_fst]

omit [Codec F] in
/-- A take-over drops at most the earlier session and touches no job. -/
theorem superseded_settles {player : UInt64} {middle : Server F} (superseded : Superseded server player middle) :
    Settles server middle := by
  cases superseded with
  | absent => exact .of_same rfl rfl rfl rfl rfl
  | @evicted prior session host owned found own addrs =>
      refine ⟨fun _ => rfl, ?_, rfl, Or.inl rfl⟩
      intro peer generation known
      simp only [generations, dropped, FiniteMap.get?_erase] at known ⊢
      split at known
      · cases known
      · exact known

omit [Codec F] in
theorem superseded_size {player : UInt64} {middle : Server F} (superseded : Superseded server player middle) :
    middle.sessions.size ≤ server.sessions.size := by
  cases superseded with
  | absent => exact le_rfl
  | evicted owned found own addrs =>
      simp only [dropped, FiniteMap.size, FiniteMap.keys_erase]
      exact Finset.card_le_card (Finset.erase_subset _ _)

theorem noted_joined {pending : List Event} {peer : PeerId} {base middle numbered : Server F} {player : UInt64}
    {generation : UInt64} {session : Session F} {reply : ServerHello F} (server_inv : Inv pending server)
    (inv : LogInv log server) (vacant : server.sessions.get? peer = none)
    (same : Settles server base) (posts : base.sent = server.sent) (sessions : base.sessions = server.sessions)
    (superseded : Superseded base player middle)
    (numbering : Numbered (placedAtOrigin middle player) numbered generation)
    (own : session.generation = generation) :
    Noted log ⟨server, .handle moment event, entered numbered peer session reply⟩ := by
  have dropped := superseded_settles superseded
  have greeted : Posts [.hello] server (entered numbered peer session reply) := by
    refine ⟨[(peer, { seq := base.seq + 1, payload := .serverHello reply })], ?_, by simp [topicOf]⟩
    rw [← posts]
    exact entered_sent peer session reply superseded numbering
  have kept : ∀ other known, other ≠ peer → generations middle other = some known →
      generations server other = some known :=
    fun other known _ found => same.kept other known (dropped.kept other known found)
  have opening : ∀ other, opensBy ⟨server, .handle moment event, entered numbered peer session reply⟩ other = true ↔
      other = peer := by
    intro other
    simp only [opensBy, Bool.and_eq_true, Option.isNone_iff_eq_none]
    constructor
    · rintro ⟨absent, present⟩
      obtain ⟨later, found⟩ := Option.isSome_iff_exists.mp present
      rcases entered_sessions peer session reply superseded numbering found with ⟨here, -⟩ | ⟨-, old, held, -⟩
      · exact here
      · rw [sessions, absent] at held
        cases held
    · rintro rfl
      exact ⟨vacant, by simp [entered]⟩
  have stays : ∀ other, ((entered numbered peer session reply).sessions.get? other).isSome →
      opensBy ⟨server, .handle moment event, entered numbered peer session reply⟩ other = true ∨
        (server.sessions.get? other).isSome := by
    intro other present
    simp only [opensBy, present, Bool.and_true]
    cases server.sessions.get? other <;> simp
  have silent : ((Stage.mk server (.handle moment event) (entered numbered peer session reply)).posted.filter
      fun post => topicOf post.2.payload ∈ fanoutTopics) = [] := posted_other_topics greeted (by decide)
  cases numbering with
  -- The counter had room: no job is lost, and the newcomer's generation is past every captured one.
  | counted room =>
      have lanes : ∀ clock, laneOf (entered { placedAtOrigin middle player with
          nextSessionGeneration := (placedAtOrigin middle player).nextSessionGeneration + 1 } peer session reply)
            clock = laneOf server clock :=
        fun clock => (dropped.lanes clock).trans (same.lanes clock)
      have next : (placedAtOrigin middle player).nextSessionGeneration = server.nextSessionGeneration :=
        dropped.numbered.trans same.numbered
      refine ⟨?_, ?_, fun clock job queued => ?_⟩
      · rw [noteStage_same inv lanes]
        refine inv.counted (next ▸ room) lanes opening ?_ ?_ ?_ rfl
        · simp [generations, entered, own, next]
        · intro other known apart found
          refine kept other known apart ?_
          simpa [generations, entered, placedAtOrigin, FiniteMap.get?_insert, apart] using found
        · simp [entered, next]
      · rw [noteStage_same inv lanes, silent, List.append_nil]
        rfl
      · rw [queuedBy_same moment event (lanes clock)] at queued
        cases queued
  -- The counter was spent: every job is forgotten before the live sessions are numbered from one.
  | renumbered spent =>
      have few : middle.sessions.size ≤ 1024 := by
        refine (superseded_size superseded).trans ?_
        rw [sessions]
        refine server_inv.hosted.size_le.trans ?_
        simp only [Config.maxTransportPeersUsize, clampNat, maxTransportPeersCeiling]
        omega
      generalize reached : entered _ peer session reply = after at *
      have lanes : ∀ clock, laneOf after clock = [] := by
        intro clock
        rw [← reached]
        cases clock <;> rfl
      have forgotten : ∀ clock, forgottenBy ⟨server, .handle moment event, after⟩ clock = true := by
        intro clock
        simp [forgottenBy, lanes]
      have unqueued : ∀ clock, queuedBy ⟨server, .handle moment event, after⟩ clock = [] := by
        intro clock
        simp [queuedBy, lanes]
      have shape : noteStage log ⟨server, .handle moment event, after⟩ =
          ((log.discard false).discard true).advance (opensBy ⟨server, .handle moment event, after⟩) := by
        simp only [noteStage, noteForgotten, forgotten, if_true, noteQueued, unqueued, visitsBy, List.foldl_nil]
      refine ⟨?_, ?_, fun clock job queued => ?_⟩
      · rw [shape]
        refine inv.renumbered lanes ?_ stays (by rw [← reached]; rfl)
        intro other later found
        rw [← reached] at found ⊢
        simp only [entered, FiniteMap.get?_insert] at found ⊢
        split at found
        · cases found
          exact own.le
        · obtain ⟨index, within, numbered⟩ := rekeyed_generation _ found
          rw [numbered, UInt64.le_iff_toNat_le]
          simp only [placedAtOrigin] at within ⊢
          simp only [UInt64.toNat_ofNat', UInt64.toNat_add, UInt64.toNat_one]
          omega
      · rw [shape, silent, List.append_nil]
        rfl
      · rw [unqueued] at queued
        cases queued

theorem outcome_noted {pending : List Event} (server_inv : Inv pending server) (inv : LogInv log server)
    (outcome : Outcome server moment event after) : Noted log ⟨server, .handle moment event, after⟩ := by
  cases outcome with
  | calm frame posts kept =>
      refine noted_handled inv ?_ posts (by decide)
      have sessions : after.sessions = server.sessions := (congrArg Server.sessions frame :)
      refine .of_same (congrArg Server.chatFanout frame :) (congrArg Server.clockFanout frame :) ?_
        (congrArg Server.nextSessionGeneration frame :) (congrArg Server.fanoutAudienceCache frame :)
      funext peer
      simp only [generations, sessions]
  | @moved peer bytes session found motion state cell placed =>
      have silent : Posts [] server { server with
          clientStateLimiter := (server.clientStateLimiter.allow session.playerId moment.admissionMs).1
          world := server.world.place session.playerId motion.pos.1 motion.pos.2.2
          sessions := server.sessions.insert peer
            (movedSession session motion state (session.sub.recenter cell).1 cell)
          dirtyPlayers := insert session.playerId server.dirtyPlayers
          aoiRecipients :=
            if (session.sub.recenter cell).2.isEmpty then server.aoiRecipients
            else insert peer server.aoiRecipients } := posts_of_sent_eq rfl
      refine noted_handled inv (.of_same rfl rfl ?_ rfl rfl) silent (by simp)
      funext other
      simp only [generations, FiniteMap.get?_insert]
      split <;> rename_i own
      · simp [own, found, movedSession]
      · rfl
  | spoke found here about captured =>
      exact noted_spoke server_inv inv captured rfl rfl rfl rfl rfl rfl
  | @joined peer bytes base middle numbered player identityHash name generation reply vacant frame posts
      superseded numbering =>
      have sessions : base.sessions = server.sessions := (congrArg Server.sessions frame :)
      refine noted_joined server_inv inv vacant ?_ posts sessions superseded numbering rfl
      refine .of_same (congrArg Server.chatFanout frame :) (congrArg Server.clockFanout frame :) ?_
        (congrArg Server.nextSessionGeneration frame :) (congrArg Server.fanoutAudienceCache frame :)
      funext peer
      simp only [generations, sessions]
  | @left peer reason session db flushPlayers dirtyPlayers flushPaused found =>
      have silent : Posts [] server
          { departed server peer session.playerId with db, flushPlayers, dirtyPlayers, flushPaused } :=
        posts_of_sent_eq rfl
      refine noted_handled inv ⟨fun _ => rfl, ?_, rfl, Or.inl rfl⟩ silent (by simp)
      intro other generation known
      simp only [generations, departed, dropped, FiniteMap.get?_erase] at known ⊢
      split at known
      · cases known
      · exact known

omit [Codec F] in
theorem generations_touched {rest : Server F → Server F} {view : Session F → Session F} {topics : List Topic}
    (touches : Touches rest view topics server after)
    (seen : ∀ session, (view session).generation = session.generation) : generations after = generations server := by
  funext peer
  have same := congrArg (Option.map Session.generation) (touches.sessions peer)
  simpa [generations, Function.comp_def, seen] using same

/-- Tick work that keeps every generation. -/
theorem noted_touched {tick : Tick} {rest : Server F → Server F} {view : Session F → Session F}
    {topics : List Topic} (inv : LogInv log server) (touches : Touches rest view topics server (tick.run server))
    (seen : ∀ session, (view session).generation = session.generation)
    (chat : (tick.run server).chatFanout = server.chatFanout)
    (clock : (tick.run server).clockFanout = server.clockFanout)
    (numbered : (tick.run server).nextSessionGeneration = server.nextSessionGeneration)
    (cached : (tick.run server).fanoutAudienceCache = server.fanoutAudienceCache)
    (others : ∀ topic ∈ topics, topic ∉ fanoutTopics)
    (shape : noteStage log ⟨server, .tick tick, tick.run server⟩ =
      log.advance (opensBy ⟨server, .tick tick, tick.run server⟩))
    (unqueued : ∀ lane, queuedBy ⟨server, .tick tick, tick.run server⟩ lane = []) :
    Noted log ⟨server, .tick tick, tick.run server⟩ :=
  noted_settled inv (.of_same chat clock (generations_touched touches seen) numbered cached) touches.posts others
    shape unqueued

theorem noted_fanout (inv : LogInv log server) (about : JobsAbout fanoutTopics server) :
    Noted log ⟨server, .tick .fanout, Tick.fanout.run server⟩ := by
  have run : FanoutRun server (fanoutNotes server) (Tick.fanout.run server) := processFanoutWork_run server
  generalize Tick.fanout.run server = after at run
  have sessions : after.sessions = server.sessions := (congrArg Server.sessions run.frame :)
  have shape : noteStage log ⟨server, .tick .fanout, after⟩ =
      ((fanoutNotes server).foldl (noteVisit server) log).advance (opensBy ⟨server, .tick .fanout, after⟩) := rfl
  obtain ⟨worked, new, handed, sent⟩ := inv.fanoutRun rfl run
  refine ⟨?_, ?_, fun _ _ queued => by cases queued⟩
  · rw [shape]
    refine worked.settle (.of_same rfl rfl rfl rfl rfl) fun peer => ?_
    simp only [opensBy, sessions]
    cases server.sessions.get? peer <;> rfl
  · rw [shape]
    show List.map wire (List.foldl (noteVisit server) log (fanoutNotes server)).handed = _
    obtain ⟨posts, grown, topics⟩ := (run.posts about).1
    have posted : (Stage.mk server (.tick .fanout) after).posted = new.map wire := Stage.posted_eq sent
    have same : posts = new.map wire := List.append_cancel_left (grown.symm.trans sent)
    rw [handed, List.map_append, posted]
    congr 1
    rw [eq_comm, List.filter_eq_self, ← same]
    intro post member
    simpa using topics post member

omit [Codec F] in
theorem opensBy_same (action : Action) (sessions : after.sessions = server.sessions) (peer : PeerId) :
    opensBy ⟨server, action, after⟩ peer = false := by
  simp only [opensBy, sessions]
  cases server.sessions.get? peer <;> rfl

omit [Codec F] in
theorem generations_same (sessions : after.sessions = server.sessions) : generations after = generations server := by
  funext peer
  simp only [generations, sessions]

/-- A clock tick forgets the last clock job, heard or not. -/
theorem noted_unheard (inv : LogInv log server) (clockMs : Int64) (clock : after.clockFanout = none)
    (chat : after.chatFanout = server.chatFanout) (sessions : after.sessions = server.sessions)
    (numbered : after.nextSessionGeneration = server.nextSessionGeneration)
    (cached : after.fanoutAudienceCache = server.fanoutAudienceCache) (sent : after.sent = server.sent) :
    Noted log ⟨server, .tick (.clock clockMs), after⟩ := by
  have silent : Posts [] server after := posts_of_sent_eq sent
  have unqueued : ∀ lane, queuedBy ⟨server, .tick (.clock clockMs), after⟩ lane = [] := by
    intro lane
    cases lane <;> simp [queuedBy, laneOf, clock]
  have shape : noteStage log ⟨server, .tick (.clock clockMs), after⟩ =
      (log.discard true).advance (opensBy ⟨server, .tick (.clock clockMs), after⟩) := by
    simp only [noteStage, noteQueued, unqueued, List.foldl_nil]
    rfl
  have cleared : LogInv (log.discard true) after :=
    inv.discard (by simp [laneOf, clock]) chat (generations_same sessions) numbered cached
  refine ⟨?_, ?_, ?_⟩
  · rw [shape]
    exact cleared.settle (.of_same rfl rfl rfl rfl rfl) (opensBy_same _ sessions)
  · rw [shape, posted_other_topics silent (by simp), List.append_nil]
    rfl
  · intro lane job queued
    rw [unqueued] at queued
    cases queued

theorem noted_clocked {pending : List Event} {envelope : Envelope F} {audience : Audience}
    (server_inv : Inv pending server) (inv : LogInv log server) (captured : CapturedFrom server audience)
    (clockMs : Int64) (clock : after.clockFanout = some { envelope, senderCell := none, audience })
    (chat : after.chatFanout = server.chatFanout) (sessions : after.sessions = server.sessions)
    (numbered : after.nextSessionGeneration = server.nextSessionGeneration)
    (cached : after.fanoutAudienceCache = some audience) (sent : after.sent = server.sent) :
    Noted log ⟨server, .tick (.clock clockMs), after⟩ := by
  have silent : Posts [] server after := posts_of_sent_eq sent
  have live := captured_live server_inv inv captured
  have others : queuedBy ⟨server, .tick (.clock clockMs), after⟩ false = [] := rfl
  have queued : queuedBy ⟨server, .tick (.clock clockMs), after⟩ true =
      [{ envelope, senderCell := none, audience }] := by
    simp [queuedBy, laneOf, clock]
  have shape : noteStage log ⟨server, .tick (.clock clockMs), after⟩ =
      ((log.discard true).capture true (envelope, none) (captivesAt log server)).advance
        (opensBy ⟨server, .tick (.clock clockMs), after⟩) := by
    simp only [noteStage, noteQueued, others, queued, List.foldl_nil, List.foldl_cons]
    rfl
  have cleared : LogInv (log.discard true) { server with clockFanout := none } :=
    inv.discard rfl rfl rfl rfl rfl
  have appended : laneOf after true = laneOf { server with clockFanout := none } true ++
      [{ envelope, senderCell := none, audience }] := by
    simp [laneOf, clock]
  have grown : LogInv ((log.discard true).capture true (envelope, none) (captivesAt log server)) after :=
    cleared.capture appended chat rfl live (generations_same sessions) numbered cached
  refine ⟨?_, ?_, ?_⟩
  · rw [shape]
    exact grown.settle (.of_same rfl rfl rfl rfl rfl) (opensBy_same _ sessions)
  · rw [shape, posted_other_topics silent (by simp), List.append_nil]
    rfl
  · intro lane job member
    cases lane with
    | false => cases member
    | true =>
        rw [queued, List.mem_singleton] at member
        exact member ▸ live

theorem noted_clock {pending : List Event} (server_inv : Inv pending server) (inv : LogInv log server)
    (clockMs : Int64) : Noted log ⟨server, .tick (.clock clockMs), (Tick.clock clockMs).run server⟩ := by
  have effect : ClockEffect server ((Tick.clock clockMs).run server) := broadcastClock_effect server clockMs
  generalize (Tick.clock clockMs).run server = after at effect
  cases effect with
  | skipped => exact noted_unheard inv clockMs rfl rfl rfl rfl rfl rfl
  | queued about captured => exact noted_clocked server_inv inv captured clockMs rfl rfl rfl rfl rfl rfl

theorem tick_noted {pending : List Event} (server_inv : Inv pending server) (inv : LogInv log server)
    (about : JobsAbout fanoutTopics server) (tick : Tick) : Noted log ⟨server, .tick tick, tick.run server⟩ := by
  cases tick with
  | aoi fails =>
      have effect := processAoiWork_effect server fails
      exact noted_touched inv effect (fun _ => rfl) (congrArg Server.chatFanout effect.frame :)
        (congrArg Server.clockFanout effect.frame :) (congrArg Server.nextSessionGeneration effect.frame :)
        (congrArg Server.fanoutAudienceCache effect.frame :) (by decide) rfl fun _ => rfl
  | snapshots =>
      have effect := broadcastSnapshots_effect server
      exact noted_touched inv effect (fun _ => rfl) (congrArg Server.chatFanout effect.frame :)
        (congrArg Server.clockFanout effect.frame :) (congrArg Server.nextSessionGeneration effect.frame :)
        (congrArg Server.fanoutAudienceCache effect.frame :) (by decide) rfl fun _ => rfl
  | fanout => exact noted_fanout inv about
  | dirtyFlush fails now =>
      have effect := (processDirtyFlushAt_effect server fails now).toTouches
      exact noted_touched inv effect (fun _ => rfl) (congrArg Server.chatFanout effect.frame :)
        (congrArg Server.clockFanout effect.frame :) (congrArg Server.nextSessionGeneration effect.frame :)
        (congrArg Server.fanoutAudienceCache effect.frame :) (by simp) rfl fun _ => rfl
  | beginFlush =>
      have touches : Touches (fun _ => server) id [] server (Tick.beginFlush.run server) :=
        ⟨rfl, fun _ => rfl, posts_of_sent_eq rfl⟩
      exact noted_touched inv touches (fun _ => rfl) rfl rfl rfl rfl (by simp) rfl fun _ => rfl
  | clock clockMs => exact noted_clock server_inv inv clockMs

end Stages

/-! Whole runs. -/
section Runs
variable {F : Type} [Platform F] [Codec F] {db : Db F} {trace : List (Stage F)} {server : Server F}
  {pending : List Event}

structure RunNoted (trace : List (Stage F)) (server : Server F) : Prop where
  inv : LogInv (logOf trace) server
  told : fanoutPosted trace = (logOf trace).handed.map wire
  captured : ∀ stage ∈ trace, ∀ clock, ∀ job ∈ queuedBy stage clock,
    job.audience.recipients = liveRecipients stage.before

theorem RunNoted.snoc {stage : Stage F} (noted : RunNoted trace stage.before) (next : Noted (logOf trace) stage) :
    RunNoted (trace ++ [stage]) stage.after where
  inv := by
    rw [logOf, observe_snoc]
    exact next.inv
  told := by
    have grown : fanoutPosted (trace ++ [stage]) = fanoutPosted trace ++
        stage.posted.filter fun post => topicOf post.2.payload ∈ fanoutTopics := by
      simp [fanoutPosted]
    rw [grown, noted.told, ← next.told]
    simp only [logOf, observe_snoc]
  captured other member := by
    rcases List.mem_append.mp member with earlier | last
    · exact noted.captured other earlier
    · cases List.mem_singleton.mp last
      exact next.captured

theorem run_noted (run : Run db trace server pending) : RunNoted trace server := by
  induction run with
  | start opened =>
      obtain ⟨identityPlayers, -, rfl⟩ := new_opened opened
      refine ⟨⟨.empty, ?_, ?_, ?_, ?_⟩, rfl, by simp⟩
      · intro clock
        cases clock <;> exact .nil
      · simp [Server.opened]
      · simp [Server.opened]
      · simp [Server.opened]
  | @poll trace server state now script run polled ih =>
      have silent : Posts [] server { server with host := state.host } := posts_of_sent_eq rfl
      exact ih.snoc (noted_settled ih.inv (.of_same rfl rfl rfl rfl rfl) silent (by simp) rfl fun _ => rfl)
  | handle moment run ih =>
      exact ih.snoc (outcome_noted run.inv ih.inv (handleEvent_outcome run.inv moment _))
  | tick tick run ih =>
      exact ih.snoc (tick_noted run.inv ih.inv (reachable_jobsAbout run.reachable) tick)

/-- Chat and clock datagrams reach the audience captured for them and nobody else, once and in order. -/
theorem fanout_reaches_captured (run : Run db trace server pending) :
    (∀ stage ∈ trace, ∀ clock, ∀ job ∈ queuedBy stage clock,
        job.audience.recipients = liveRecipients stage.before) ∧
      (∀ clock, List.Forall₂ (fun job parcel => parcel.load = (job.envelope, job.senderCell) ∧
        parcel.visits.length = job.nextRecipient) (laneOf server clock) ((logOf trace).lanes clock)) ∧
      fanoutPosted trace = (logOf trace).handed.map wire ∧
      (∀ entry ∈ (logOf trace).handed, entry.visit.holder = some entry.visit.opened ∧
        entry.visit.opened < entry.slip.number) ∧
      (∀ parcel ∈ (logOf trace).completed,
        parcel.visits.map Visit.toCaptive = parcel.captives ∧ (parcel.captives.map Captive.peer).Nodup ∧
          (∀ visit ∈ parcel.visits,
            visit.delivered = true ↔ visit.holder = some visit.opened ∧ visit.inView = true) ∧
          (logOf trace).handedFor parcel.number = parcel.deliveries) ∧
      ∀ peer, (((logOf trace).handed.filter fun entry =>
        entry.slip.lane = false ∧ entry.visit.peer = peer).map fun entry => entry.slip.number).Pairwise (· < ·) := by
  have noted := run_noted run
  have sound := noted.inv.sound
  refine ⟨noted.captured, ?_, noted.told, fun entry member => (sound.logged entry member).2, ?_,
    sound.ordered false⟩
  · intro clock
    exact (noted.inv.lanes clock).imp fun job parcel follows => ⟨follows.load, follows.progress⟩
  · intro parcel done
    obtain ⟨fair, -, whole, accounted⟩ := sound.finished parcel done
    exact ⟨whole, fair.once, fair.delivered_iff, accounted⟩

/-- Both clients are told the time. -/
def clockedServer : Server Int := (Tick.clock 0).run joinedServer

def toldServer : Server Int := Tick.fanout.run clockedServer

theorem fanout_reaches_captured_told :
    ∃ trace, Run emptyDb trace toldServer [] ∧
      ∃ entry ∈ (logOf trace).handed, entry.visit.peer = 1 ∧ entry.visit.opened < entry.slip.number := by
  obtain ⟨trace, run⟩ := exists_run (Reachable.tick (.clock 0) joinedServer_reached)
  have told : Run emptyDb (trace ++ [⟨clockedServer, .tick .fanout, toldServer⟩]) toldServer [] := .tick .fanout run
  refine ⟨_, told, ?_⟩
  obtain ⟨-, -, logged, held, -, -⟩ := fanout_reaches_captured told
  have posted : ((Stage.mk clockedServer (.tick .fanout) toldServer).posted.filter fun post =>
      topicOf post.2.payload ∈ fanoutTopics).map Prod.fst = [1, 2] := by decide +kernel
  have member : 1 ∈ (fanoutPosted (trace ++ [⟨clockedServer, .tick .fanout, toldServer⟩])).map Prod.fst := by
    simp only [fanoutPosted, List.flatMap_append, List.filter_append, List.map_append, List.flatMap_cons,
      List.flatMap_nil, List.append_nil, posted]
    simp
  rw [logged, List.map_map, List.mem_map] at member
  obtain ⟨entry, known, own⟩ := member
  exact ⟨entry, known, own, (held entry known).2⟩

end Runs
end SailwindOnline.Fanout
